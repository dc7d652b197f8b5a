import GlideFS.WriteCache.Steps

/-! # Evicted blocks are in S3

When a flush evicts, the manifest object in S3 should resolve every block it evicts
to what it read. The flush appends its packs to the manifest in memory and then
stores that manifest. A PUT that fails leaves the packs in the manifest in memory:
the next flush of the same bytes finds them there, stages nothing and evicts
without a PUT.
-/

namespace GlideFS.WriteCache

open Block Lib Cache

variable {Hash PackId : Type} [DecidableEq Hash] [DecidableEq PackId] {g : Geometry}
  {C : Codec (BlockData g.blockSize) Hash PackId} {s t : Cache g C} {Q : Prop}

/-- The manifest resolves what the flush evicts to the bytes in the flushing file. -/
def Readable (store : PackStore C) (m : VolumeManifest PackId)
    (file : Option (DataFile g.blockSize)) (plans : List (ChunkPlan C)) : Prop :=
  ∃ f, file = some f ∧ ∀ b ∈ flushedBlocks plans, resolveBlock g store m b = some (f.cur b)

/-- A flush that stages nothing relies on the manifest object as it is. -/
def DurableIfUnstaged (store : PackStore C) (m durable : VolumeManifest PackId)
    (snap : Snapshot g (BlockData g.blockSize)) : Prop :=
  (∀ p ∈ snap.blocks, resolveBlock g store m p.1 = some p.2) →
    ∀ p ∈ snap.blocks, resolveBlock g store durable p.1 = resolveBlock g store m p.1

/-- An uploading flush: planned over the store `old`, of which `up` is uploaded by now. -/
structure InFlight (store : PackStore C) (m : VolumeManifest PackId)
    (file : Option (DataFile g.blockSize)) (plans pending : List (ChunkPlan C))
    (old : PackStore C) (level : Int) (snap : Snapshot g (BlockData g.blockSize))
    (up : List (ChunkPlan C)) : Prop where
  read : ∃ f, file = some f ∧ ∀ p ∈ snap.blocks, p.2 = f.cur p.1
  backed : Backed old m
  planned : Planned old m level snap plans
  fresh : NoStalePackSkip old m level snap
  uploaded : Uploaded old store up
  pending : ∀ p ∈ staged m plans, p ∈ pending ∨ p ∈ up

/-- What a flush that has computed is sure of; with `Q`, also for the manifest in S3. -/
def StageOk (Q : Prop) (store : PackStore C) (m durable : VolumeManifest PackId)
    (file : Option (DataFile g.blockSize)) : FlushStage C g → Prop
  | .uploading _ plans pending =>
      ∃ old level snap up, InFlight store m file plans pending old level snap up ∧
        Backed old durable ∧ (Q → DurableIfUnstaged old m durable snap)
  | .putting _ plans => Readable store m file plans
  | .evicting _ plans => Readable store m file plans ∧ (Q → Readable store durable file plans)
  | _ => True

structure RemoteInv (Q : Prop) (s : Cache g C) : Prop where
  manifest : Backed s.store s.volumeManifest
  durable : Backed s.store s.durable
  stage : ∀ r, s.flush = some r →
    StageOk Q s.store s.volumeManifest s.durable s.flushingFile r.stage

theorem RemoteInv.local (h : RemoteInv Q s) (l : Local s t) : RemoteInv Q t := by
  obtain ⟨manifest, durable, stage⟩ := h
  rw [← l.store, ← l.volumeManifest] at manifest
  rw [← l.store, ← l.durable] at durable
  rw [← l.flush, ← l.store, ← l.volumeManifest, ← l.durable, ← l.flushingFile] at stage
  exact ⟨manifest, durable, stage⟩

namespace InFlight

variable {store old : PackStore C} {m durable : VolumeManifest PackId}
  {file : Option (DataFile g.blockSize)} {plans pending up : List (ChunkPlan C)} {level : Int}
  {snap : Snapshot g (BlockData g.blockSize)}

theorem upload (h : InFlight store m file plans pending old level snap up) {k : Nat}
    {p : ChunkPlan C} (at_k : pending[k]? = some p) :
    InFlight (store.streamChunkPack p.chunkIdx p.pack) m file plans (pending.eraseIdx k)
      old level snap (p :: up) :=
  { h with
    uploaded := h.uploaded.streamChunkPack p
    pending := fun q staged => by
      cases h.pending q staged with
      | inr done => exact Or.inr (List.mem_cons_of_mem p done)
      | inl waiting =>
        obtain ⟨i, at_i⟩ := List.mem_iff_getElem?.mp waiting
        by_cases same : i = k
        · subst same
          rw [at_k] at at_i
          cases at_i
          exact Or.inr List.mem_cons_self
        · exact Or.inl (List.mem_eraseIdx_iff_getElem?.mpr ⟨i, same, at_i⟩) }

/-- Other packs have come into the store, and the plan is taken for one over the store now. -/
theorem rebase {more : PackStore C} (h : InFlight store m file plans pending old level snap up)
    (keeps : store.Extends more) : InFlight more m file plans pending more level snap up := by
  have grown : old.Extends more := fun c id p get => keeps c id p (h.uploaded.keeps c id p get)
  have changed (c : Nat) : changedBlocks more m level snap c = changedBlocks old m level snap c := by
    unfold changedBlocks
    simp only [h.backed.resolve_extends grown]
  refine ⟨h.read, h.backed.extends grown, ⟨h.planned.chunks, fun plan mem => ?_⟩, fun c => ?_,
    ⟨fun _ _ _ get => get, fun p mem => keeps _ _ _ (h.uploaded.has p mem)⟩, h.pending⟩
  · obtain ⟨flushed, packed⟩ := h.planned.plans plan mem
    exact ⟨flushed, packed.trans (changed _).symm⟩
  · rw [changed c]
    exact h.fresh c

theorem complete (h : InFlight store m file plans [] old level snap up) :
    Uploaded old store (staged m plans) where
  keeps := h.uploaded.keeps
  has p mem := h.uploaded.has p ((h.pending p mem).resolve_left List.not_mem_nil)

/-- The manifest with the staged packs resolves what was read. -/
theorem readable (h : InFlight store m file plans [] old level snap up) :
    Readable store (appendStaged m (staged m plans)) file plans := by
  obtain ⟨f, handle, contents⟩ := h.read
  refine ⟨f, handle, fun b evicted => ?_⟩
  obtain ⟨p, mem, rfl⟩ := List.mem_map.mp (h.planned.mem_flushedBlocks.mp evicted)
  rw [resolve_flushed h.backed h.planned h.complete h.fresh mem, contents p mem]

/-- A flush that stages nothing finds the manifest with all it read. -/
theorem resolved_of_unstaged (h : InFlight store m file plans [] old level snap up)
    (none : staged m plans = []) : ∀ p ∈ snap.blocks, resolveBlock g old m p.1 = some p.2 := by
  intro p mem
  have all := resolve_flushed h.backed h.planned h.complete h.fresh mem
  rw [none] at all
  exact (h.backed.resolve_extends h.uploaded.keeps g p.1).symm.trans all

/-- A block the flush does not evict resolves as before. -/
theorem resolve_other (h : InFlight store m file plans [] old level snap up) {b : Nat}
    (known : g.Addressable b) (other : b ∉ flushedBlocks plans) :
    resolveBlock g store (appendStaged m (staged m plans)) b = resolveBlock g store m b := by
  rw [resolve_unchanged h.backed h.planned h.complete known fun p mem same => ?_,
    h.backed.resolve_extends h.uploaded.keeps]
  exact absurd (h.planned.mem_flushedBlocks.mpr (List.mem_map.mpr ⟨p, mem, same⟩)) other

theorem readable_durable (h : InFlight store m file plans [] old level snap up)
    (backed : Backed old durable) (settled : DurableIfUnstaged old m durable snap)
    (none : staged m plans = []) : Readable store durable file plans := by
  obtain ⟨f, handle, contents⟩ := h.read
  have known := h.resolved_of_unstaged none
  refine ⟨f, handle, fun b evicted => ?_⟩
  obtain ⟨p, mem, rfl⟩ := List.mem_map.mp (h.planned.mem_flushedBlocks.mp evicted)
  rw [backed.resolve_extends h.uploaded.keeps, settled known p mem, known p mem,
    contents p mem]

end InFlight

/-- What a flush may compute: its new packs are not listed yet; with `Q`, if it has none, S3
    resolves its blocks as the manifest in memory does. -/
def Act.Resolvable (Q : Prop) (s : Cache g C) : Act → Prop
  | .compute level skipped _ => ∀ r ∈ s.flush, ∀ claim, r.stage = .rotated claim →
      ∀ f ∈ s.flushingFile,
        NoStalePackSkip s.store s.volumeManifest level (claim.read f skipped) ∧ (Q →
          DurableIfUnstaged s.store s.volumeManifest s.durable (claim.read f skipped))
  | _ => True

/-- A flush without packs on the way. -/
theorem RemoteInv.quiet (h : RemoteInv Q s) (same : t.remote = s.remote)
    (stage : ∀ r, t.flush = some r →
      StageOk Q s.store s.volumeManifest s.durable t.flushingFile r.stage) : RemoteInv Q t := by
  simp only [remote, Prod.mk.injEq] at same
  obtain ⟨store, manifest, durable⟩ := same
  refine ⟨?_, ?_, ?_⟩
  · rw [store, manifest]
    exact h.manifest
  · rw [store, durable]
    exact h.durable
  · rw [store, manifest, durable]
    exact stage

variable {r : FlushRun C g} {plans : List (ChunkPlan C)}

theorem RemoteInv.endCkpt (h : RemoteInv Q s) (run : CkptRun) (ok : Bool) :
    RemoteInv Q (s.endCkpt run ok) := by
  refine h.quiet rfl fun r at_r => ?_
  obtain ⟨r', at_r', resumes⟩ := endCkpt_flush at_r
  have before := h.stage r' at_r'
  cases resumes with
  | clearing | deleting => trivial
  | same => exact before

theorem RemoteInv.putManifest (h : RemoteInv Q s) (outcome : PutOutcome)
    (same : t.remote = (s.putManifest outcome).remote)
    (stage : ∀ r, t.flush = some r →
      StageOk Q t.store t.volumeManifest t.durable t.flushingFile r.stage) : RemoteInv Q t := by
  simp only [remote, Prod.mk.injEq] at same
  obtain ⟨store, manifest, durable⟩ := same
  refine ⟨?_, ?_, stage⟩
  · rw [store, manifest]
    exact h.manifest
  · rw [store, durable]
    unfold Cache.putManifest
    dsimp only
    split
    · exact h.durable
    · exact h.manifest

theorem compute_remoteInv (h : RemoteInv Q s) {claim : Claim g} {level : Int}
    {skipped uncopied : List Nat} {f : DataFile g.blockSize} {stats : FlushStats}
    (at_r : s.flush = some r) (at_claim : r.stage = .rotated claim)
    (resolvable : Act.Resolvable Q s (.compute level skipped uncopied))
    (handle : s.flushingFile = some f)
    (computed : planFlush s.store s.volumeManifest level (claim.read f skipped) = some plans) :
    RemoteInv Q (((claim.blocks.filter (· ∈ skipped)).foldl (unskipBlock f uncopied) s).setStats r
      (.uploading claim plans (staged s.volumeManifest plans)) stats) := by
  obtain ⟨plans', computed', planned⟩ := planFlush_planned h.manifest level (claim.read f skipped)
  rw [computed] at computed'
  cases computed'
  have l := (shifts_unskip f uncopied s (claim.blocks.filter (· ∈ skipped))).local
  refine h.quiet l.remote fun r' at_r' => ?_
  cases at_r'
  obtain ⟨fresh, settled⟩ := resolvable r at_r claim at_claim f handle
  refine ⟨s.store, level, claim.read f skipped, [], ?_, h.durable, settled⟩
  exact
    { read := ⟨f, l.flushingFile.trans handle, fun p mem => by
        obtain ⟨b, _, rfl⟩ := List.mem_map.mp mem
        rfl⟩
      backed := h.manifest
      planned
      fresh
      uploaded := ⟨fun _ _ _ get => get, fun _ mem => absurd mem List.not_mem_nil⟩
      pending := fun _ mem => Or.inl mem }

theorem upload_remoteInv (h : RemoteInv Q s) {claim : Claim g} {pending : List (ChunkPlan C)}
    {k : Nat} {p : ChunkPlan C} {stats : FlushStats}
    (up : StageOk Q s.store s.volumeManifest s.durable s.flushingFile (.uploading claim plans pending))
    (at_k : pending[k]? = some p) :
    RemoteInv Q ((s.uploadPack p).setStats r (.uploading claim plans (pending.eraseIdx k)) stats) := by
  obtain ⟨old, level, snap, up, inFlight, backed, settled⟩ := up
  refine ⟨h.manifest.extends ?_, h.durable.extends ?_, fun r' at_r' => ?_⟩
  · exact fun _ _ _ get => PackStore.streamChunkPack_keeps get
  · exact fun _ _ _ get => PackStore.streamChunkPack_keeps get
  · cases at_r'
    exact ⟨old, level, snap, p :: up, inFlight.upload at_k, backed, settled⟩

/-- The packs of a flush are all uploaded when it appends them. -/
theorem append_remoteInv (h : RemoteInv Q s) {claim : Claim g} {stage : FlushStage C g}
    (up : StageOk Q s.store s.volumeManifest s.durable s.flushingFile (.uploading claim plans []))
    (next : stage = .putting claim plans ∨ stage = .evicting claim plans ∧ staged s.volumeManifest plans = []) :
    RemoteInv Q ((s.appendPacks (staged s.volumeManifest plans)).setStage r stage) := by
  obtain ⟨old, level, snap, up, inFlight, backed, settled⟩ := up
  refine ⟨backed_staged inFlight.backed inFlight.complete, h.durable, fun r' at_r' => ?_⟩
  cases at_r'
  cases next with
  | inl putting =>
    subst putting
    exact inFlight.readable
  | inr evicting =>
    obtain ⟨rfl, none⟩ := evicting
    exact ⟨inFlight.readable, fun q => inFlight.readable_durable backed (settled q) none⟩

theorem step_remoteInv (h : RemoteInv Q s) {a : Act} (resolvable : a.Resolvable Q s)
    (taken : a.step s = some t) : RemoteInv Q t := by
  cases step_cases taken with
  | write done | zeroRange done => exact h.local (local_putRange done)
  | ckptStart free | ckptCopy at_run more | ckptSeal at_run | ckptPublish at_run =>
    exact h.quiet rfl h.stage
  | ckptTruncate at_run covered =>
    exact RemoteInv.endCkpt (s := s.truncateWal) (h.quiet rfl h.stage) _ true
  | ckptKeep at_run =>
    exact RemoteInv.endCkpt (s := s.keepWal) (h.quiet rfl h.stage) _ true
  | ckptFail at_run => exact h.endCkpt _ false
  | rotate at_r named =>
    have kept := (shifts_claimDirty (s.setFlags true s.sequence)).remote
    exact h.quiet kept fun r' at_r' => by cases at_r'; trivial
  | compute at_r nonempty handle computed =>
    exact compute_remoteInv h at_r rfl resolvable handle computed
  | upload at_r at_k => exact upload_remoteInv h (h.stage _ at_r) at_k
  | appendNone at_r none => exact append_remoteInv h (h.stage _ at_r) (Or.inr ⟨rfl, none⟩)
  | append at_r => exact append_remoteInv h (h.stage _ at_r) (Or.inl rfl)
  | put at_r =>
    refine h.putManifest .ok rfl fun r' at_r' => ?_
    cases at_r'
    exact ⟨h.stage _ at_r, fun _ => h.stage _ at_r⟩
  | publish at_r | syncPut at_r =>
    exact h.putManifest .ok rfl fun r' at_r' => by cases at_r' <;> trivial
  | putFails outcome at_r | publishFails outcome at_r | syncPutFails outcome at_r =>
    exact h.putManifest outcome rfl fun r' at_r' => by cases at_r' <;> trivial
  | evict at_r =>
    exact h.quiet (shifts_evictBlocks s _).remote fun r' at_r' => by cases at_r'; trivial
  | copyBack at_r =>
    exact h.quiet (shifts_copyBack s _ _).remote fun r' at_r' => by cases at_r'; trivial
  | strand at_r =>
    exact h.quiet (shifts_strand _ s _).remote fun r' at_r' => by cases at_r'; trivial
  | redirty at_r => exact h.quiet (shifts_redirty s _).remote nofun
  | removeEmpty at_r | deleteFile at_r | unlink at_r | syncDelete at_r =>
    split <;> exact h.quiet rfl fun r' at_r' => by cases at_r' <;> trivial
  | dropDeleting at_r waits =>
    split <;> exact h.quiet rfl nofun
  | dropPutting at_r waits =>
    split
    · exact h.putManifest .applied rfl nofun
    · exact h.quiet rfl nofun
  | _ => exact h.quiet rfl fun r' at_r' => by cases at_r' <;> trivial

theorem openCache_remoteInv (d : Disk g.blockSize) (v : Volume C) :
    RemoteInv Q (openCache d v.store v.manifest) :=
  ⟨v.backed, v.backed, nofun⟩

theorem evict_some (taken : Act.evict.step s = some t) :
    ∃ r claim plans, s.flush = some r ∧ r.stage = .evicting claim plans ∧
      t = (s.evictBlocks (flushedBlocks plans)).setStage r (.checkpointing false) := by
  cases step_cases taken with
  | evict at_r => exact ⟨_, _, _, at_r, rfl, rfl⟩

/-- In every run in which flushes meet `Act.Resolvable` when they compute, a block that is
    evicted is resolved by the manifest in S3 to the bytes the flush read for it. -/
theorem evicted_resolves (d : Disk g.blockSize) (v : Volume C) (s t : Cache g C)
    (run : Reach Act.step (Act.Resolvable True) (openCache d v.store v.manifest) s)
    (taken : Act.evict.step s = some t) (b : Nat) (was : s.states b = .syncing)
    (now : t.states b = .notPresent) :
    ∃ f, s.flushingFile = some f ∧ resolveBlock g t.store t.durable b = some (f.cur b) := by
  have inv : RemoteInv True s := run.invariant (openCache_remoteInv d v)
    fun _ _ _ held resolvable taken => step_remoteInv held resolvable taken
  obtain ⟨r, claim, plans, at_r, stage, rfl⟩ := evict_some taken
  have readable := inv.stage r at_r
  rw [stage] at readable
  obtain ⟨f, handle, resolves⟩ := readable.2 trivial
  have l := (Shifts.foldl shifts_transitionSyncingToNotPresent s (flushedBlocks plans)).local
  refine ⟨f, handle, ?_⟩
  have evicted : b ∈ flushedBlocks plans := by
    by_contra other
    have kept : (s.evictBlocks (flushedBlocks plans)).states b = .notPresent := now
    rw [evictBlocks_states, if_neg fun h => other h.1, was] at kept
    cases kept
  have same : resolveBlock g (s.evictBlocks (flushedBlocks plans)).store
      (s.evictBlocks (flushedBlocks plans)).durable b = resolveBlock g s.store s.durable b := by
    unfold evictBlocks
    rw [l.store, l.durable]
  exact same.trans (resolves b evicted)

/-- Nothing is listed in the manifest of a new volume, and the one in S3 is the same. -/
theorem first_flush_resolvable (Q : Prop) :
    ∃ u, exec Act.step newCache writeAndRotate = some u ∧
      Act.Resolvable Q u (.compute 3 [] []) := by
  obtain ⟨u, rotated, manifest, durable⟩ : ∃ u, exec Act.step newCache writeAndRotate = some u ∧
      u.volumeManifest = .new ∧ u.durable = .new := ⟨_, rfl, rfl, rfl⟩
  refine ⟨u, rotated, fun r _ claim _ f _ => ?_⟩
  rw [manifest, durable]
  exact ⟨fun c => Or.inr List.not_mem_nil, fun _ _ _ _ => rfl⟩

private theorem first_flush_evicts :
    ((exec Act.step newCache (writeAndRotate ++
      [.compute 3 [] [], .upload 0, .append, .put .ok])).bind fun s =>
        (Act.evict.step s).map fun t => (s.states 0, t.states 0)) =
      some (.syncing, .notPresent) := by
  decide +kernel

/-- The first flush of a new volume evicts its block with the bytes in S3. -/
theorem first_evicted_resolves :
    ∃ (s t : Cache oneBlockDevice (.plain 16)) (f : DataFile 16),
      Act.evict.step s = some t ∧ s.states 0 = .syncing ∧ t.states 0 = .notPresent ∧
      s.flushingFile = some f ∧
      resolveBlock oneBlockDevice t.store t.durable 0 = some (f.cur 0) := by
  obtain ⟨s, run, rest⟩ := Option.bind_eq_some_iff.mp first_flush_evicts
  obtain ⟨t, taken, result⟩ := Option.map_eq_some_iff.mp rest
  obtain ⟨was, now⟩ := Prod.mk.inj result
  obtain ⟨u, rotated, resolvable⟩ := first_flush_resolvable True
  rw [exec_append, rotated, Option.bind_some] at run
  obtain ⟨w, computed, rest⟩ := Option.bind_eq_some_iff.mp run
  have reached : Reach Act.step (Act.Resolvable True) newCache s := by
    refine Reach.trans (reach_exec_of rotated ?_) (Reach.trans (.step .refl resolvable computed)
      (reach_exec_of rest ?_))
    · simp [writeAndRotate, Act.Resolvable]
    · simp [Act.Resolvable]
  obtain ⟨f, handle, resolves⟩ :=
    evicted_resolves .new .new s t reached taken 0 was now
  exact ⟨s, t, f, taken, was, now, handle, resolves⟩

/-- The first flush fails at its manifest PUT and its block goes back to DIRTY. -/
def failedPut : List Act :=
  [.compute 3 [] [], .upload 0, .append, .put .failed, .copyBack [], .unflag, .strand,
    .closeHandle, .unlink true, .redirty]

private theorem retry_evicts :
    ((exec Act.step newCache (writeAndRotate ++ failedPut ++
      [.flushPacks, .pass, .rotate .ok, .compute 3 [] [], .append])).bind fun s =>
        (Act.evict.step s).map fun t => (s.states 0, t.states 0,
          decide (s.flushingFile.map (fun f => f.cur 0) =
            resolveBlock oneBlockDevice t.store t.durable 0))) =
      some (.syncing, .notPresent, false) := by
  decide +kernel

/-- The retry finds its pack in the manifest in memory and evicts the block, which the manifest
    in S3 does not have. -/
theorem retry_evicts_unresolved :
    ∃ s t, Reach Act.step anyStep newCache s ∧ Act.evict.step s = some t ∧
      s.states 0 = .syncing ∧ t.states 0 = .notPresent ∧
      ∀ f, s.flushingFile = some f →
        resolveBlock oneBlockDevice t.store t.durable 0 ≠ some (f.cur 0) := by
  obtain ⟨s, run, rest⟩ := Option.bind_eq_some_iff.mp retry_evicts
  obtain ⟨t, taken, result⟩ := Option.map_eq_some_iff.mp rest
  obtain ⟨was, result⟩ := Prod.mk.inj result
  obtain ⟨now, unresolved⟩ := Prod.mk.inj result
  refine ⟨s, t, reach_exec run, taken, was, now, fun f handle resolves => ?_⟩
  rw [handle, resolves] at unresolved
  simp at unresolved

end GlideFS.WriteCache
