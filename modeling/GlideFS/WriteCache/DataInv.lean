import GlideFS.WriteCache.EvictResolves

/-! # Where the guest's bytes are

A DIRTY block has its bytes in the active file, a SYNCING block in the flushing
file, and a block without local data resolves to them through the manifest in
memory. Every step keeps this as long as flushes list their new packs and the
copies from the flushing file back to the active file succeed; failed, retried and
dropped flushes are included.
-/

namespace GlideFS.WriteCache

open Block Lib Cache

variable {Hash PackId : Type} [DecidableEq Hash] [DecidableEq PackId] {g : Geometry}
  {C : Codec (BlockData g.blockSize) Hash PackId} {s t : Cache g C} {Q : Prop}

namespace Cache

def NoSyncing (s : Cache g C) : Prop := ∀ b, g.InRange b → s.states b ≠ .syncing

def NoDirty (s : Cache g C) : Prop := ∀ b, g.InRange b → s.states b ≠ .dirty

/-- Blocks of the device that are DIRTY or SYNCING. -/
def Claims (s : Cache g C) (bs : List Nat) : Prop :=
  ∀ b ∈ bs, g.InRange b ∧ (s.states b = .dirty ∨ s.states b = .syncing)

def SyncingIn (s : Cache g C) (bs : List Nat) : Prop :=
  ∀ b, g.InRange b → s.states b = .syncing → b ∈ bs

/-- The cache has the flushing file open and the file has its name. -/
def Holding (s : Cache g C) : Prop :=
  ∃ f, s.flushingFile = some f ∧ s.flushingPath = some f

def Held (s : Cache g C) : Prop := ¬s.NoSyncing → s.Holding

/-- Nothing was written since a pass that found nothing to flush. -/
def Idle (s : Cache g C) (stats : FlushStats) : Prop :=
  stats.blocksClaimed = 0 → stats.early = false → s.written = false → s.NoDirty

/-- SYNCING blocks and the flushing file at each stage of a flush. -/
def StageData (s : Cache g C) (stats : FlushStats) : FlushStage C g → Prop
  | .starting => s.Held
  | .removing | .rotating => s.NoSyncing
  | .rotated claim => s.Holding ∧ s.Claims claim.blocks ∧ s.SyncingIn claim.blocks ∧
      (s.written = false → s.NoDirty)
  | .emptied => s.NoSyncing ∧ (s.written = false → s.NoDirty)
  | .uploading claim plans _ | .putting claim plans | .evicting claim plans =>
      s.Holding ∧ s.Claims claim.blocks ∧ s.SyncingIn (flushedBlocks plans) ∧
        (∀ b ∈ flushedBlocks plans, b ∈ claim.blocks) ∧ claim.blocks ≠ [] ∧
        stats.blocksClaimed ≠ 0
  | .checkpointing _ | .clearing _ | .closing _ | .deleting =>
      s.NoSyncing ∧ stats.blocksClaimed ≠ 0
  | .finished | .publishing =>
      s.Held ∧ (stats.early = false ∨ 0 < stats.packsUploaded → s.NoSyncing) ∧ s.Idle stats
  | .failed claim => s.Holding ∧ s.Claims claim.blocks ∧ s.SyncingIn claim.blocks
  | .copied _ recovered | .cleared _ recovered | .stranded recovered =>
      s.Holding ∧ s.Claims recovered ∧ s.SyncingIn recovered ∧
        ∀ b ∈ recovered, s.states b = .syncing → s.active.cur b = s.acked b
  | .closed recovered | .redirtying recovered =>
      s.flushingFile = none ∧ s.Claims recovered ∧ s.SyncingIn recovered ∧
        ∀ f, s.flushingPath = some f →
          ∀ b ∈ recovered, s.states b = .syncing → f.cur b = s.acked b
  | .syncPutting | .syncCheckpointing _ | .syncDeleting => s.remaining = none → s.NoSyncing

/-- Where the bytes of one block are. -/
def BlockOk (s : Cache g C) (b : Nat) : Prop :=
  match s.states b with
  | .dirty => s.active.cur b = s.acked b
  | .syncing => (∀ f, s.flushingFile = some f → f.cur b = s.acked b) ∧
      (s.flushingFile = none → s.active.cur b = s.acked b)
  | .clean | .notPresent => s.content s.volumeManifest b = s.acked b

end Cache

structure DataInv (s : Cache g C) : Prop where
  blocks : ∀ b, g.InRange b → s.BlockOk b
  idle : s.flush = none → s.remaining = none → s.Held
  stage : ∀ r, s.flush = some r → s.StageData r.stats r.stage

theorem DataInv.flushing {r : FlushRun C g} (blocks : ∀ b, g.InRange b → s.BlockOk b)
    (at_r : s.flush = some r) (data : s.StageData r.stats r.stage) : DataInv s := by
  refine ⟨blocks, fun free => ?_, fun r' at_r' => ?_⟩
  · rw [at_r] at free
    cases free
  · rw [at_r] at at_r'
    cases at_r'
    exact data

theorem DataInv.resting (blocks : ∀ b, g.InRange b → s.BlockOk b) (free : s.flush = none)
    (held : s.remaining = none → s.Held) : DataInv s := by
  refine ⟨blocks, fun _ => held, fun r at_r => ?_⟩
  rw [free] at at_r
  cases at_r

namespace Cache

theorem NoSyncing.held (h : s.NoSyncing) : s.Held := fun some => absurd h some

theorem Holding.held (h : s.Holding) : s.Held := fun _ => h

theorem BlockOk.local (h : s.BlockOk b) (store : t.store = s.store)
    (manifest : t.volumeManifest = s.volumeManifest) (file : t.flushingFile = s.flushingFile)
    (state : t.states b = s.states b) (cur : t.active.cur b = s.active.cur b)
    (acked : t.acked b = s.acked b) : t.BlockOk b := by
  unfold BlockOk content at h ⊢
  rw [store, manifest, file, state, cur, acked]
  exact h

/-! ## Guest writes -/

/-- `t` is `s` with block `b` made DIRTY; the bytes of other blocks stay. -/
structure Dirtied (s t : Cache g C) (b : Nat) : Prop where
  states : t.states = Function.update s.states b .dirty
  file : t.flushingFile = s.flushingFile
  path : t.flushingPath = s.flushingPath
  other : ∀ b', b' ≠ b → t.active.cur b' = s.active.cur b' ∧ t.acked b' = s.acked b'

namespace Dirtied

variable {b : Nat}

theorem state (d : Dirtied s t b) {b' : Nat} (syncing : t.states b' = .syncing) :
    s.states b' = .syncing ∧ b' ≠ b := by
  rw [d.states, Function.update_apply] at syncing
  split at syncing
  · cases syncing
  · rename_i other
    exact ⟨syncing, other⟩

theorem noSyncing (d : Dirtied s t b) (h : s.NoSyncing) : t.NoSyncing :=
  fun b' range syncing => h b' range (d.state syncing).1

theorem claims (d : Dirtied s t b) {bs : List Nat} (h : s.Claims bs) : t.Claims bs := by
  intro b' listed
  rw [d.states, Function.update_apply]
  split
  · exact ⟨(h b' listed).1, Or.inl rfl⟩
  · exact h b' listed

theorem syncingIn (d : Dirtied s t b) {bs : List Nat} (h : s.SyncingIn bs) : t.SyncingIn bs :=
  fun b' range syncing => h b' range (d.state syncing).1

theorem holding (d : Dirtied s t b) (h : s.Holding) : t.Holding := by
  unfold Holding
  rw [d.file, d.path]
  exact h

theorem held (d : Dirtied s t b) (h : s.Held) : t.Held :=
  fun some => d.holding (h fun none => some (d.noSyncing none))

end Dirtied

theorem Idle.written (stats : FlushStats) (w : s.written = true) : s.Idle stats :=
  fun _ _ quiet => by rw [w] at quiet; cases quiet

theorem StageData.dirtied {b : Nat} {stats : FlushStats} {stage : FlushStage C g}
    (h : s.StageData stats stage) (d : Dirtied s t b) (w : t.written = true)
    (remaining : t.remaining = s.remaining) : t.StageData stats stage := by
  have loud {P : Prop} : t.written = false → P := fun quiet => by rw [w] at quiet; cases quiet
  cases stage with
  | starting => exact d.held h
  | removing | rotating => exact d.noSyncing h
  | rotated claim =>
    exact ⟨d.holding h.1, d.claims h.2.1, d.syncingIn h.2.2.1, loud⟩
  | emptied => exact ⟨d.noSyncing h.1, loud⟩
  | uploading claim plans pending | putting claim plans | evicting claim plans =>
    exact ⟨d.holding h.1, d.claims h.2.1, d.syncingIn h.2.2.1, h.2.2.2⟩
  | checkpointing started | clearing ok | closing ok => exact ⟨d.noSyncing h.1, h.2⟩
  | deleting => exact ⟨d.noSyncing h.1, h.2⟩
  | finished | publishing =>
    exact ⟨d.held h.1, fun late => d.noSyncing (h.2.1 late), Idle.written stats w⟩
  | failed claim => exact ⟨d.holding h.1, d.claims h.2.1, d.syncingIn h.2.2⟩
  | copied claim recovered | cleared claim recovered | stranded recovered =>
    refine ⟨d.holding h.1, d.claims h.2.1, d.syncingIn h.2.2.1, fun b' listed syncing => ?_⟩
    obtain ⟨was, other⟩ := d.state syncing
    rw [(d.other b' other).1, (d.other b' other).2]
    exact h.2.2.2 b' listed was
  | closed recovered | redirtying recovered =>
    refine ⟨d.file.trans h.1, d.claims h.2.1, d.syncingIn h.2.2.1, ?_⟩
    intro f path b' listed syncing
    obtain ⟨was, other⟩ := d.state syncing
    rw [(d.other b' other).2]
    exact h.2.2.2 f (d.path ▸ path) b' listed was
  | syncPutting | syncDeleting => exact fun none => d.noSyncing (h (remaining ▸ none))
  | syncCheckpointing started => exact fun none => d.noSyncing (h (remaining ▸ none))

theorem dirtied_putBlock (patch : Patch g)
    (s : Cache g C) (b : Nat) : Dirtied s (putBlock patch s b) b where
  states := putBlock_states patch s b
  file := (local_putBlock patch s b).flushingFile
  path := (local_putBlock patch s b).flushingPath
  other b' other := by
    rw [putBlock_cur, putBlock_acked, Function.update_of_ne other, Function.update_of_ne other]
    exact ⟨rfl, rfl⟩

/-- The write starts from the bytes the guest last wrote. -/
theorem promoteBlock_base {b : Nat} (ok : s.BlockOk b) :
    (s.promoteBlock b).active.cur b = s.base b := by
  unfold base
  split
  · rename_i present
    unfold BlockOk at ok
    rcases promoteBlock_cases s b with ⟨same, missing⟩ | ⟨f, handle, state, moved⟩
    · rw [same]
      cases at_b : s.states b with
      | dirty => rw [at_b] at ok; exact ok
      | syncing => rw [at_b] at ok; exact ok.2 (missing at_b)
      | clean | notPresent => rw [at_b] at present; cases present
    · rw [moved, transitionToDirty_active]
      cases state with
      | inl syncing =>
        rw [syncing] at ok
        simpa [writeActive, DataFile.writeBlock] using ok.1 f handle
      | inr absent => rw [absent.1] at present; cases present
  · rfl

end Cache

theorem putBlock_dataInv (patch : Patch g)
    (s : Cache g C) (b : Nat) (h : DataInv s) : DataInv (putBlock patch s b) := by
  have d := dirtied_putBlock patch s b
  have l := local_putBlock patch s b
  refine ⟨fun b' range => ?_, fun idle none => ?_, fun r at_r => ?_⟩
  · by_cases same : b' = b
    · subst same
      have state : (putBlock patch s b').states b' = .dirty := by simp [putBlock_states]
      unfold BlockOk
      rw [state, putBlock_cur, putBlock_acked, Function.update_self, Function.update_self,
        promoteBlock_base (h.blocks b' range)]
    · refine (h.blocks b' range).local l.store l.volumeManifest l.flushingFile ?_
        (d.other b' same).1 (d.other b' same).2
      rw [d.states, Function.update_of_ne same]
  · exact d.held (h.idle (l.flush ▸ idle) (l.remaining ▸ none))
  · exact (h.stage r (l.flush ▸ at_r)).dirtied d (putBlock_written patch s b) l.remaining

/-! ## Rotation -/

namespace Cache

theorem hasAnySyncing_false (none : s.hasAnySyncing = false) : s.NoSyncing := by
  intro b range syncing
  have listed : b ∈ List.range (numBlocks g) := List.mem_range.mpr (lt_numBlocks.mpr range)
  have found := List.any_eq_false.mp none b listed
  exact found (decide_eq_true syncing)

/-- Closing the flushing file hurts nobody when no block is SYNCING. -/
theorem BlockOk.close {b : Nat} (h : s.BlockOk b) (other : s.states b ≠ .syncing) :
    s.closeFlushing.BlockOk b := by
  unfold BlockOk at h ⊢
  dsimp only [closeFlushing]
  cases at_b : s.states b with
  | syncing => exact absurd at_b other
  | dirty | clean | notPresent =>
    rw [at_b] at h
    exact h

theorem Held.noSyncing_of_file (h : s.Held) (none : s.flushingFile = none) : s.NoSyncing := by
  by_contra some
  obtain ⟨f, handle, _⟩ := h some
  rw [none] at handle
  cases handle

theorem Held.noSyncing_of_path (h : s.Held) (none : s.flushingPath = none) : s.NoSyncing := by
  by_contra some
  obtain ⟨f, _, path⟩ := h some
  rw [none] at path
  cases path

end Cache

/-- A pass that ends early. -/
theorem Cache.early_stageData (held : s.Held) :
    s.StageData { FlushStats.default with early := true } .finished := by
  refine ⟨held, fun done => ?_, nofun⟩
  cases done with
  | inl late => cases late
  | inr uploaded => cases uploaded

namespace Cache

theorem transitionDirtyToSyncing_states (s : Cache g C) (b b' : Nat) :
    (s.transitionDirtyToSyncing b).states b' =
      if b' = b ∧ s.states b = .dirty then .syncing else s.states b' := by
  unfold transitionDirtyToSyncing
  split
  · rename_i dirty
    simp only [setState, Function.update_apply, dirty, and_true]
  · rename_i other
    rw [if_neg fun h => other h.2]

theorem mem_dirtyBlocks {b : Nat} :
    b ∈ s.dirtyBlocks.blocks ↔ g.InRange b ∧ s.states b = .dirty := by
  simp [dirtyBlocks, lt_numBlocks]

theorem claimDirty_states (s : Cache g C) (b : Nat) :
    s.claimDirty.states b =
      if g.InRange b ∧ s.states b = .dirty then .syncing else s.states b := by
  have all (bs : List Nat) : ∀ s : Cache g C, (bs.foldl transitionDirtyToSyncing s).states b =
      if b ∈ bs ∧ s.states b = .dirty then .syncing else s.states b := by
    induction bs with
    | nil => simp
    | cons first rest ih =>
      intro s
      rw [List.foldl_cons, ih, transitionDirtyToSyncing_states]
      by_cases here : b = first
      · subst here
        by_cases dirty : s.states b = .dirty <;> simp [dirty]
      · simp [here]
  rw [claimDirty, all]
  simp only [mem_dirtyBlocks, and_assoc, and_self]

theorem claimDirty_active (s : Cache g C) : s.claimDirty.active = s.active := by
  refine foldl_field Cache.active (fun s b => ?_) s _
  unfold transitionDirtyToSyncing
  split <;> rfl

end Cache

/-- After a rotation the claimed blocks have their bytes in the flushing file. -/
theorem rotate_dataInv (h : DataInv s) (none : s.NoSyncing) (r : FlushRun C g) :
    DataInv (((s.setFlags true s.sequence).claimDirty.swapFiles).setStage r
      (.rotated s.dirtyBlocks)) := by
  have shifted := shifts_claimDirty (s.setFlags true s.sequence)
  have l := shifted.local
  have states (b : Nat) := claimDirty_states (s.setFlags true s.sequence) b
  have active := claimDirty_active (s.setFlags true s.sequence)
  have was {b : Nat} (range : g.InRange b)
      (syncing : (s.setFlags true s.sequence).claimDirty.states b = .syncing) :
      s.states b = .dirty := by
    rw [states] at syncing
    split at syncing
    · rename_i dirty
      exact dirty.2
    · exact absurd syncing (none b range)
  refine .flushing (fun b range => ?_) rfl ?_
  · have ok := h.blocks b range
    unfold BlockOk content at ok ⊢
    dsimp only [setStage, swapFiles]
    cases at_b : (s.setFlags true s.sequence).claimDirty.states b with
    | dirty =>
      rw [states] at at_b
      split at at_b
      · cases at_b
      · rename_i clean
        exact absurd ⟨range, at_b⟩ clean
    | syncing =>
      rw [was range at_b] at ok
      refine ⟨fun f handle => ?_, nofun⟩
      cases handle
      rw [active, shifted.acked]
      exact ok
    | clean | notPresent =>
      rw [states] at at_b
      split at at_b
      · cases at_b
      · change s.states b = _ at at_b
        rw [at_b] at ok
        rw [shifted.acked, l.store, l.volumeManifest]
        exact ok
  · refine ⟨⟨_, rfl, rfl⟩, fun b listed => ?_, fun b range syncing => ?_, fun _ b range => ?_⟩
    · obtain ⟨range, dirty⟩ := mem_dirtyBlocks.mp listed
      exact ⟨range, Or.inr ((states b).trans (if_pos ⟨range, dirty⟩))⟩
    · exact mem_dirtyBlocks.mpr ⟨range, was range syncing⟩
    · intro dirty
      have still := (states b).symm.trans dirty
      split at still
      · cases still
      · rename_i clean
        exact clean ⟨range, still⟩

/-! ## Copies back to the active file -/

namespace Cache

theorem dirtied_transitionToDirty (s : Cache g C) (b : Nat) : Dirtied s (s.transitionToDirty b) b where
  states := transitionToDirty_states s b
  file := (shifts_transitionToDirty s b).local.flushingFile
  path := (shifts_transitionToDirty s b).local.flushingPath
  other b' _ := by simp

/-- A block made DIRTY with its bytes in the active file. -/
theorem Dirtied.blockOk {b b' : Nat} (d : Dirtied s t b) (l : Local s t) (ok : s.BlockOk b')
    (cur : t.active.cur b = t.acked b) : t.BlockOk b' := by
  by_cases same : b' = b
  · subst same
    have state : t.states b' = .dirty := by rw [d.states, Function.update_self]
    unfold BlockOk
    rw [state]
    exact cur
  · refine ok.local l.store l.volumeManifest l.flushingFile ?_ (d.other b' same).1
      (d.other b' same).2
    rw [d.states, Function.update_of_ne same]

theorem dirtied_unskipBlock (f : DataFile g.blockSize) (s : Cache g C) (b : Nat) :
    Dirtied s (unskipBlock f [] s b) b := by
  unfold unskipBlock
  split
  · rw [if_neg List.not_mem_nil]
    have d := dirtied_transitionToDirty (s.writeActive b (f.cur b)) b
    refine ⟨d.states, d.file, d.path, fun b' other => ⟨?_, (d.other b' other).2⟩⟩
    rw [(d.other b' other).1]
    exact Function.update_of_ne other _ _
  · exact dirtied_transitionToDirty s b

/-- A skipped block ends with its bytes in the active file. -/
theorem unskipBlock_cur {f : DataFile g.blockSize} {b : Nat} (handle : s.flushingFile = some f)
    (ok : s.BlockOk b) (claimed : s.states b = .dirty ∨ s.states b = .syncing) :
    (unskipBlock f [] s b).active.cur b = (unskipBlock f [] s b).acked b := by
  unfold BlockOk at ok
  unfold unskipBlock
  cases claimed with
  | inl dirty =>
    rw [dirty] at ok
    rw [if_neg (by rw [dirty]; simp), transitionToDirty_active, transitionToDirty_acked]
    exact ok
  | inr syncing =>
    rw [syncing] at ok
    rw [if_pos syncing, if_neg List.not_mem_nil, transitionToDirty_active,
      transitionToDirty_acked]
    exact (Function.update_self _ _ _).trans (ok.1 f handle)

/-- What the claimed blocks are while a flush works on them. -/
structure Claimed (s : Cache g C) (claim : Claim g) (f : DataFile g.blockSize) : Prop where
  blocks : ∀ b, g.InRange b → s.BlockOk b
  handle : s.flushingFile = some f
  path : s.flushingPath = some f
  claims : s.Claims claim.blocks
  syncingIn : s.SyncingIn claim.blocks

theorem Claimed.unskip {claim : Claim g} {f : DataFile g.blockSize} (bs : List Nat)
    (h : Claimed s claim f) (listed : ∀ b ∈ bs, b ∈ claim.blocks) :
    Claimed (bs.foldl (unskipBlock f []) s) claim f ∧
      ∀ b, (bs.foldl (unskipBlock f []) s).states b = .syncing → b ∉ bs := by
  -- induction on the skipped blocks: each one leaves SYNCING and none goes back to it
  induction bs generalizing s with
  | nil => exact ⟨h, fun b _ => List.not_mem_nil⟩
  | cons first rest ih =>
    have d := dirtied_unskipBlock f s first
    have l := (shifts_unskipBlock f [] s first).local
    have mem := listed first List.mem_cons_self
    have cur := unskipBlock_cur h.handle (h.blocks first (claim.inRange first mem))
      (h.claims first mem).2
    have next : Claimed (unskipBlock f [] s first) claim f :=
      { blocks := fun b range => d.blockOk l (h.blocks b range) cur
        handle := d.file.trans h.handle
        path := d.path.trans h.path
        claims := d.claims h.claims
        syncingIn := d.syncingIn h.syncingIn }
    obtain ⟨after, gone⟩ := ih next fun b mem => listed b (List.mem_cons_of_mem _ mem)
    refine ⟨after, fun b syncing => ?_⟩
    have still : (unskipBlock f [] s first).states b = .syncing := by
      have keeps (cs : List Nat) : ∀ u : Cache g C,
          (cs.foldl (unskipBlock f []) u).states b = .syncing → u.states b = .syncing := by
        induction cs with
        | nil => exact fun _ same => same
        | cons c cs ih => exact fun u same => ((dirtied_unskipBlock f u c).state (ih _ same)).1
      exact keeps rest _ syncing
    rw [List.mem_cons, not_or]
    exact ⟨(d.state still).2, gone b syncing⟩

end Cache

variable {r : FlushRun C g} {claim : Claim g} {plans : List (ChunkPlan C)} {stats : FlushStats}
  {stage : FlushStage C g}

theorem compute_dataInv (remote : RemoteInv Q s) (h : DataInv s) {level : Int} {skipped : List Nat}
    {f : DataFile g.blockSize} (data : s.StageData stats (.rotated claim))
    (nonempty : claim.blocks ≠ []) (handle : s.flushingFile = some f)
    (computed : planFlush s.store s.volumeManifest level (claim.read f skipped) = some plans) :
    DataInv (((claim.blocks.filter (· ∈ skipped)).foldl (unskipBlock f []) s).setStats r
      (.uploading claim plans (staged s.volumeManifest plans))
      ⟨claim.blocks.length, 0, (claim.blocks.filter (· ∈ skipped)).length, false⟩) := by
  obtain ⟨plans', computed', planned⟩ := planFlush_planned remote.manifest level (claim.read f skipped)
  rw [computed] at computed'
  cases computed'
  obtain ⟨⟨f', handle', path⟩, claims, syncingIn, _⟩ := data
  rw [handle] at handle'
  cases handle'
  obtain ⟨after, gone⟩ := Claimed.unskip (claim.blocks.filter (· ∈ skipped))
    ⟨h.blocks, handle, path, claims, syncingIn⟩ fun b mem => List.mem_of_mem_filter mem
  refine .flushing after.blocks rfl ?_
  have flushed (b : Nat) : b ∈ flushedBlocks plans ↔ b ∈ claim.blocks ∧ b ∉ skipped := by
    rw [planned.mem_flushedBlocks]
    simp [Claim.read]
  refine ⟨⟨f, after.handle, after.path⟩, after.claims, fun b range syncing => ?_,
    fun b mem => ((flushed b).mp mem).1, nonempty, fun zero => nonempty (List.length_eq_zero_iff.mp zero)⟩
  have mem := after.syncingIn b range syncing
  refine (flushed b).mpr ⟨mem, fun skip => gone b syncing ?_⟩
  exact List.mem_filter.mpr ⟨mem, decide_eq_true skip⟩

/-! ## Packs, manifest and eviction -/

/-- Only blocks without local data look at the store and the manifest. -/
theorem Cache.BlockOk.remote {b : Nat} (h : s.BlockOk b) (states : t.states b = s.states b)
    (active : t.active = s.active) (file : t.flushingFile = s.flushingFile)
    (acked : t.acked = s.acked)
    (content : (s.states b).hasLocalData = false →
      t.content t.volumeManifest b = s.content s.volumeManifest b) : t.BlockOk b := by
  unfold BlockOk at h ⊢
  rw [states, active, file, acked]
  cases at_b : s.states b with
  | dirty | syncing =>
    rw [at_b] at h
    exact h
  | clean | notPresent =>
    rw [at_b] at h content
    exact (content rfl).trans h

theorem Cache.BlockOk.absent {b : Nat} (state : s.states b = .notPresent)
    (found : s.content s.volumeManifest b = s.acked b) : s.BlockOk b := by
  unfold BlockOk
  rw [state]
  exact found

theorem upload_dataInv (remote : RemoteInv Q s) (h : DataInv s) {p : ChunkPlan C}
    (data : s.StageData stats stage) : DataInv ((s.uploadPack p).setStats r stage stats) := by
  refine .flushing (fun b range => ?_) rfl ?_
  · refine (h.blocks b range).remote rfl rfl rfl rfl fun _ => ?_
    unfold content
    exact congrArg (·.getD 0) (remote.manifest.resolve_extends
      (fun _ _ _ get => PackStore.streamChunkPack_keeps get) g b)
  · exact data

/-- The packs a flush appends change no block without local data. -/
theorem append_dataInv (h : DataInv s)
    (up : StageOk Q s.store s.volumeManifest s.durable s.flushingFile (.uploading claim plans []))
    (data : s.StageData stats (.uploading claim plans [])) (same : s.StageData r.stats stage) :
    DataInv ((s.appendPacks (staged s.volumeManifest plans)).setStage r stage) := by
  obtain ⟨old, level, snap, up, inFlight, _, _⟩ := up
  refine .flushing (fun b range => ?_) rfl ?_
  · refine (h.blocks b range).remote rfl rfl rfl rfl fun absent => ?_
    have other : b ∉ flushedBlocks plans := by
      intro flushed
      cases (data.2.1 b (data.2.2.2.1 b flushed)).2 with
      | inl dirty => rw [dirty] at absent; cases absent
      | inr syncing => rw [syncing] at absent; cases absent
    exact congrArg (·.getD 0) (inFlight.resolve_other range.addressable other)
  · exact same

/-- The manifest in memory resolves what a flush evicts. -/
theorem evict_dataInv (h : DataInv s)
    (readable : Readable s.store s.volumeManifest s.flushingFile plans)
    (data : s.StageData r.stats (.evicting claim plans)) :
    DataInv ((s.evictBlocks (flushedBlocks plans)).setStage r (.checkpointing false)) := by
  obtain ⟨f, handle, resolves⟩ := readable
  have shifted := shifts_evictBlocks s (flushedBlocks plans)
  have l := shifted.local
  refine .flushing (fun b range => ?_) rfl ?_
  · have state := evictBlocks_states s (flushedBlocks plans) b
    have ok := h.blocks b range
    split at state
    · rename_i evicted
      refine BlockOk.absent state ?_
      change (s.evictBlocks _).content (s.evictBlocks _).volumeManifest b = (s.evictBlocks _).acked b
      unfold BlockOk at ok
      rw [evicted.2] at ok
      unfold content
      rw [l.store, l.volumeManifest, resolves b evicted.1, shifted.acked]
      exact ok.1 f handle
    · refine ok.remote state (evictBlocks_active s _) l.flushingFile shifted.acked fun _ => ?_
      change (s.evictBlocks _).content (s.evictBlocks _).volumeManifest b = _
      unfold content
      rw [l.store, l.volumeManifest]
  · refine ⟨fun b range syncing => ?_, data.2.2.2.2.2⟩
    have state := evictBlocks_states s (flushedBlocks plans) b
    rw [show (s.evictBlocks (flushedBlocks plans)).states b = .syncing from syncing] at state
    split at state
    · cases state
    · rename_i kept
      exact kept ⟨data.2.2.1 b range state.symm, state.symm⟩

/-! ## Recovery of a failed flush -/

namespace Cache

theorem copyBack_fold (f : DataFile g.blockSize) (s : Cache g C) (bs : List Nat) :
    (bs.foldl (copyBackBlock f) s).states = s.states ∧
      (bs.foldl (copyBackBlock f) s).acked = s.acked ∧
      ∀ b, (bs.foldl (copyBackBlock f) s).active.cur b =
        if b ∈ bs ∧ s.states b = .syncing then f.cur b else s.active.cur b := by
  induction bs generalizing s with
  | nil => simp
  | cons first rest ih =>
    obtain ⟨states, acked, cur⟩ := ih (copyBackBlock f s first)
    have data : (copyBackBlock f s first).states = s.states ∧
        (copyBackBlock f s first).acked = s.acked := by
      unfold copyBackBlock
      split <;> exact ⟨rfl, rfl⟩
    rw [List.foldl_cons, states, acked, data.1, data.2]
    refine ⟨rfl, rfl, fun b => ?_⟩
    rw [cur, data.1]
    by_cases here : b = first
    · subst here
      by_cases syncing : s.states b = .syncing
      · simp [copyBackBlock, syncing, writeActive, DataFile.writeBlock]
      · simp [copyBackBlock, syncing]
    · by_cases syncing : s.states first = .syncing <;>
        simp [copyBackBlock, here, syncing, writeActive, DataFile.writeBlock]

/-- Without a copy that fails, recovery saves every claimed block. -/
theorem recoverable_all {claim : Claim g} {f : DataFile g.blockSize}
    (handle : s.flushingFile = some f) : s.recoverable claim [] = claim.blocks := by
  simp [recoverable, handle]

theorem strand_all {recovered bs : List Nat} (range : ∀ b ∈ bs, g.InRange b)
    (h : s.SyncingIn recovered) : bs.foldl (strandBlock recovered) s = s := by
  induction bs with
  | nil => rfl
  | cons b rest ih =>
    have idle : strandBlock recovered s b = s := by
      unfold strandBlock
      split
      · rfl
      · rename_i other
        unfold transitionSyncingToNotPresent
        split
        · rename_i syncing
          exact absurd (h b (range b List.mem_cons_self) syncing) other
        · rfl
    rw [List.foldl_cons, idle]
    exact ih fun b mem => range b (List.mem_cons_of_mem _ mem)

end Cache

theorem copyBack_dataInv (h : DataInv s) (data : s.StageData r.stats (.failed claim)) :
    DataInv ((s.copyBack claim []).setStage r (.copied claim (s.recoverable claim []))) := by
  obtain ⟨⟨f, handle, path⟩, claims, syncingIn⟩ := data
  have whole : s.copyBack claim [] = claim.blocks.foldl (copyBackBlock f) s := by
    unfold copyBack
    rw [handle, recoverable_all handle]
  rw [whole, recoverable_all handle]
  obtain ⟨states, acked, cur⟩ := copyBack_fold f s claim.blocks
  have l : Local s (claim.blocks.foldl (copyBackBlock f) s) := whole ▸ (shifts_copyBack s claim []).local
  have copied (b : Nat) (mem : b ∈ claim.blocks) (syncing : s.states b = .syncing) :
      (claim.blocks.foldl (copyBackBlock f) s).active.cur b = s.acked b := by
    have ok := h.blocks b (claim.inRange b mem)
    unfold BlockOk at ok
    rw [syncing] at ok
    rw [cur, if_pos ⟨mem, syncing⟩, ok.1 f handle]
  refine .flushing (fun b range => ?_) rfl ?_
  · have ok := h.blocks b range
    by_cases syncing : s.states b = .syncing
    · unfold BlockOk at ok ⊢
      dsimp only [setStage]
      rw [syncing] at ok
      rw [states, syncing, acked, l.flushingFile]
      exact ⟨ok.1, fun missing => absurd (handle.symm.trans missing) (by simp)⟩
    · refine ok.local l.store l.volumeManifest l.flushingFile (congrFun states b) ?_
        (congrFun acked b)
      exact (cur b).trans (if_neg fun both => syncing both.2)
  · refine ⟨⟨f, l.flushingFile.trans handle, l.flushingPath.trans path⟩, ?_, ?_, ?_⟩
    · intro b mem
      exact (congrFun states b).symm ▸ claims b mem
    · intro b range syncing
      exact syncingIn b range ((congrFun states b).symm.trans syncing)
    · intro b mem syncing
      exact (copied b mem ((congrFun states b).symm.trans syncing)).trans (congrFun acked b).symm

/-- A SYNCING block whose bytes were copied back can do without the flushing file. -/
theorem closeHandle_dataInv (h : DataInv s) {recovered : List Nat}
    (data : s.StageData r.stats (.stranded recovered)) :
    DataInv (s.closeFlushing.setStage r (.closed recovered)) := by
  obtain ⟨⟨f, handle, path⟩, claims, syncingIn, copied⟩ := data
  refine .flushing (fun b range => ?_) rfl ?_
  · by_cases syncing : s.states b = .syncing
    · unfold BlockOk
      dsimp only [setStage, closeFlushing]
      rw [syncing]
      exact ⟨nofun,
        fun _ => copied b (syncingIn b range syncing) syncing⟩
    · exact (h.blocks b range).close syncing
  · refine ⟨rfl, claims, syncingIn, fun f' path' b mem syncing => ?_⟩
    have ok := h.blocks b (claims b mem).1
    unfold BlockOk at ok
    rw [show s.states b = .syncing from syncing] at ok
    cases path.symm.trans path'
    exact ok.1 f handle

theorem redirty_dataInv (h : DataInv s) {recovered : List Nat}
    (data : s.StageData stats (.redirtying recovered)) :
    DataInv ((recovered.foldl transitionToDirty s).endFlush none) := by
  obtain ⟨closed, claims, syncingIn, _⟩ := data
  have after (bs : List Nat) (sub : ∀ b ∈ bs, b ∈ recovered) : ∀ u : Cache g C,
      (∀ b, g.InRange b → u.BlockOk b) → u.flushingFile = none → u.Claims recovered →
      (∀ b, g.InRange b → (bs.foldl transitionToDirty u).BlockOk b) ∧
        ∀ b, (bs.foldl transitionToDirty u).states b = .syncing → u.states b = .syncing ∧ b ∉ bs := by
    induction bs with
    | nil => exact fun u ok _ _ => ⟨ok, fun b same => ⟨same, List.not_mem_nil⟩⟩
    | cons first rest ih =>
      intro u ok none claims
      have d := dirtied_transitionToDirty u first
      have mem := sub first List.mem_cons_self
      have cur : (u.transitionToDirty first).active.cur first =
          (u.transitionToDirty first).acked first := by
        have at_first := ok first (claims first mem).1
        unfold BlockOk at at_first
        rw [transitionToDirty_active, transitionToDirty_acked]
        cases (claims first mem).2 with
        | inl dirty => rw [dirty] at at_first; exact at_first
        | inr syncing => rw [syncing] at at_first; exact at_first.2 none
      obtain ⟨blocks, gone⟩ := ih (fun b mem => sub b (List.mem_cons_of_mem _ mem))
        (u.transitionToDirty first)
        (fun b range => d.blockOk (shifts_transitionToDirty u first).local (ok b range) cur)
        (d.file.trans none) (d.claims claims)
      refine ⟨blocks, fun b syncing => ?_⟩
      obtain ⟨still, other⟩ := gone b syncing
      rw [List.mem_cons, not_or]
      exact ⟨(d.state still).1, (d.state still).2, other⟩
  obtain ⟨blocks, gone⟩ := after recovered (fun _ mem => mem) s h.blocks closed claims
  refine .resting blocks rfl fun _ => NoSyncing.held fun b range syncing => ?_
  obtain ⟨was, other⟩ := gone b syncing
  exact other (syncingIn b range was)

/-! ## Every step -/

/-- The copies from the flushing file back to the active file succeed. -/
def Act.Copies : Act → Prop
  | .compute _ _ uncopied | .copyBack uncopied => uncopied = []
  | _ => True

theorem DataInv.endFlush (h : DataInv s) (held : s.remaining = none → s.Held)
    (returned : Option FlushStats) : DataInv (s.endFlush returned) :=
  .resting h.blocks rfl held

theorem DataInv.setStats (h : DataInv s) (r : FlushRun C g) (data : s.StageData stats stage) :
    DataInv (s.setStats r stage stats) :=
  .flushing h.blocks rfl data

theorem DataInv.setStage (h : DataInv s) (data : s.StageData r.stats stage) :
    DataInv (s.setStage r stage) :=
  h.setStats r data

/-- A pass that ends after its rotation. -/
theorem DataInv.finished (h : DataInv s) (none : s.NoSyncing) (idle : s.Idle r.stats) (ok : Bool) :
    DataInv ((if ok then s.removeFlushing else s).setStage r .finished) := by
  cases ok with
  | true => exact .flushing h.blocks rfl ⟨NoSyncing.held none, fun _ => none, idle⟩
  | false => exact h.setStage ⟨NoSyncing.held none, fun _ => none, idle⟩

theorem close_dataInv (blocks : ∀ b, g.InRange b → s.BlockOk b) (none : s.NoSyncing)
    (data : s.closeFlushing.StageData r.stats stage) : DataInv (s.closeFlushing.setStage r stage) :=
  .flushing (fun b range => (blocks b range).close (none b range)) rfl data

theorem StageData.deletes (data : s.StageData stats stage) (waits : stage.Deletes) :
    s.remaining = none → s.NoSyncing := by
  cases stage with
  | removing => exact fun _ => data
  | emptied | deleting => exact fun _ => data.1
  | syncDeleting => exact data
  | _ => cases waits

theorem StageData.puts (data : s.StageData stats stage) (waits : stage.Puts) :
    s.remaining = none → s.Held := by
  cases stage with
  | putting claim plans => exact fun _ => Holding.held data.1
  | publishing => exact fun _ => data.1
  | syncPutting => exact fun none => NoSyncing.held (data none)
  | _ => cases waits

theorem StageData.waits (data : s.StageData stats stage) (waits : stage.Waits) :
    s.remaining = none → s.Held := by
  cases stage with
  | starting => exact fun _ => data
  | rotated claim | uploading claim plans pending => exact fun _ => Holding.held data.1
  | checkpointing started => exact fun _ => NoSyncing.held data.1
  | syncCheckpointing started => exact fun none => NoSyncing.held (data none)
  | _ => cases waits

/-- Where a SYNCING block is found: the flushing file is held, or it was copied back. -/
theorem StageData.syncing (data : s.StageData stats stage) (remaining : s.remaining = none)
    {b : Nat} (range : g.InRange b) (syncing : s.states b = .syncing) :
    s.Holding ∨ s.flushingFile = none ∧ ∀ f, s.flushingPath = some f → f.cur b = s.acked b := by
  have never {P : Prop} (none : s.NoSyncing) : P := absurd syncing (none b range)
  cases stage with
  | starting => exact Or.inl (data fun none => none b range syncing)
  | removing | rotating => exact never data
  | emptied | deleting => exact never data.1
  | checkpointing started | clearing ok | closing ok => exact never data.1
  | finished | publishing => exact Or.inl (data.1 fun none => none b range syncing)
  | syncPutting | syncDeleting => exact never (data remaining)
  | syncCheckpointing started => exact never (data remaining)
  | closed recovered | redirtying recovered =>
    obtain ⟨closed, _, syncingIn, onDisk⟩ := data
    exact Or.inr ⟨closed, fun f path => onDisk f path b (syncingIn b range syncing) syncing⟩
  | rotated claim | failed claim => exact Or.inl data.1
  | uploading claim plans pending | putting claim plans | evicting claim plans =>
    exact Or.inl data.1
  | copied claim recovered | cleared claim recovered | stranded recovered => exact Or.inl data.1

/-- The bytes of a SYNCING block are in the flushing file on disk, or without one in the
    active file. -/
theorem DataInv.onDisk (h : DataInv s) (remaining : s.remaining = none) {b : Nat}
    (range : g.InRange b) (syncing : s.states b = .syncing) :
    (∀ f, s.flushingPath = some f → f.cur b = s.acked b) ∧
      (s.flushingPath = none → s.active.cur b = s.acked b) := by
  have ok := h.blocks b range
  unfold BlockOk at ok
  rw [syncing] at ok
  have found : s.Holding ∨
      s.flushingFile = none ∧ ∀ f, s.flushingPath = some f → f.cur b = s.acked b := by
    cases at_r : s.flush with
    | none => exact Or.inl (h.idle at_r remaining fun none => none b range syncing)
    | some r => exact StageData.syncing (h.stage r at_r) remaining range syncing
  cases found with
  | inl holding =>
    obtain ⟨f, handle, path⟩ := holding
    refine ⟨fun f' path' => ?_, fun missing => ?_⟩
    · cases path.symm.trans path'
      exact ok.1 f handle
    · rw [path] at missing
      cases missing
  | inr closed => exact ⟨closed.2, fun _ => ok.2 closed.1⟩

/-- Only the manifest sync gives up when its checkpoint fails. -/
theorem checkpointed_none {ok : Bool} (done : checkpointed ok r = none) :
    r.stage = .syncCheckpointing true := by
  unfold checkpointed at done
  split at done
  · cases done
  · rename_i stage
    exact stage
  · cases done

theorem DataInv.endCkpt (h : DataInv s) (run : CkptRun) (ok : Bool) :
    DataInv (s.endCkpt run ok) := by
  refine ⟨h.blocks, fun idle none => ?_, fun r at_r => ?_⟩
  · simp only [Cache.endCkpt] at idle
    split at idle
    · cases at_r : s.flush with
      | none => exact h.idle at_r none
      | some r =>
        rw [at_r, Option.bind_some] at idle
        have data := h.stage r at_r
        rw [checkpointed_none idle] at data
        exact NoSyncing.held (s := s.endCkpt run ok) (data none)
    · exact h.idle idle none
  · obtain ⟨r', at_r', resumes⟩ := endCkpt_flush at_r
    have data := h.stage r' at_r'
    cases resumes <;> exact data

theorem step_dataInv (remote : RemoteInv Q s) (h : DataInv s) {a : Act} (copies : a.Copies)
    (taken : a.step s = some t) : DataInv t := by
  cases step_cases taken with
  | write done | zeroRange done => exact putRange_keeps putBlock_dataInv h done
  | ckptTruncate at_run covered =>
    exact DataInv.endCkpt (s := s.truncateWal) ⟨h.blocks, h.idle, h.stage⟩ _ true
  | ckptKeep at_run => exact DataInv.endCkpt (s := s.keepWal) ⟨h.blocks, h.idle, h.stage⟩ _ true
  | ckptFail at_run => exact h.endCkpt _ false
  | ckptStart free | ckptCopy at_run more | ckptSeal at_run | ckptPublish at_run =>
    exact ⟨h.blocks, h.idle, h.stage⟩
  | flushPacks free remaining | flushToS3 free remaining =>
    exact .flushing h.blocks rfl (h.idle free remaining)
  | teardownUndrained free remaining | teardownDrained free remaining drained clean =>
    exact .flushing h.blocks rfl nofun
  | @passStale pass stats at_r stale =>
    exact close_dataInv (s := (s.beginPass pass).setFlags false 0) h.blocks
      (hasAnySyncing_false stale) (hasAnySyncing_false stale)
  | passEarly at_r active syncing =>
    exact .flushing h.blocks rfl (early_stageData (h.stage _ at_r))
  | passOrphan at_r inactive closed =>
    have held : s.Held := h.stage _ at_r
    exact .flushing h.blocks rfl (held.noSyncing_of_file closed)
  | passRotate at_r missing named =>
    have held : s.Held := h.stage _ at_r
    exact .flushing h.blocks rfl (held.noSyncing_of_path missing)
  | keepOrphan at_r => exact h.setStats _ (early_stageData (NoSyncing.held (h.stage _ at_r)))
  | rotate at_r named => exact rotate_dataInv h (h.stage _ at_r) _
  | renameFails at_r | createFails at_r | undoFails at_r named =>
    exact .resting h.blocks rfl fun _ => NoSyncing.held (h.stage _ at_r)
  | cleanEmpty at_r empty =>
    obtain ⟨_, _, syncingIn, quiet⟩ := h.stage _ at_r
    have none : s.NoSyncing := fun b range syncing =>
      absurd (syncingIn b range syncing) (empty ▸ List.not_mem_nil)
    exact close_dataInv (s := s.setFlags false 0) h.blocks none ⟨none, quiet⟩
  | removeEmpty at_r =>
    have data := h.stage _ at_r
    exact h.finished data.1 (fun _ _ quiet => data.2 quiet) _
  | compute at_r nonempty handle computed =>
    cases copies
    exact compute_dataInv remote h (h.stage _ at_r) nonempty handle computed
  | upload at_r at_k => exact upload_dataInv remote h (h.stage _ at_r)
  | appendNone at_r none | append at_r =>
    exact append_dataInv h (remote.stage _ at_r) (h.stage _ at_r) (h.stage _ at_r)
  | putFails outcome at_r =>
    obtain ⟨holding, claims, syncingIn, sub, _⟩ := h.stage _ at_r
    exact .flushing h.blocks rfl
      ⟨holding, claims, fun b range syncing => sub b (syncingIn b range syncing)⟩
  | evict at_r => exact evict_dataInv h (remote.stage _ at_r).1 (h.stage _ at_r)
  | removeOrphan at_r | put at_r | flushCkpt at_r free | syncCkpt at_r free | clearFlags at_r
  | unflag at_r | syncPut at_r =>
    exact .flushing h.blocks rfl (h.stage _ at_r)
  | dropHandle at_r => exact close_dataInv h.blocks (h.stage _ at_r).1 (h.stage _ at_r)
  | keepFile at_r =>
    obtain ⟨none, claimed⟩ := h.stage _ at_r
    exact close_dataInv h.blocks none
      ⟨NoSyncing.held none, fun _ => none, fun zero => absurd zero claimed⟩
  | deleteFile at_r =>
    have data := h.stage _ at_r
    exact h.finished data.1 (fun zero => absurd zero data.2) _
  | computeFails at_r =>
    obtain ⟨holding, claims, syncingIn, _⟩ := h.stage _ at_r
    exact h.setStage ⟨holding, claims, syncingIn⟩
  | uploadFails at_r =>
    obtain ⟨holding, claims, syncingIn, sub, _⟩ := h.stage _ at_r
    exact h.setStage ⟨holding, claims, fun b range syncing => sub b (syncingIn b range syncing)⟩
  | copyBack at_r =>
    cases copies
    exact copyBack_dataInv h (h.stage _ at_r)
  | @strand _ _ claim recovered at_r =>
    have data := h.stage _ at_r
    rw [strand_all claim.inRange data.2.2.1]
    exact h.setStage data
  | closeHandle at_r => exact closeHandle_dataInv h (h.stage _ at_r)
  | unlink at_r =>
    obtain ⟨closed, claims, syncingIn, onDisk⟩ := h.stage _ at_r
    split
    · exact .flushing h.blocks rfl ⟨closed, claims, syncingIn, nofun⟩
    · exact h.setStage ⟨closed, claims, syncingIn, onDisk⟩
  | redirty at_r => exact redirty_dataInv h (h.stage _ at_r)
  | finishPacks at_r | finishUploaded at_r uploaded | finishFails at_r =>
    exact h.endFlush (fun _ => (h.stage _ at_r).1) _
  | finishPublish at_r => exact h.setStage (h.stage _ at_r)
  | finishAgain at_r =>
    exact .flushing h.blocks rfl (h.stage _ at_r).1
  | finishSync at_r uploaded => exact h.setStage fun _ => (h.stage _ at_r).2.1 (Or.inr uploaded)
  | publish at_r | publishFails outcome at_r =>
    exact .resting h.blocks rfl fun _ => (h.stage _ at_r).1
  | syncPutFails outcome at_r =>
    exact .resting h.blocks rfl fun none => NoSyncing.held (h.stage _ at_r none)
  | syncDelete at_r =>
    split <;> exact .resting h.blocks rfl fun none => NoSyncing.held (h.stage _ at_r none)
  | dropDeleting at_r waits =>
    have none := StageData.deletes (h.stage _ at_r) waits
    split <;> exact .resting h.blocks rfl fun idle => NoSyncing.held (none idle)
  | dropPutting at_r waits =>
    have held := StageData.puts (h.stage _ at_r) waits
    split <;> exact .resting h.blocks rfl fun idle => held idle
  | dropWaiting at_r waits =>
    have held := StageData.waits (h.stage _ at_r) waits
    exact .resting h.blocks rfl fun idle => held idle

theorem openCache_dataInv (d : Disk g.blockSize) (v : Volume C) :
    DataInv (openCache d v.store v.manifest) := by
  have states (b : Nat) : d.openStates g b = .dirty ∨ d.openStates g b = .notPresent := by
    unfold Disk.openStates
    split <;> simp
  refine .resting (fun b _ => ?_) rfl fun _ => NoSyncing.held fun b _ syncing => ?_
  · unfold BlockOk
    dsimp only [openCache]
    cases states b with
    | inl dirty => rw [dirty, if_pos rfl]
    | inr absent =>
      rw [absent, if_neg (by simp)]
      rfl
  · change d.openStates g b = .syncing at syncing
    cases states b with
    | inl dirty => rw [dirty] at syncing; cases syncing
    | inr absent => rw [absent] at syncing; cases syncing

end GlideFS.WriteCache
