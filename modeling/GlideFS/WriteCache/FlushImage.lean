import GlideFS.WriteCache.Resize

/-! # What a flush publishes, and the numbers it goes by

A pass that rotates and skips no block leaves a manifest that resolves every block to
what the guest had written when it rotated, whatever is written meanwhile. The number
of a snapshot is the sequence number read when the pass began. A write takes the next
number unless its block is DIRTY, or SYNCING and promoted from the flushing file.
-/

namespace GlideFS.WriteCache

open Block Lib Cache

variable {Hash PackId : Type} [DecidableEq Hash] [DecidableEq PackId] {g : Geometry}
  {C : Codec (BlockData g.blockSize) Hash PackId} {s t : Cache g C}
  {im : Nat → BlockData g.blockSize}

/-! ## The image of a flush -/

namespace Cache

/-- What the manifest will resolve when the flush is over, if it skips nothing. -/
def StageImage (s : Cache g C) (im : Nat → BlockData g.blockSize) (stats : FlushStats) :
    FlushStage C g → Prop
  | .rotated claim => (∀ f, s.flushingFile = some f → ∀ b ∈ claim.blocks, f.cur b = im b) ∧
      ∀ b, g.InRange b → b ∉ claim.blocks → s.content s.volumeManifest b = im b
  | .uploading _ plans _ => stats.blocksCrcMismatched = 0 →
      (∀ f, s.flushingFile = some f → ∀ b ∈ flushedBlocks plans, f.cur b = im b) ∧
        ∀ b, g.InRange b → b ∉ flushedBlocks plans → s.content s.volumeManifest b = im b
  | .emptied | .putting _ _ | .evicting _ _ | .checkpointing _ | .clearing _ | .closing _
  | .deleting | .finished => stats.blocksCrcMismatched = 0 →
      ∀ b, g.InRange b → s.content s.volumeManifest b = im b
  -- a pass that has not rotated has no image yet
  | .removing | .rotating => False
  | _ => True

def Imaged (s : Cache g C) (im : Nat → BlockData g.blockSize) : Prop :=
  ∀ r, s.flush = some r → s.StageImage im r.stats r.stage

theorem StageImage.frame {stats : FlushStats} {stage : FlushStage C g}
    (h : s.StageImage im stats stage) (file : t.flushingFile = s.flushingFile)
    (content : ∀ b, g.InRange b → t.content t.volumeManifest b = s.content s.volumeManifest b) :
    t.StageImage im stats stage := by
  cases stage with
  | rotated claim =>
    refine ⟨fun f handle => h.1 f (file ▸ handle), fun b range other => ?_⟩
    rw [content b range]
    exact h.2 b range other
  | uploading claim plans pending =>
    intro none
    refine ⟨fun f handle => (h none).1 f (file ▸ handle), fun b range other => ?_⟩
    rw [content b range]
    exact (h none).2 b range other
  | emptied | putting | evicting | checkpointing | clearing | closing | deleting | finished =>
    intro none b range
    rw [content b range]
    exact h none b range
  | removing | rotating => exact h
  | _ => trivial

theorem Imaged.ofLocal (h : s.Imaged im) (l : Local s t) : t.Imaged im := by
  intro r at_r
  exact (h r (l.flush ▸ at_r)).frame l.flushingFile fun b _ => content_memory l.remote b

/-- The flush is over, or at a stage that promises nothing. -/
theorem Imaged.of_idle (idle : t.flush = none) : t.Imaged im := by
  intro r at_r
  rw [idle] at at_r
  cases at_r

end Cache

theorem endCkpt_imaged (h : s.Imaged im) (run : CkptRun) (ok : Bool) : (s.endCkpt run ok).Imaged im := by
  intro r at_r
  obtain ⟨r', at_r', resumes⟩ := endCkpt_flush at_r
  have before := h r' at_r'
  cases resumes with
  | clearing => exact before
  | deleting => trivial
  | same => exact before.frame rfl fun _ _ => rfl

/-- The rotation makes the image: DIRTY blocks are in the file, and S3 has the others. -/
theorem rotate_imaged (data : DataInv s) (taken : (Act.rotate .ok).step s = some t) :
    t.Imaged s.acked := by
  cases step_cases taken with
  | rotate at_r named =>
    have noSyncing : s.NoSyncing := data.stage _ at_r
    have kept := claimDirty_active (s.setFlags true s.sequence)
    intro r found
    cases found
    refine ⟨fun f handle b mem => ?_, fun b range other => ?_⟩
    · cases handle
      have ok := data.blocks b (mem_dirtyBlocks.mp mem).1
      unfold BlockOk at ok
      rw [(mem_dirtyBlocks.mp mem).2] at ok
      rw [kept]
      exact ok
    · have stored := content_memory (shifts_claimDirty (s.setFlags true s.sequence)).remote b
      refine stored.trans (data.content range fun present => ?_)
      unfold Present at present
      cases at_b : s.states b with
      | dirty => exact other (mem_dirtyBlocks.mpr ⟨range, at_b⟩)
      | syncing => exact noSyncing b range at_b
      | clean | notPresent =>
        rw [at_b] at present
        cases present

/-- The blocks of a flush that skips nothing are those it claimed. -/
theorem compute_imaged {Q : Prop} (remote : RemoteInv Q s) (h : s.Imaged im) {level : Int}
    {skipped uncopied : List Nat} (taken : (Act.compute level skipped uncopied).step s = some t) :
    t.Imaged im := by
  cases step_cases taken with
  | @compute _ _ claim f plans _ _ _ at_r nonempty handle computed =>
    have l := (shifts_unskip f uncopied s (claim.blocks.filter (· ∈ skipped))).local
    obtain ⟨inFile, inS3⟩ := h _ at_r
    obtain ⟨plans', computed', planned⟩ :=
      planFlush_planned remote.manifest level (claim.read f skipped)
    rw [computed] at computed'
    cases computed'
    intro r found
    cases found
    intro none
    have all (b : Nat) : b ∈ flushedBlocks plans ↔ b ∈ claim.blocks := by
      rw [planned.mem_flushedBlocks]
      unfold Claim.read
      rw [List.map_map, List.mem_map]
      constructor
      · rintro ⟨b', mem, rfl⟩
        exact List.mem_of_mem_filter mem
      · intro mem
        refine ⟨b, List.mem_filter.mpr ⟨mem, decide_eq_true fun skip => ?_⟩, rfl⟩
        exact List.ne_nil_of_mem (List.mem_filter.mpr ⟨mem, decide_eq_true skip⟩)
          (List.length_eq_zero_iff.mp none)
    refine ⟨fun f' handle' b mem => ?_, fun b range other => ?_⟩
    · exact inFile f' (l.flushingFile ▸ handle') b ((all b).mp mem)
    · exact (content_memory l.remote b).trans (inS3 b range fun mem => other ((all b).mpr mem))

theorem append_imaged {Q : Prop} (remote : RemoteInv Q s) (h : s.Imaged im)
    (taken : Act.append.step s = some t) : t.Imaged im := by
  have appended {pass : Option Nat} {stats : FlushStats} {claim : Claim g}
      {plans : List (ChunkPlan C)} (at_r : s.flush = some ⟨pass, .uploading claim plans [], stats⟩)
      (none : stats.blocksCrcMismatched = 0) (b : Nat) (range : g.InRange b) :
      s.content (appendStaged s.volumeManifest (staged s.volumeManifest plans)) b = im b := by
    obtain ⟨own, other⟩ := append_content remote range.addressable at_r
    obtain ⟨inFile, inS3⟩ := h _ at_r none
    by_cases flushed : b ∈ flushedBlocks plans
    · obtain ⟨f, handle, same⟩ := own flushed
      exact same.trans (inFile f handle b flushed)
    · exact (other flushed).trans (inS3 b range flushed)
  cases step_cases taken with
  | appendNone at_r _ | append at_r =>
    intro r found
    cases found
    exact appended at_r

theorem step_imaged {Q : Prop} (remote : RemoteInv Q s) (h : s.Imaged im) {a : Act}
    (quiet : a.Internal) (begun : a ≠ .pass) (unrotated : a ≠ .rotate .ok) (taken : a.step s = some t) :
    t.Imaged im := by
  have same {r : FlushRun C g} (at_r : s.flush = some r) := h r at_r
  cases step_cases taken with
  | write done => exact absurd rfl (quiet.1 _ _)
  | zeroRange done => exact absurd rfl (quiet.2 _ _)
  | passStale at_r _ | passEarly at_r _ _ | passOrphan at_r _ _ | passRotate at_r _ _ =>
    exact absurd rfl begun
  | rotate at_r named => exact absurd rfl unrotated
  | compute => exact compute_imaged remote h taken
  | appendNone | append => exact append_imaged remote h taken
  | ckptTruncate at_run covered => exact endCkpt_imaged (s := s.truncateWal) h _ true
  | ckptKeep at_run => exact endCkpt_imaged (s := s.keepWal) h _ true
  | ckptFail at_run => exact endCkpt_imaged h _ false
  | ckptStart free | ckptCopy at_run more | ckptSeal at_run | ckptPublish at_run => exact h
  | removeOrphan at_r | keepOrphan at_r | renameFails at_r | createFails at_r
  | undoFails at_r named => exact (same at_r).elim
  | cleanEmpty at_r empty =>
    intro r found
    cases found
    exact fun _ b range => (same at_r).2 b range (by simp [empty])
  | @removeEmpty _ _ ok at_r | @deleteFile _ _ ok at_r =>
    intro r found
    cases found
    cases ok <;> exact same at_r
  | @upload _ _ _ _ _ p _ at_r at_k =>
    intro r found
    cases found
    intro none
    refine ⟨((same at_r) none).1, fun b range other => ?_⟩
    exact (uploadPack_content remote.manifest p b).trans (((same at_r) none).2 b range other)
  | put at_r | flushCkpt at_r free | clearFlags at_r | dropHandle at_r | keepFile at_r =>
    intro r found
    cases found
    exact same at_r
  | evict at_r =>
    intro r found
    cases found
    intro none b range
    exact (content_memory (shifts_evictBlocks s _).remote b).trans ((same at_r) none b range)
  | flushPacks free remaining | flushToS3 free remaining | teardownUndrained free remaining
  | teardownDrained free remaining drained clean | putFails outcome at_r | computeFails at_r | uploadFails at_r | copyBack at_r | unflag at_r
  | strand at_r | closeHandle at_r | unlink at_r | finishPublish at_r | finishAgain at_r
  | finishSync at_r uploaded | syncPut at_r | syncCkpt at_r free =>
    intro r found
    cases found
    trivial
  | redirty at_r | finishPacks at_r | finishUploaded at_r uploaded | finishFails at_r | publish at_r
  | publishFails outcome at_r | syncPutFails outcome at_r | syncDelete at_r =>
    exact Imaged.of_idle rfl
  | @dropDeleting _ _ _ applied at_r waits | @dropPutting _ _ _ applied at_r waits =>
    cases applied <;> exact Imaged.of_idle rfl
  | dropWaiting at_r waits => exact Imaged.of_idle rfl

/-! ## Sequence numbers -/

namespace Cache

/-- A write to the block takes the next number: the block is not DIRTY, also not after it was
    promoted, and there is a next number. -/
def TakesNumber (s : Cache g C) (b : Nat) : Prop :=
  (s.promoteBlock b).states b ≠ .dirty ∧ s.sequence ≠ u64Max

instance (s : Cache g C) (b : Nat) : Decidable (s.TakesNumber b) := by
  unfold TakesNumber
  infer_instance

/-- The last number is at most `n`, or the log has it. -/
def Topped (s : Cache g C) (n : Nat) : Prop := s.sequence ≤ n ∨ ∃ e ∈ s.wal, s.sequence ≤ e.sequence

end Cache

/-- `open` finds the last number in the files, whatever a running checkpoint does next. -/
structure NumberInv (s : Cache g C) : Prop where
  saved : s.Topped s.loaded.maxSequence
  covered : ∀ run, s.ckpt = some run → s.Topped run.coveredSeq
  number : ∀ run, s.ckpt = some run → s.StageNumber run.coveredSeq run.stage
  exclusive : Exclusive s

theorem nextSequence_ge (n : Nat) : n ≤ nextSequence n := by
  unfold nextSequence
  split <;> omega

theorem promoteBlock_log (s : Cache g C) (b : Nat) : (s.promoteBlock b).log = s.log := by
  rcases promoteBlock_cases s b with ⟨same, _⟩ | ⟨f, _, _, moved⟩
  · rw [same]
  · rw [moved]
    have kept := transitionToDirty_log (s.writeActive b (f.cur b)) b
    exact Prod.ext kept.1 kept.2

/-- The largest number is the first one or that of an entry. -/
theorem foldl_max_top (es : List WalEntry) (n : Nat) :
    es.foldl (fun top e => max top e.sequence) n ≤ n ∨
      ∃ e ∈ es, es.foldl (fun top e => max top e.sequence) n ≤ e.sequence := by
  induction es generalizing n with
  | nil => exact Or.inl le_rfl
  | cons first rest ih =>
    rcases ih (max n first.sequence) with low | ⟨e, listed, high⟩
    · rcases le_max_iff.mp low with saved | logged
      · exact Or.inl saved
      · exact Or.inr ⟨first, List.mem_cons_self, logged⟩
    · exact Or.inr ⟨e, List.mem_cons_of_mem _ listed, high⟩

/-- A write appends one entry with the next number, or takes no number. -/
theorem putBlock_number (patch : Patch g) (s : Cache g C) (b : Nat) :
    ((s.promoteBlock b).states b = .dirty ∧ (putBlock patch s b).log = s.log) ∨
      ((s.promoteBlock b).states b ≠ .dirty ∧
        (putBlock patch s b).wal = s.wal ++ [⟨b, nextSequence s.sequence⟩] ∧
        (putBlock patch s b).sequence = nextSequence s.sequence) := by
  obtain ⟨wal, sequence⟩ := Prod.mk.inj (promoteBlock_log s b)
  have log : (putBlock patch s b).wal = _ ∧ (putBlock patch s b).sequence = _ :=
    walAppendAndMarkDirty_log ((s.promoteBlock b).writeActive b _) b
  by_cases dirty : (s.promoteBlock b).states b = .dirty
  · refine Or.inl ⟨dirty, Prod.ext ?_ ?_⟩
    · exact (log.1.trans (if_pos dirty)).trans wal
    · exact (log.2.trans (if_pos dirty)).trans sequence
  · refine Or.inr ⟨dirty, ?_, ?_⟩
    · rw [← wal, ← sequence]
      exact log.1.trans (if_neg dirty)
    · rw [← sequence]
      exact log.2.trans (if_neg dirty)

theorem putBlock_sequence_ge (patch : Patch g) (s : Cache g C) (b : Nat) :
    s.sequence ≤ (putBlock patch s b).sequence := by
  rcases putBlock_number patch s b with ⟨_, log⟩ | ⟨_, _, sequence⟩
  · exact (Prod.mk.inj log).2.ge
  · rw [sequence]
    exact nextSequence_ge _

theorem putBlocks_sequence_ge (patch : Patch g) (s : Cache g C) (bs : List Nat) :
    s.sequence ≤ (bs.foldl (putBlock patch) s).sequence := by
  induction bs generalizing s with
  | nil => exact le_rfl
  | cons b rest ih => exact (putBlock_sequence_ge patch s b).trans (ih _)

/-- Writing one block does not change whether another one takes a number, as long as there are
    numbers. -/
theorem promoteBlock_putBlock (patch : Patch g) (s : Cache g C) {b b' : Nat} (other : b' ≠ b) :
    ((putBlock patch s b).promoteBlock b').states b' = (s.promoteBlock b').states b' := by
  have file := (local_putBlock patch s b).flushingFile
  have state : (putBlock patch s b).states b' = s.states b' := by
    rw [putBlock_states, Function.update_of_ne other]
  unfold promoteBlock
  rw [file]
  cases s.flushingFile with
  | none => exact state
  | some f =>
    dsimp only
    rw [state]
    cases s.states b' with
    | dirty | clean => exact state
    | syncing => simp [transitionToDirty_states]
    | notPresent =>
      dsimp only
      split
      · exact state
      · simp [transitionToDirty_states]

/-- A write raises the number if one of its blocks takes one. -/
theorem putBlocks_sequence_lt (patch : Patch g) {bs : List Nat} {b : Nat} (mem : b ∈ bs) :
    ∀ s : Cache g C, s.TakesNumber b → s.sequence < (bs.foldl (putBlock patch) s).sequence := by
  induction bs with
  | nil => cases mem
  | cons first rest ih =>
    intro s takes
    by_cases here : first = b
    · subst here
      rcases putBlock_number patch s first with ⟨dirty, _⟩ | ⟨_, _, sequence⟩
      · exact absurd dirty takes.1
      · refine lt_of_lt_of_le ?_ (putBlocks_sequence_ge patch _ rest)
        rw [sequence, nextSequence, if_neg takes.2]
        exact Nat.lt_succ_self _
    · -- either the first block already raises the number, or `b` still takes one
      rcases (putBlock_sequence_ge patch s first).lt_or_eq with raised | same
      · exact raised.trans_le (putBlocks_sequence_ge patch _ rest)
      · have still : (putBlock patch s first).TakesNumber b :=
          ⟨promoteBlock_putBlock patch s (Ne.symm here) ▸ takes.1, same ▸ takes.2⟩
        have later := ih ((List.mem_cons.mp mem).resolve_left (Ne.symm here)) _ still
        exact same.trans_lt later

namespace NumberInv

/-- A step that keeps log, metadata and checkpoint. -/
theorem frame (h : NumberInv s) (log : t.log = s.log) (metadata : t.metadata = s.metadata)
    (ckpt : ∀ run, t.ckpt = some run → ∃ awaited, s.ckpt = some { run with awaited }) :
    NumberInv t := by
  obtain ⟨wal, sequence⟩ := Prod.mk.inj log
  have same : t.loaded = s.loaded := congrArg loadMetadata metadata
  refine ⟨?_, fun run found => ?_, fun run found => ?_, fun run found exclusive => ?_⟩
  · unfold Topped
    rw [wal, sequence, same]
    exact h.saved
  · obtain ⟨awaited, before⟩ := ckpt run found
    unfold Topped
    rw [wal, sequence]
    exact h.covered { run with awaited } before
  · obtain ⟨awaited, before⟩ := ckpt run found
    exact (h.number _ before).frame metadata
  · obtain ⟨awaited, before⟩ := ckpt run found
    rw [sequence]
    exact h.exclusive { run with awaited } before exclusive

theorem logStep (h : NumberInv s) (done : LogStep s t) : NumberInv t := by
  cases done with
  | same => exact h
  | dropFlush =>
    refine h.frame rfl rfl fun run found => ?_
    obtain ⟨before, at_run, rfl⟩ := Option.map_eq_some_iff.mp found
    exact ⟨before.awaited, at_run⟩
  | newCkpt awaited =>
    refine ⟨h.saved, fun run found => ?_, fun run found => ?_, fun run found _ => ?_⟩ <;>
      cases found
    · exact Or.inl le_rfl
    · trivial
    · rfl
  | copy at_run | sealed at_run =>
    have covered := h.covered _ at_run
    have exclusive := h.exclusive _ at_run
    refine ⟨h.saved, fun run found => ?_, fun run found => ?_, fun run found => ?_⟩ <;>
      cases found
    · exact covered
    · trivial
    · exact exclusive
  | @publish _ _ saved _ at_run =>
    -- the saved number is the one the checkpoint began with
    have covered := h.covered _ at_run
    have number : saved.maxSequence = _ := h.number _ at_run
    have exclusive := h.exclusive _ at_run
    refine ⟨?_, fun run found => ?_, fun run found => ?_, fun run found => ?_⟩
    · change s.Topped saved.maxSequence
      rw [number]
      exact covered
    all_goals cases found
    · exact covered
    · exact number
    · exact exclusive
  | truncate at_run covered =>
    have number : s.loaded.maxSequence = _ := h.number _ at_run
    have last : s.sequence ≤ s.loaded.maxSequence := by
      rw [number]
      cases covered with
      | inl exclusive => exact (h.exclusive _ at_run exclusive).le
      | inr same => exact same.le
    exact ⟨Or.inl last, nofun, nofun,
      nofun⟩
  | ended at_run ok =>
    exact ⟨h.saved, nofun, nofun,
      nofun⟩

/-- What a log that grew by numbered entries keeps. -/
theorem put {patch : Patch g} {offset len : Nat} (h : NumberInv s)
    (done : s.putRange patch offset len = some t) : NumberInv t := by
  have l := local_putRange done
  have grows (bs : List Nat) : ∀ s : Cache g C, (bs.foldl (putBlock patch) s).log = s.log ∨
      (s.wal.length < (bs.foldl (putBlock patch) s).wal.length ∧
        ∃ e ∈ (bs.foldl (putBlock patch) s).wal,
          (bs.foldl (putBlock patch) s).sequence ≤ e.sequence) := by
    induction bs with
    | nil => exact fun _ => Or.inl rfl
    | cons b rest ih =>
      intro s
      rcases ih (putBlock patch s b) with same | ⟨longer, last⟩
      · obtain ⟨wal, sequence⟩ := Prod.mk.inj same
        rcases putBlock_number patch s b with ⟨_, log⟩ | ⟨_, appended, number⟩
        · exact Or.inl (same.trans log)
        · refine Or.inr ⟨?_, ⟨b, nextSequence s.sequence⟩, ?_, ?_⟩
          · rw [List.foldl_cons, wal, appended, List.length_append]
            exact Nat.lt_succ_self _
          · rw [List.foldl_cons, wal, appended]
            exact List.mem_append_right _ List.mem_cons_self
          · rw [List.foldl_cons, sequence, number]
      · exact Or.inr ⟨lt_of_le_of_lt (putBlock_wal patch s b).length_le longer, last⟩
  have same : t.loaded = s.loaded := congrArg loadMetadata l.metadata
  have keeps (log : t.log = s.log) : NumberInv t :=
    h.frame log l.metadata fun run found => ⟨run.awaited, l.ckpt ▸ found⟩
  rcases putRange_some done with ⟨_, rfl⟩ | ⟨_, put, held⟩
  · exact h
  · rcases grows (blocksIn g offset len) s with unchanged | ⟨longer, last⟩
    · exact keeps (put ▸ unchanged)
    · change s.wal.length < (s.putBlocks patch offset len).wal.length at longer
      rw [← put] at longer
      have top (n : Nat) : t.Topped n := Or.inr (by rw [put]; exact last)
      refine ⟨top _, fun run _ => top _, fun run found => ?_, fun run found exclusive => ?_⟩
      · exact (h.number run (l.ckpt ▸ found)).frame l.metadata
      · have holds : s.walHeld = true := by
          unfold walHeld
          rw [← l.ckpt, found]
          exact decide_eq_true exclusive
        exact absurd (held holds) longer.ne'

theorem openCache (d : Disk g.blockSize) (store : PackStore C) (durable : VolumeManifest PackId) :
    NumberInv (openCache d store durable) :=
  ⟨foldl_max_top d.walEntries d.loaded.maxSequence, nofun,
    nofun, nofun⟩

theorem openFresh (d : Disk g.blockSize) (store : PackStore C) (durable : VolumeManifest PackId) :
    NumberInv (openFresh d store durable) :=
  ⟨Or.inl (Nat.zero_le _), nofun, nofun,
    nofun⟩

/-- After a crash the numbers go on from the last one. -/
theorem reopened_ge (h : NumberInv s) : s.sequence ≤ s.reopened.sequence := by
  obtain ⟨low, high⟩ := Wal.foldl_max_le s.crash.walEntries s.crash.loaded.maxSequence
  rcases h.saved with saved | ⟨e, logged, below⟩
  · exact saved.trans low
  · by_cases replays : walMinSeq s.crash.loaded < e.sequence
    · exact below.trans (high e (List.mem_filter.mpr ⟨logged, decide_eq_true replays⟩))
    · exact below.trans ((not_lt.mp replays).trans ((walMinSeq_le _).trans low))

end NumberInv

theorem host_numberInv (data : DataInv s) (h : NumberInv s) {a : HostAct} (sound : a.Sound s)
    (taken : a.step s = some t) : NumberInv t := by
  cases host_cases taken with
  | put how done =>
    have claimed : NumberInv (s.claimed (a.claims g)) :=
      h.frame rfl rfl fun run found => ⟨run.awaited, found⟩
    exact claimed.put done
  | recast | syncActive | syncWal => exact h.frame rfl rfl fun run found => ⟨run.awaited, found⟩
  | inner quiet taken =>
    obtain ⟨u, done, same⟩ := step_log data sound.2 quiet taken
    exact (h.logStep done).frame same.log same.metadata fun run found =>
      ⟨run.awaited, same.ckpt ▸ found⟩

theorem LogStep.sequence (done : LogStep s t) : t.sequence = s.sequence := by
  cases done <;> rfl

end GlideFS.WriteCache
