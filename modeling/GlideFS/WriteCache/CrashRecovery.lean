import GlideFS.WriteCache.Recorded

/-! # Recovery from a crash

After a crash `open` marks every recorded block DIRTY. When there is a flushing
file, it takes the bytes of a block from there unless it believes that the block
was written after the rotation. It believes so for blocks with a log entry above
the replay start, although entries from before the rotation are still in the log
until the next checkpoint.
-/

namespace GlideFS.WriteCache

open Block Lib Cache

variable {Hash PackId : Type} [DecidableEq Hash] [DecidableEq PackId] {g : Geometry}
  {C : Codec (BlockData g.blockSize) Hash PackId} {s t : Cache g C} {Q : Prop}

/-! ## Blocks without local data are in S3 -/

def InS3 (s : Cache g C) : Prop :=
  ∀ b, g.InRange b → ¬s.Present b → s.content s.durable b = s.acked b

theorem InS3.frame (h : InS3 s) (same : t.remote = s.remote) (acked : t.acked = s.acked)
    (present : ∀ b, s.Present b → t.Present b) : InS3 t := by
  intro b range absent
  rw [content_durable same, acked]
  exact h b range fun was => absent (present b was)

variable {b : Nat}

/-- The manifest in memory resolves the blocks without local data. -/
theorem Cache.blockOk_absent (absent : (s.states b).hasLocalData = false) :
    s.BlockOk b ↔ s.content s.volumeManifest b = s.acked b := by
  unfold BlockOk
  cases at_b : s.states b <;> rw [at_b] at absent
  case dirty | syncing => cases absent

theorem DataInv.content (h : DataInv s) (range : g.InRange b) (absent : ¬s.Present b) :
    s.content s.volumeManifest b = s.acked b :=
  (blockOk_absent (Bool.eq_false_iff.mpr absent)).mp (h.blocks b range)

theorem InS3.put (h : InS3 s) (data : DataInv s) (outcome : PutOutcome) :
    InS3 (s.putManifest outcome) := by
  intro b range absent
  unfold putManifest content
  dsimp only
  split
  · exact h b range absent
  · exact data.content range absent

theorem putBlock_inS3 (patch : Patch g)
    (s : Cache g C) (b : Nat) (h : InS3 s) : InS3 (putBlock patch s b) := by
  intro b' range absent
  have l := local_putBlock patch s b
  unfold Present at absent
  rw [putBlock_states, Function.update_apply] at absent
  split at absent
  · exact absurd rfl absent
  · rename_i other
    rw [content_durable l.remote, putBlock_acked, Function.update_of_ne other]
    exact h b' range absent

theorem toDirty_keeps {b' : Nat} (was : s.Present b') : (s.transitionToDirty b).Present b' := by
  unfold Present at was ⊢
  rw [transitionToDirty_states, Function.update_apply]
  split
  · rfl
  · exact was

theorem foldl_keeps_present {f : Cache g C → Nat → Cache g C}
    (each : ∀ s b b', s.Present b' → (f s b).Present b') {bs : List Nat} (was : s.Present b) :
    (bs.foldl f s).Present b := by
  induction bs generalizing s with
  | nil => exact was
  | cons first rest ih => exact ih (each s first b was)

theorem unskip_keeps {f : DataFile g.blockSize} {uncopied : List Nat} {b' : Nat}
    (was : s.Present b') : (unskipBlock f uncopied s b).Present b' := by
  unfold unskipBlock
  split
  · split
    · exact was
    · exact toDirty_keeps (s := s.writeActive b (f.cur b)) was
  · exact toDirty_keeps was

theorem claimDirty_keeps (was : s.Present b) : s.claimDirty.Present b := by
  unfold Present at was ⊢
  rw [claimDirty_states]
  split
  · rfl
  · exact was

/-- S3 resolves what a flush evicts. -/
theorem evict_inS3 (h : InS3 s) (data : DataInv s) {plans : List (ChunkPlan C)}
    (readable : Readable s.store s.durable s.flushingFile plans) :
    InS3 (s.evictBlocks (flushedBlocks plans)) := by
  obtain ⟨f, handle, resolves⟩ := readable
  have l := shifts_evictBlocks s (flushedBlocks plans)
  intro b range absent
  have state := evictBlocks_states s (flushedBlocks plans) b
  unfold Present at absent
  rw [content_durable l.remote, l.acked]
  split at state
  · rename_i evicted
    have ok := data.blocks b range
    unfold BlockOk at ok
    rw [evicted.2] at ok
    unfold content
    rw [resolves b evicted.1]
    exact ok.1 f handle
  · rw [state] at absent
    exact h b range absent

theorem step_inS3 (remote : RemoteInv True s) (data : DataInv s) (h : InS3 s) {a : Act}
    (taken : a.step s = some t) : InS3 t := by
  cases step_cases taken with
  | write done | zeroRange done => exact putRange_keeps putBlock_inS3 h done
  | rotate at_r named =>
    have l := shifts_claimDirty (s.setFlags true s.sequence)
    exact h.frame l.remote l.acked
      fun b was => claimDirty_keeps (s := s.setFlags true s.sequence) was
  | @compute _ _ claim f _ _ skipped uncopied at_r nonempty handle computed =>
    have l := shifts_unskip f uncopied s (claim.blocks.filter (· ∈ skipped))
    exact h.frame l.remote l.acked
      fun b was => foldl_keeps_present (fun s b b' was => unskip_keeps was) was
  | upload at_r at_k =>
    intro b range absent
    refine Eq.trans ?_ (h b range absent)
    exact congrArg (·.getD 0) (remote.durable.resolve_extends
      (fun _ _ _ get => PackStore.streamChunkPack_keeps get) g b)
  | appendNone at_r none | append at_r => exact fun b range absent => h b range absent
  | put at_r | publish at_r | syncPut at_r => exact h.put data .ok
  | putFails outcome at_r | publishFails outcome at_r | syncPutFails outcome at_r =>
    exact h.put data outcome
  | evict at_r => exact evict_inS3 h data ((remote.stage _ at_r).2 trivial)
  | @copyBack _ _ claim uncopied at_r =>
    have l := shifts_copyBack s claim uncopied
    refine h.frame l.remote l.acked fun b was => ?_
    have states := congrFun (copyBack_states s claim uncopied) b
    unfold Present at was ⊢
    exact states ▸ was
  | @strand _ _ claim recovered at_r =>
    obtain ⟨_, _, syncingIn, _⟩ := data.stage _ at_r
    rw [strand_all claim.inRange syncingIn]
    exact h.frame rfl rfl fun b was => was
  | @redirty _ _ recovered at_r =>
    have l := shifts_redirty s recovered
    exact h.frame l.remote l.acked
      fun b was => foldl_keeps_present (fun s b b' was => toDirty_keeps was) was
  | removeEmpty at_r | deleteFile at_r | unlink at_r | syncDelete at_r | dropDeleting at_r waits =>
    split <;> exact h.frame rfl rfl fun b was => was
  | dropPutting at_r waits =>
    split
    · exact h.put data .applied
    · exact h.frame rfl rfl fun b was => was
  | _ => exact h.frame rfl rfl fun b was => was

/-! ## Names of the files -/

/-- The active file has its name and no teardown has begun. -/
structure Cache.Running (s : Cache g C) : Prop where
  named : s.activeName = .active
  remaining : s.remaining = none

def Act.InCycle : Act → Prop
  | .rotate .undoFails | .teardown _ => False
  | _ => True

theorem step_running (h : s.Running) {a : Act} (cycle : a.InCycle) (taken : a.step s = some t) :
    t.Running := by
  have removed : s.removeFlushing.Running := by
    refine ⟨?_, h.remaining⟩
    unfold removeFlushing
    rw [h.named]
    rfl
  have moved {u t : Cache g C} (l : Local s u)
      (same : (t.activeName, t.remaining) = (u.activeName, u.remaining)) : t.Running := by
    obtain ⟨name, remaining⟩ := Prod.mk.inj same
    exact ⟨name.trans (l.activeName.trans h.named), remaining.trans (l.remaining.trans h.remaining)⟩
  cases step_cases taken with
  | write done | zeroRange done => exact moved (local_putRange done) rfl
  | teardownUndrained free remaining | teardownDrained free remaining drained clean => cases cycle
  | undoFails at_r named => cases cycle
  | rotate at_r named =>
    have l := (shifts_claimDirty (s.setFlags true s.sequence)).local
    exact ⟨l.activeName.trans h.named, l.remaining.trans h.remaining⟩
  | compute at_r nonempty handle computed => exact moved (shifts_unskip _ _ s _).local rfl
  | evict at_r => exact moved (shifts_evictBlocks s _).local rfl
  | copyBack at_r => exact moved (shifts_copyBack s _ _).local rfl
  | strand at_r => exact moved (shifts_strand _ s _).local rfl
  | redirty at_r => exact moved (shifts_redirty s _).local rfl
  | removeOrphan at_r => exact ⟨removed.named, removed.remaining⟩
  | removeEmpty at_r | deleteFile at_r | unlink at_r | syncDelete at_r | dropDeleting at_r waits =>
    split
    · exact ⟨removed.named, removed.remaining⟩
    · exact ⟨h.named, h.remaining⟩
  | dropPutting at_r waits => split <;> exact ⟨h.named, h.remaining⟩
  | _ => exact ⟨h.named, h.remaining⟩

/-! ## Opening the files of a crash -/

open Classical in
/-- Replay makes DIRTY what has an entry. -/
theorem replayed_eq (d : Disk g.blockSize) (range : g.InRange b) :
    Disk.replayed g d b =
      if ∃ e ∈ d.walEntries, e.blockIndex = b then .dirty else d.loaded.states b := by
  have inside := lt_numBlocks.mpr range
  unfold Disk.replayed
  rw [if_pos inside, applyEntries_eq]
  simp only [inside, true_and]

theorem openStates_present (d : Disk g.blockSize) (b : Nat) :
    (Disk.openStates g d b).hasLocalData = (Disk.replayed g d b).hasLocalData := by
  unfold Disk.openStates
  cases Disk.replayed g d b <;> rfl

namespace Cache

/-- What `open` takes for a block written after the rotation: it has a log entry that is
    replayed, or it is DIRTY in metadata saved during a flush. -/
def PostRotated (s : Cache g C) (b : Nat) : Prop :=
  s.LoggedAfter (walMinSeq s.loaded) b ∨ 0 < s.loaded.rotationSeq ∧ s.loaded.states b = .dirty

def reopened (s : Cache g C) : Cache g C := openCache s.crash s.store s.durable

variable {b : Nat}

theorem mem_walEntries :
    (∃ e ∈ s.crash.walEntries, e.blockIndex = b) ↔ s.LoggedAfter (walMinSeq s.loaded) b := by
  unfold Disk.walEntries LoggedAfter
  simp only [List.mem_filter, decide_eq_true_eq]
  constructor
  · rintro ⟨e, ⟨listed, above⟩, at_b⟩
    exact ⟨e, listed, at_b, above⟩
  · rintro ⟨e, listed, at_b, above⟩
    exact ⟨e, ⟨listed, above⟩, at_b⟩

open Classical in
theorem replayed_crash (range : g.InRange b) :
    Disk.replayed g s.crash b =
      if s.LoggedAfter (walMinSeq s.loaded) b then .dirty else s.loaded.states b := by
  rw [replayed_eq s.crash range]
  simp only [mem_walEntries]
  rfl

theorem replayed_present (range : g.InRange b) :
    (Disk.replayed g s.crash b).hasLocalData = true ↔ s.Recorded b := by
  rw [replayed_crash range]
  unfold Recorded Covered
  split
  · rename_i logged
    exact ⟨fun _ => Or.inr logged, fun _ => rfl⟩
  · rename_i unlogged
    exact ⟨Or.inl, fun h => h.resolve_right unlogged⟩

theorem postRotation_crash (range : g.InRange b) :
    Disk.postRotation g s.crash b = true ↔ s.PostRotated b := by
  unfold Disk.postRotation PostRotated
  rw [replayed_crash range]
  simp only [Bool.or_eq_true, Bool.and_eq_true, decide_eq_true_eq, List.any_eq_true]
  rw [mem_walEntries]
  by_cases logged : s.LoggedAfter (walMinSeq s.loaded) b
  · simp [logged]
  · simp only [logged, if_false, or_false, false_or]
    rfl

theorem openStates_dirty (range : g.InRange b) : s.reopened.states b = .dirty ↔ s.Recorded b := by
  rw [← replayed_present range]
  change Disk.openStates g s.crash b = .dirty ↔ _
  unfold Disk.openStates
  cases Disk.replayed g s.crash b with
  | dirty | syncing => exact ⟨fun _ => rfl, fun _ => rfl⟩
  | clean | notPresent => exact ⟨nofun, nofun⟩

theorem copied_cur (f : DataFile g.blockSize) (bs : List Nat) (a : DataFile g.blockSize) (b : Nat) :
    (bs.foldl (fun a b => a.writeBlock b (f.cur b)) a).cur b =
      if b ∈ bs then f.cur b else a.cur b := by
  induction bs generalizing a with
  | nil => rfl
  | cons first rest ih =>
    rw [List.foldl_cons, ih]
    by_cases later : b ∈ rest
    · rw [if_pos later, if_pos (List.mem_cons_of_mem first later)]
    · rw [if_neg later]
      unfold DataFile.writeBlock
      dsimp only
      rw [Function.update_apply]
      by_cases here : b = first
      · rw [if_pos here, if_pos (here ▸ List.mem_cons_self), here]
      · rw [if_neg here, if_neg (fun mem => (List.mem_cons.mp mem).elim here later)]

theorem Running.crash_flushing (running : s.Running) : s.crash.flushing = s.flushingPath := by
  unfold crash
  dsimp only
  rw [running.named]
  rfl

open Classical in
/-- The bytes a recorded block has after `open`. -/
theorem reopened_cur (running : s.Running) (range : g.InRange b) (recorded : s.Recorded b) :
    s.reopened.active.cur b = match s.flushingPath with
      | none => s.active.cur b
      | some f => if s.PostRotated b then s.active.cur b else f.cur b := by
  have active : s.crash.active = s.active := if_pos running.named
  have flushing := running.crash_flushing
  change (Disk.recoveredActive g s.crash).cur b = _
  unfold Disk.recoveredActive
  rw [flushing, active]
  cases s.flushingPath with
  | none => rfl
  | some f =>
    dsimp only
    rw [copied_cur]
    have listed : b ∈ (List.range (numBlocks g)).filter (fun b =>
        (Disk.replayed g s.crash b).hasLocalData && !Disk.postRotation g s.crash b) ↔
          ¬s.PostRotated b := by
      rw [List.mem_filter, Bool.and_eq_true, Bool.not_eq_true', ← Bool.not_eq_true,
        postRotation_crash range, replayed_present range]
      exact ⟨fun h => h.2.2, fun h => ⟨List.mem_range.mpr (lt_numBlocks.mpr range), recorded, h⟩⟩
    by_cases post : s.PostRotated b
    · rw [if_pos post, if_neg (fun mem => listed.mp mem post)]
    · rw [if_neg post, if_pos (listed.mpr post)]

end Cache

/-! ## The invariant -/

structure CrashInv (s : Cache g C) : Prop where
  remote : RemoteInv True s
  data : DataInv s
  inS3 : InS3 s
  record : RecordInv s
  running : s.Running

/-- The steps of the runs considered. -/
structure Act.Recoverable (s : Cache g C) (a : Act) : Prop where
  resolvable : a.Resolvable True s
  copies : a.Copies
  logged : a.Logged s
  cycle : a.InCycle

theorem step_crashInv (h : CrashInv s) {a : Act} (ok : a.Recoverable s)
    (taken : a.step s = some t) : CrashInv t where
  remote := step_remoteInv h.remote ok.resolvable taken
  data := step_dataInv h.remote h.data ok.copies taken
  inS3 := step_inS3 h.remote h.data h.inS3 taken
  record := step_recordInv h.data h.record ok.copies ok.logged taken
  running := step_running h.running ok.cycle taken

/-- The reopened cache is recorded by the files it was opened on. -/
theorem openCache_recordInv (d : Disk g.blockSize) (store : PackStore C)
    (durable : VolumeManifest PackId) : RecordInv (openCache d store durable) := by
  obtain ⟨low, high⟩ := Wal.foldl_max_le d.walEntries d.loaded.maxSequence
  refine ⟨⟨high, low, fun b range present => ?_, nofun,
    nofun⟩, nofun⟩
  have replayed := (openStates_present d b).symm.trans present
  rw [replayed_eq d range] at replayed
  split at replayed
  · rename_i logged
    obtain ⟨e, listed, at_b⟩ := logged
    exact Or.inr ⟨e, listed, at_b, of_decide_eq_true (List.mem_filter.mp listed).2⟩
  · exact Or.inl replayed

theorem openCache_crashInv (d : Disk g.blockSize) (v : Volume C) :
    CrashInv (openCache d v.store v.manifest) where
  remote := openCache_remoteInv d v
  data := openCache_dataInv d v
  inS3 _ range absent := (openCache_dataInv d v).content range absent
  record := openCache_recordInv d v.store v.manifest
  running := ⟨rfl, rfl⟩

/-! ## What `open` recovers -/

namespace Cache

/-- Every block whose last acknowledged content S3 does not have is DIRTY after a crash and
    `open`, with that content. -/
def Recovers (s : Cache g C) : Prop :=
  ∀ b, g.InRange b → s.acked b ≠ s.content s.durable b →
    s.reopened.states b = .dirty ∧ s.reopened.active.cur b = s.acked b

/-- With a flushing file on disk, a block that differs between the two files passes for
    written after the rotation exactly if it is DIRTY. -/
def Placed (s : Cache g C) : Prop :=
  ∀ b, g.InRange b → s.acked b ≠ s.content s.durable b → ∀ f, s.flushingPath = some f →
    f.cur b ≠ s.active.cur b → (s.PostRotated b ↔ s.states b = .dirty)

end Cache

/-- Where the bytes of one block are after `open`. -/
theorem CrashInv.recovers_block (h : CrashInv s) (range : g.InRange b)
    (unsaved : s.acked b ≠ s.content s.durable b) :
    (s.reopened.states b = .dirty ∧ s.reopened.active.cur b = s.acked b) ↔
      ∀ f, s.flushingPath = some f → f.cur b ≠ s.active.cur b →
        (s.PostRotated b ↔ s.states b = .dirty) := by
  have present : s.Present b := by
    by_contra absent
    exact unsaved (h.inS3 b range absent).symm
  have recorded := h.record.log.recorded b range present
  have state := (openStates_dirty range).mpr recorded
  have cur := reopened_cur h.running range recorded
  have ok := h.data.blocks b range
  unfold BlockOk at ok
  unfold Present at present
  cases at_b : s.states b with
  | clean | notPresent =>
    rw [at_b] at present
    cases present
  | dirty =>
    rw [at_b] at ok
    cases path : s.flushingPath with
    | none =>
      rw [path] at cur
      exact ⟨nofun, fun _ => ⟨state, cur.trans ok⟩⟩
    | some f =>
      rw [path] at cur
      by_cases post : s.PostRotated b
      · have whole := (cur.trans (if_pos post)).trans ok
        exact ⟨fun _ _ _ _ => ⟨fun _ => rfl, fun _ => post⟩, fun _ => ⟨state, whole⟩⟩
      · have whole := cur.trans (if_neg post)
        constructor
        · intro both f' found differ
          cases found
          exact absurd (whole.symm.trans (both.2.trans ok.symm)) differ
        · intro placed
          refine ⟨state, whole.trans ?_⟩
          by_contra wrong
          exact post ((placed f rfl fun same => wrong (same.trans ok)).mpr rfl)
  | syncing =>
    obtain ⟨inFile, inActive⟩ := h.data.onDisk h.running.remaining range at_b
    cases path : s.flushingPath with
    | none =>
      rw [path] at cur
      exact ⟨nofun, fun _ => ⟨state, cur.trans (inActive path)⟩⟩
    | some f =>
      rw [path] at cur
      by_cases post : s.PostRotated b
      · have whole := cur.trans (if_pos post)
        constructor
        · intro both f' found differ
          cases found
          exact absurd ((inFile f path).trans (both.2.symm.trans whole)) differ
        · intro placed
          refine ⟨state, whole.trans ?_⟩
          by_contra wrong
          cases (placed f rfl fun same => wrong (same.symm.trans (inFile f path))).mp post
      · have whole := (cur.trans (if_neg post)).trans (inFile f path)
        refine ⟨fun _ _ _ _ => ⟨fun h => absurd h post, nofun⟩,
          fun _ => ⟨state, whole⟩⟩

/-- After every run of recoverable steps and a crash, `open` recovers what S3 does not have,
    exactly if the blocks are placed. -/
theorem crash_recovers_iff (d : Disk g.blockSize) (v : Volume C) (s : Cache g C)
    (run : Reach Act.step Act.Recoverable (openCache d v.store v.manifest) s) :
    s.Recovers ↔ s.Placed := by
  have inv : CrashInv s := run.invariant (openCache_crashInv d v)
    fun _ _ _ held ok taken => step_crashInv held ok taken
  refine forall_congr' fun b => ?_
  refine forall_congr' fun range => ?_
  refine forall_congr' fun unsaved => ?_
  exact inv.recovers_block range unsaved

/-- A checkpoint after the first write, and then a flush up to its rotation. -/
def checkpointAndRotate : List Act :=
  [.ckptStart, .ckptCopy, .ckptSeal, .ckptPublish, .ckptTruncate, .flushPacks, .pass, .rotate .ok]

theorem first_write_recoverable : Act.Recoverable newCache (.write 0 [1]) where
  resolvable := trivial
  copies := trivial
  logged _ := ⟨nofun, by decide⟩
  cycle := trivial

private theorem checkpointed_rotation :
    ((Act.write 0 [1]).step newCache).bind (fun t =>
      (exec Act.step t checkpointAndRotate).map fun s =>
        (s.flushingPath.isSome, s.wal, s.loaded.rotationSeq, s.states 0,
          decide (s.acked 0 = s.content s.durable 0))) =
      some (true, [], 0, .syncing, false) := by
  decide +kernel

/-- The block is in the flushing file then, and placed. -/
theorem rotated_placed : ∃ s : Cache oneBlockDevice (.plain 16),
    Reach Act.step Act.Recoverable newCache s ∧ s.flushingPath.isSome ∧
      s.acked 0 ≠ s.content s.durable 0 ∧ s.Placed := by
  obtain ⟨t, written, rest⟩ := Option.bind_eq_some_iff.mp checkpointed_rotation
  obtain ⟨s, run, result⟩ := Option.map_eq_some_iff.mp rest
  simp only [Prod.mk.injEq, decide_eq_false_iff_not] at result
  obtain ⟨flushing, wal, rotationSeq, state, unsaved⟩ := result
  have reached : Reach Act.step Act.Recoverable newCache s := by
    refine Reach.trans (.step .refl first_write_recoverable written) (reach_exec_of run ?_)
    intro a mem u
    simp only [checkpointAndRotate, List.mem_cons, List.not_mem_nil, or_false] at mem
    rcases mem with rfl | rfl | rfl | rfl | rfl | rfl | rfl | rfl <;>
      exact ⟨trivial, trivial, trivial, trivial⟩
  refine ⟨s, reached, flushing, unsaved, fun b range _ f _ _ => ?_⟩
  have only : b = 0 := by
    unfold Geometry.InRange oneBlockDevice at range
    dsimp only at range
    omega
  subst only
  constructor
  · rintro (logged | saved)
    · obtain ⟨e, listed, _⟩ := logged
      rw [wal] at listed
      cases listed
    · omega
  · intro dirty
    rw [state] at dirty
    cases dirty

/-- A crash after a rotation that follows a checkpoint: the block comes back from the flushing
    file. -/
theorem checkpointed_rotation_recovers :
    ∃ s : Cache oneBlockDevice (.plain 16), s.flushingPath.isSome ∧
      s.acked 0 ≠ s.content s.durable 0 ∧ s.reopened.states 0 = .dirty ∧
      s.reopened.active.cur 0 = s.acked 0 := by
  obtain ⟨s, reached, flushing, unsaved, placed⟩ := rotated_placed
  exact ⟨s, flushing, unsaved,
    (crash_recovers_iff .new .new s reached).mpr placed 0 (by decide) unsaved⟩

private theorem rotation_loses :
    ((Act.write 0 [1]).step newCache).bind (fun t =>
      (exec Act.step t [.flushPacks, .pass, .rotate .ok]).map fun s =>
        (decide (s.acked 0 = s.content s.durable 0),
          decide (s.reopened.active.cur 0 = s.acked 0))) = some (false, false) := by
  decide +kernel

/-- A crash right after the first rotation: the log entry of the write is still there, so the
    block passes for written after the rotation and comes back as zeros. -/
theorem first_rotation_loses :
    ∃ s : Cache oneBlockDevice (.plain 16), Reach Act.step Act.Recoverable newCache s ∧
      ¬s.Recovers := by
  obtain ⟨t, written, rest⟩ := Option.bind_eq_some_iff.mp rotation_loses
  obtain ⟨s, run, result⟩ := Option.map_eq_some_iff.mp rest
  simp only [Prod.mk.injEq, decide_eq_false_iff_not] at result
  refine ⟨s, ?_, fun recovers => result.2 (recovers 0 (by decide) result.1).2⟩
  refine Reach.trans (.step .refl first_write_recoverable written) (reach_exec_of run ?_)
  intro a mem u
  simp only [List.mem_cons, List.not_mem_nil, or_false] at mem
  rcases mem with rfl | rfl | rfl <;> exact ⟨trivial, trivial, trivial, trivial⟩

end GlideFS.WriteCache
