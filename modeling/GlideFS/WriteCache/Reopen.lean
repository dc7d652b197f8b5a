import GlideFS.WriteCache.CrashRecovery

/-! # Opening the same files again

`WriteCache::open` rewrites the log, copies blocks from the flushing file to the
active file and removes the flushing file, and `finish_recovery` saves the block
states. However far an opening gets, another one finds what the first one found,
as long as the log is still there or the states were saved.
-/

namespace GlideFS.WriteCache

open Block Lib Cache

variable {g : Geometry}

/-- How far an opening gets before it fails. -/
inductive OpenProgress where
  /-- It fails before it changes a file. -/
  | start
  /-- It fails when it opens the log for appends, which is rewritten by then. -/
  | log
  /-- It fails in the copy from the flushing file, after the first `j` blocks. -/
  | copying (j : Nat)
  | complete
deriving DecidableEq

namespace Disk

/-- Opening the files gives the block back as DIRTY with these bytes. -/
def Holds (g : Geometry) (d : Disk g.blockSize) (b : Nat) (v : BlockData g.blockSize) : Prop :=
  d.openStates g b = .dirty ∧ (d.recoveredActive g).cur b = v

/-- The blocks `open` copies from the flushing file. -/
def preRotation (g : Geometry) (d : Disk g.blockSize) : List Nat :=
  (List.range (numBlocks g)).filter fun b =>
    (replayed g d b).hasLocalData && !postRotation g d b

def copyFrom (f : Option (DataFile g.blockSize)) (bs : List Nat) (a : DataFile g.blockSize) :
    DataFile g.blockSize :=
  match f with
  | none => a
  | some f => bs.foldl (fun a b => a.writeBlock b (f.cur b)) a

/-- The files after an opening. A log that cannot be opened is removed, so `logKept` may be
    false; replay has read it by then. -/
def opening (g : Geometry) (d : Disk g.blockSize) (logKept : Bool) :
    OpenProgress → Disk g.blockSize
  | .start => d
  | .log => { d with wal := if logKept then d.walEntries else [] }
  | .copying j => { d with
      wal := if logKept then d.walEntries else []
      active := copyFrom d.flushing ((d.preRotation g).take j) d.active }
  | .complete => { d with
      wal := if logKept then d.walEntries else []
      active := d.recoveredActive g
      flushing := none }

/-- The sequence number an opened cache starts with. -/
def openSequence (d : Disk g.blockSize) : Nat :=
  d.walEntries.foldl (fun top e => max top e.sequence) d.loaded.maxSequence

/-- `save_metadata` of an opened cache. -/
def saveOpened (g : Geometry) (d : Disk g.blockSize) (opened : Disk g.blockSize) :
    Disk g.blockSize :=
  { opened with metadata := some ⟨d.openStates g, d.openSequence, 0⟩ }

section
variable (d d' : Disk g.blockSize)

theorem recoveredActive_eq :
    d.recoveredActive g = copyFrom d.flushing (d.preRotation g) d.active := by
  unfold recoveredActive copyFrom preRotation
  rfl

theorem copyFrom_cur (f : Option (DataFile g.blockSize)) (bs : List Nat)
    (a : DataFile g.blockSize) (b : Nat) :
    (copyFrom f bs a).cur b = match f with
      | none => a.cur b
      | some f => if b ∈ bs then f.cur b else a.cur b := by
  cases f with
  | none => rfl
  | some f => exact copied_cur f bs a b

variable {d d'}

theorem replayed_congr (loaded : d'.loaded = d.loaded) (wal : d'.walEntries = d.walEntries) :
    replayed g d' = replayed g d := by
  unfold replayed
  rw [loaded, wal]

theorem openStates_congr (loaded : d'.loaded = d.loaded)
    (wal : d'.walEntries = d.walEntries) : d'.openStates g = d.openStates g := by
  unfold openStates
  rw [replayed_congr loaded wal]

theorem preRotation_congr (loaded : d'.loaded = d.loaded)
    (wal : d'.walEntries = d.walEntries) : d'.preRotation g = d.preRotation g := by
  unfold preRotation postRotation
  rw [replayed_congr loaded wal, loaded, wal]

/-- Replay of a rewritten log reads the same entries. -/
theorem walEntries_rewritten (loaded : d'.loaded = d.loaded)
    (wal : d'.wal = d.walEntries) : d'.walEntries = d.walEntries := by
  unfold walEntries at wal ⊢
  rw [loaded, wal, List.filter_filter]
  exact List.filter_congr fun e _ => Bool.and_self _

variable {b : Nat} {v : BlockData g.blockSize} {progress : OpenProgress}

/-- Files that replay alike and have the same data open alike. -/
theorem Holds.congr (h : d.Holds g b v) (loaded : d'.loaded = d.loaded)
    (wal : d'.walEntries = d.walEntries) (active : d'.active = d.active)
    (flushing : d'.flushing = d.flushing) : d'.Holds g b v := by
  refine ⟨(congrFun (openStates_congr loaded wal) b).trans h.1, ?_⟩
  rw [recoveredActive_eq, preRotation_congr loaded wal, active, flushing, ← recoveredActive_eq]
  exact h.2

theorem opening_loaded (logKept : Bool) (progress : OpenProgress) :
    (d.opening g logKept progress).loaded = d.loaded := by
  cases progress <;> rfl

theorem opening_walEntries (progress : OpenProgress) :
    (d.opening g true progress).walEntries = d.walEntries := by
  cases progress with
  | start => rfl
  | log | copying | complete => exact walEntries_rewritten rfl rfl

theorem opening_cur (progress : OpenProgress) (b : Nat) :
    ((d.opening g true progress).recoveredActive g).cur b = (d.recoveredActive g).cur b := by
  have copies : (d.opening g true progress).preRotation g = d.preRotation g :=
    preRotation_congr (opening_loaded true progress) (opening_walEntries progress)
  cases progress with
  | start => rfl
  | log | complete =>
    rw [recoveredActive_eq, copies]
    exact congrArg (DataFile.cur · b) (recoveredActive_eq d).symm
  | copying j =>
    rw [recoveredActive_eq, copies, recoveredActive_eq d, copyFrom_cur, copyFrom_cur]
    dsimp only [opening]
    cases file : d.flushing with
    | none => rfl
    | some f =>
      dsimp only
      by_cases listed : b ∈ d.preRotation g
      · rw [if_pos listed, if_pos listed]
      · rw [if_neg listed, if_neg listed, copyFrom_cur]
        exact if_neg fun taken => listed (List.mem_of_mem_take taken)

/-- An opening that keeps the log keeps what the files hold. -/
theorem Holds.opening (h : d.Holds g b v) (progress : OpenProgress) :
    (d.opening g true progress).Holds g b v := by
  refine ⟨?_, (opening_cur progress b).trans h.2⟩
  rw [openStates_congr (opening_loaded true progress) (opening_walEntries progress)]
  exact h.1

theorem inRange_of_dirty (dirty : d.openStates g b = .dirty) : g.InRange b := by
  refine lt_numBlocks.mp ?_
  by_contra outside
  unfold openStates replayed at dirty
  rw [if_neg outside] at dirty
  cases dirty

theorem openSequence_ge {e : WalEntry} (listed : e ∈ d.walEntries) :
    e.sequence ≤ d.openSequence :=
  (Wal.foldl_max_le d.walEntries d.loaded.maxSequence).2 e listed

/-- Once the states are saved the log is not needed. -/
theorem Holds.saved (h : d.Holds g b v) (logKept : Bool) :
    (saveOpened g d (d.opening g logKept .complete)).Holds g b v := by
  have entries : (saveOpened g d (d.opening g logKept .complete)).walEntries = [] := by
    unfold walEntries
    refine List.filter_eq_nil_iff.mpr fun e listed => ?_
    have start : walMinSeq (saveOpened g d (d.opening g logKept .complete)).loaded =
        d.openSequence := if_neg fun h => absurd h.1 (Nat.lt_irrefl 0)
    rw [start, decide_eq_true_eq, not_lt]
    cases logKept with
    | false => cases listed
    | true => exact openSequence_ge listed
  have inside := lt_numBlocks.mpr (inRange_of_dirty h.1)
  refine ⟨?_, ?_⟩
  · unfold openStates replayed
    rw [entries, if_pos inside]
    have kept : applyEntries (numBlocks g)
        (saveOpened g d (d.opening g logKept .complete)).loaded.states [] b = .dirty := h.1
    rw [kept]
  · exact h.2

/-- The block is saved with local data, or has a log entry that is replayed. -/
def Records (d : Disk g.blockSize) (b : Nat) : Prop :=
  (d.loaded.states b).hasLocalData = true ∨ ∃ e ∈ d.walEntries, e.blockIndex = b

theorem replayed_local_iff (d : Disk g.blockSize) (range : g.InRange b) :
    (d.replayed g b).hasLocalData = true ↔ d.Records b := by
  rw [replayed_eq d range]
  unfold Records
  split
  · rename_i logged
    exact ⟨fun _ => .inr logged, fun _ => rfl⟩
  · rename_i unlogged
    exact ⟨.inl, fun h => h.resolve_right unlogged⟩

theorem openStates_dirty_iff (d : Disk g.blockSize) (range : g.InRange b) :
    d.openStates g b = .dirty ↔ d.Records b := by
  rw [← replayed_local_iff d range]
  unfold openStates
  cases d.replayed g b with
  | dirty | syncing => exact ⟨fun _ => rfl, fun _ => rfl⟩
  | clean | notPresent => exact ⟨nofun, nofun⟩

/-! ### An opening that loses the log -/

def withoutLog (d : Disk g.blockSize) : Disk g.blockSize := { d with wal := [] }

/-- The saved states name every block the files hold. A failed opening has to find its bytes in
    the same file too; a complete one has already moved them to the active file. -/
def HeldWithoutLog (g : Geometry) (d : Disk g.blockSize) (progress : OpenProgress) : Prop :=
  ∀ b, d.openStates g b = .dirty → d.withoutLog.openStates g b = .dirty ∧
    (progress = .complete ∨
      (d.withoutLog.recoveredActive g).cur b = (d.recoveredActive g).cur b)

theorem opening_lost_walEntries (started : progress ≠ .start) :
    (d.opening g false progress).walEntries = d.withoutLog.walEntries := by
  cases progress with
  | start => exact absurd rfl started
  | log | copying | complete => rfl

/-- A block the saved states place after the rotation is placed there with the log too. -/
theorem postRotation_of_withoutLog (range : g.InRange b)
    (after : d.withoutLog.postRotation g b = true) : d.postRotation g b = true := by
  unfold postRotation at after ⊢
  rw [replayed_eq d range]
  rw [replayed_eq d.withoutLog range] at after
  have none_logged : ¬∃ e ∈ d.withoutLog.walEntries, e.blockIndex = b := nofun
  rw [if_neg none_logged] at after
  split
  · rename_i logged
    obtain ⟨e, listed, at_b⟩ := logged
    exact Bool.or_eq_true_iff.mpr (.inr (List.any_eq_true.mpr ⟨e, listed, decide_eq_true at_b⟩))
  · exact Bool.or_eq_true_iff.mpr (.inl ((Bool.or_eq_true_iff.mp after).resolve_right nofun))

theorem opening_lost_cur (started : progress ≠ .start) (failed : progress ≠ .complete)
    (range : g.InRange b) (dirty : d.withoutLog.openStates g b = .dirty) :
    ((d.opening g false progress).recoveredActive g).cur b =
      (d.withoutLog.recoveredActive g).cur b := by
  cases progress with
  | start => exact absurd rfl started
  | complete => exact absurd rfl failed
  | log => rfl
  | copying j =>
    have copies : (d.opening g false (.copying j)).preRotation g = d.withoutLog.preRotation g :=
      preRotation_congr rfl rfl
    rw [recoveredActive_eq, copies, recoveredActive_eq d.withoutLog, copyFrom_cur, copyFrom_cur]
    dsimp only [opening, withoutLog]
    cases file : d.flushing with
    | none => rfl
    | some f =>
      dsimp only
      by_cases listed : b ∈ d.withoutLog.preRotation g
      · exact (if_pos listed).trans (if_pos listed).symm
      refine (if_neg listed).trans (Eq.trans ?_ (if_neg listed).symm)
      -- not copied without the log means written after the rotation, so not copied before either
      have present : (d.withoutLog.replayed g b).hasLocalData = true := by
        rw [← openStates_present, dirty]
        rfl
      have after : d.withoutLog.postRotation g b = true := by
        by_contra before
        refine listed (List.mem_filter.mpr ⟨List.mem_range.mpr (lt_numBlocks.mpr range), ?_⟩)
        rw [present, Bool.eq_false_of_not_eq_true before]
        rfl
      rw [copyFrom_cur]
      refine if_neg fun taken => ?_
      have copied := (List.mem_filter.mp (List.mem_of_mem_take taken)).2
      rw [postRotation_of_withoutLog range after, Bool.not_true, Bool.and_false] at copied
      cases copied

theorem holds_opening_lost_iff (started : progress ≠ .start) :
    (∀ b v, d.Holds g b v → (d.opening g false progress).Holds g b v) ↔
      d.HeldWithoutLog g progress := by
  have states : (d.opening g false progress).openStates g = d.withoutLog.openStates g :=
    openStates_congr (opening_loaded false progress) (opening_lost_walEntries started)
  constructor
  · intro kept b held
    obtain ⟨dirty, bytes⟩ := kept b _ ⟨held, rfl⟩
    rw [states] at dirty
    refine ⟨dirty, or_iff_not_imp_left.mpr fun failed => ?_⟩
    rw [← bytes, opening_lost_cur started failed (inRange_of_dirty held) dirty]
  · rintro kept b v ⟨held, bytes⟩
    obtain ⟨dirty, found⟩ := kept b held
    refine ⟨by rw [states]; exact dirty, ?_⟩
    by_cases complete : progress = .complete
    · cases complete
      exact bytes
    · rw [opening_lost_cur started complete (inRange_of_dirty held) dirty,
        found.resolve_left complete, bytes]

end

/-! ### Openings one after another -/

/-- What a process does with the files before the next one opens them. -/
inductive Attempt where
  /-- It dies in the opening or fails there, with the log kept. -/
  | failed (progress : OpenProgress)
  /-- It saves the states. The log may be lost by then. -/
  | saved (logKept : Bool)
deriving DecidableEq

def Attempt.files (g : Geometry) (d : Disk g.blockSize) : Attempt → Disk g.blockSize
  | .failed progress => d.opening g true progress
  | .saved logKept => saveOpened g d (d.opening g logKept .complete)

theorem Holds.attempts {d : Disk g.blockSize} {b : Nat} {v : BlockData g.blockSize}
    (h : d.Holds g b v) (as : List Attempt) : (as.foldl (Attempt.files g) d).Holds g b v := by
  induction as generalizing d with
  | nil => exact h
  | cons a rest ih =>
    cases a with
    | failed progress => exact ih (h.opening progress)
    | saved logKept => exact ih (h.saved logKept)

theorem openStates_new (b : Nat) : (Disk.new : Disk g.blockSize).openStates g b = .notPresent := by
  have blank : (Disk.new : Disk g.blockSize).replayed g b = .notPresent := ite_self _
  unfold openStates
  rw [blank]

/-- Nothing is found in an empty directory. -/
theorem not_holds_new {b : Nat} {v : BlockData g.blockSize} :
    ¬(Disk.new : Disk g.blockSize).Holds g b v := by
  rintro ⟨dirty, -⟩
  rw [openStates_new] at dirty
  cases dirty

end Disk

/-- **Recovery can be cut short any number of times.** After every run and a crash, with the
    blocks placed, an opening that follows any attempts has every block whose last acknowledged
    content S3 does not have, DIRTY and with that content. -/
theorem interrupted_recovery_recovers {Hash PackId : Type} [DecidableEq Hash] [DecidableEq PackId]
    {C : Codec (BlockData g.blockSize) Hash PackId} (d : Disk g.blockSize) (v : Volume C)
    (s : Cache g C) (run : Reach Act.step Act.Recoverable (openCache d v.store v.manifest) s)
    (placed : s.Placed) (as : List Disk.Attempt) (b : Nat) (range : g.InRange b)
    (unsaved : s.acked b ≠ s.content s.durable b) :
    let again := openCache (as.foldl (Disk.Attempt.files g) s.crash) s.store s.durable
    again.states b = .dirty ∧ again.active.cur b = s.acked b := by
  have inv : CrashInv s := run.invariant (openCache_crashInv d v)
    fun _ _ _ held ok taken => step_crashInv held ok taken
  have holds : s.crash.Holds g b (s.acked b) :=
    (inv.recovers_block range unsaved).mpr (placed b range unsaved)
  exact holds.attempts as

/-- An opening fails before it copies the block from the flushing file, one after that, and a third
    one saves the states and loses the log. -/
theorem rotated_block_recovered :
    ∃ s : Cache oneBlockDevice (.plain 16), Reach Act.step Act.Recoverable newCache s ∧
      s.flushingPath.isSome ∧ s.acked 0 ≠ s.content s.durable 0 ∧
      let again := openCache ([.failed (.copying 0), .failed (.copying 1), .saved false].foldl
        (Disk.Attempt.files oneBlockDevice) s.crash) s.store s.durable
      again.states 0 = .dirty ∧ again.active.cur 0 = s.acked 0 := by
  obtain ⟨s, reached, flushing, unsaved, placed⟩ := rotated_placed
  exact ⟨s, reached, flushing, unsaved,
    interrupted_recovery_recovers .new .new s reached placed _ 0 (by decide) unsaved⟩

end GlideFS.WriteCache
