import GlideFS.WriteCache.DataInv

/-! # What the metadata file and the log record

Every block with local data is saved as such in the metadata file or has an entry
in the log that replay reads. A checkpoint keeps this when it truncates the log,
because what it copied covers all entries up to its sequence number, and a block
that gets local data later has an entry above it.

Promotion is the exception: it gives local data to a NOT_PRESENT block and appends
no entry.
-/

namespace GlideFS.WriteCache

open Block Lib Cache

variable {Hash PackId : Type} [DecidableEq Hash] [DecidableEq PackId] {g : Geometry}
  {C : Codec (BlockData g.blockSize) Hash PackId} {s t : Cache g C}

namespace Cache

def loaded (s : Cache g C) : Metadata := loadMetadata s.metadata

def Present (s : Cache g C) (b : Nat) : Prop := (s.states b).hasLocalData = true

/-- The block has a log entry above `n`. -/
def LoggedAfter (s : Cache g C) (n b : Nat) : Prop :=
  ∃ e ∈ s.wal, e.blockIndex = b ∧ n < e.sequence

/-- The block is in the saved states, or in the log above `n`. -/
def Covered (s : Cache g C) (saved : StateMap) (n b : Nat) : Prop :=
  (saved b).hasLocalData = true ∨ s.LoggedAfter n b

def Recorded (s : Cache g C) (b : Nat) : Prop :=
  s.Covered s.loaded.states (walMinSeq s.loaded) b

/-- What a checkpoint has copied, with the entries above its number. -/
def StageCovers (s : Cache g C) (coveredSeq : Nat) : CkptStage → Prop
  | .copying next copy => ∀ b, g.InRange b → b < next → s.Present b → s.Covered copy coveredSeq b
  | .sealed saved => saved.maxSequence = coveredSeq ∧
      ∀ b, g.InRange b → s.Present b → s.Covered saved.states coveredSeq b
  | .published => s.loaded.maxSequence = coveredSeq ∧
      ∀ b, g.InRange b → s.Present b → s.Covered s.loaded.states coveredSeq b

end Cache

structure LogInv (s : Cache g C) : Prop where
  wal : ∀ e ∈ s.wal, e.sequence ≤ s.sequence
  saved : s.loaded.maxSequence ≤ s.sequence
  recorded : ∀ b, g.InRange b → s.Present b → s.Recorded b
  covered : ∀ run, s.ckpt = some run → run.coveredSeq ≤ s.sequence
  ckpt : ∀ run, s.ckpt = some run → s.StageCovers run.coveredSeq run.stage

/-- A checkpoint that holds the log sees no new number. -/
def Exclusive (s : Cache g C) : Prop :=
  ∀ run, s.ckpt = some run → run.mode = .exclusive → s.sequence = run.coveredSeq

namespace Cache

theorem Covered.weaken {saved : StateMap} {n m b : Nat} (h : s.Covered saved n b) (le : m ≤ n) :
    s.Covered saved m b := by
  cases h with
  | inl here => exact Or.inl here
  | inr logged =>
    obtain ⟨e, listed, at_b, above⟩ := logged
    exact Or.inr ⟨e, listed, at_b, lt_of_le_of_lt le above⟩

theorem Covered.frame {saved : StateMap} {n b : Nat} (h : s.Covered saved n b)
    (wal : ∀ e ∈ s.wal, e ∈ t.wal) : t.Covered saved n b := by
  cases h with
  | inl here => exact Or.inl here
  | inr logged =>
    obtain ⟨e, listed, rest⟩ := logged
    exact Or.inr ⟨e, wal e listed, rest⟩

theorem StageCovers.frame {n : Nat} {stage : CkptStage} (h : s.StageCovers n stage)
    (wal : ∀ e ∈ s.wal, e ∈ t.wal) (metadata : t.metadata = s.metadata)
    (present : ∀ b, g.InRange b → t.Present b → s.Present b ∨ t.LoggedAfter n b) :
    t.StageCovers n stage := by
  have same : t.loaded = s.loaded := congrArg loadMetadata metadata
  have covered {saved : StateMap} {b : Nat} (range : g.InRange b) (now : t.Present b)
      (before : s.Present b → s.Covered saved n b) : t.Covered saved n b := by
    cases present b range now with
    | inl was => exact (before was).frame wal
    | inr logged => exact Or.inr logged
  cases stage with
  | copying next copy =>
    exact fun b range below now => covered range now (h b range below)
  | sealed saved => exact ⟨h.1, fun b range now => covered range now (h.2 b range)⟩
  | published =>
    unfold StageCovers at h ⊢
    rw [same]
    exact ⟨h.1, fun b range now => covered range now (h.2 b range)⟩

end Cache

/-- A step that leaves log and metadata alone and gives no block local data. -/
theorem LogInv.frame (h : LogInv s) (log : t.log = s.log) (metadata : t.metadata = s.metadata)
    (ckpt : ∀ run, t.ckpt = some run → ∃ awaited, s.ckpt = some { run with awaited })
    (present : ∀ b, g.InRange b → t.Present b → s.Present b) : LogInv t := by
  obtain ⟨wal, sequence⟩ := Prod.mk.inj log
  have same : t.loaded = s.loaded := congrArg loadMetadata metadata
  have listed : ∀ e ∈ s.wal, e ∈ t.wal := fun e mem => wal ▸ mem
  refine ⟨?_, ?_, fun b range now => ?_, fun run at_run => ?_, fun run at_run => ?_⟩
  · rw [wal, sequence]
    exact h.wal
  · rw [same, sequence]
    exact h.saved
  · have before := h.recorded b range (present b range now)
    unfold Recorded at before ⊢
    rw [same]
    exact before.frame listed
  · obtain ⟨awaited, before⟩ := ckpt run at_run
    rw [sequence]
    exact h.covered { run with awaited } before
  · obtain ⟨awaited, before⟩ := ckpt run at_run
    exact (h.ckpt _ before).frame listed metadata fun b range now => Or.inl (present b range now)

/-! ## Guest writes -/

/-- The write neither promotes a NOT_PRESENT block nor runs out of sequence numbers. -/
structure Cache.Loggable (s : Cache g C) (bs : List Nat) : Prop where
  unpromoted : ∀ b ∈ bs, s.states b = .notPresent → ∀ f, s.flushingFile = some f → f.cur b = 0
  numbers : s.sequence + bs.length ≤ u64Max

section PutBlock

variable (patch : Patch g)

variable {bs : List Nat}

/-- A write appends an entry unless the block had local data. -/
theorem putBlock_log {b : Nat} (ok : s.Loggable (b :: bs)) :
    ((putBlock patch s b).wal = s.wal ∧ (putBlock patch s b).sequence = s.sequence ∧ s.Present b) ∨
      ((putBlock patch s b).wal = s.wal ++ [⟨b, s.sequence + 1⟩] ∧
        (putBlock patch s b).sequence = s.sequence + 1) := by
  have below : s.sequence ≠ u64Max := by
    have room := ok.numbers
    simp only [List.length_cons] at room
    omega
  have next : nextSequence s.sequence = s.sequence + 1 := if_neg below
  cases promoteBlock_cases s b with
  | inl unmoved =>
    have log : (putBlock patch s b).wal = _ ∧ (putBlock patch s b).sequence = _ :=
      walAppendAndMarkDirty_log ((s.promoteBlock b).writeActive b _) b
    rw [unmoved.1] at log
    by_cases dirty : s.states b = .dirty
    · rw [if_pos (show (s.writeActive b _).states b = .dirty from dirty)] at log
      refine Or.inl ⟨log.1, ?_, ?_⟩
      · exact log.2.trans (if_pos dirty)
      · unfold Present
        rw [dirty]
        rfl
    · rw [if_neg (show ¬(s.writeActive b _).states b = .dirty from dirty)] at log
      refine Or.inr ⟨?_, ?_⟩
      · rw [log.1, ← next]
        rfl
      · rw [log.2, ← next]
        exact if_neg dirty
  | inr promoted =>
    obtain ⟨f, handle, state, moved⟩ := promoted
    cases state with
    | inl syncing =>
      have log : (putBlock patch s b).wal = _ ∧ (putBlock patch s b).sequence = _ :=
        walAppendAndMarkDirty_log ((s.promoteBlock b).writeActive b _) b
      have dirty : (s.promoteBlock b).states b = .dirty := by
        rw [moved, transitionToDirty_states, Function.update_self]
      have same := transitionToDirty_log (s.writeActive b (f.cur b)) b
      rw [← moved] at same
      refine Or.inl ⟨?_, ?_, ?_⟩
      · exact (log.1.trans (if_pos dirty)).trans same.1
      · exact (log.2.trans (if_pos dirty)).trans same.2
      · unfold Present
        rw [syncing]
        rfl
    | inr absent =>
      exact absurd (ok.unpromoted b List.mem_cons_self absent.1 f handle) absent.2

theorem putBlock_present {b b' : Nat} (now : (putBlock patch s b).Present b') :
    b' = b ∨ s.Present b' := by
  unfold Present at now ⊢
  rw [putBlock_states, Function.update_apply] at now
  split at now
  · rename_i same
    exact Or.inl same
  · exact Or.inr now

theorem putBlock_logInv {b : Nat} (h : LogInv s) (ok : s.Loggable (b :: bs)) :
    LogInv (putBlock patch s b) := by
  have l := local_putBlock patch s b
  cases putBlock_log patch ok with
  | inl kept =>
    obtain ⟨wal, sequence, was⟩ := kept
    refine h.frame (Prod.ext wal sequence) l.metadata (fun run at_run => ?_) fun b' _ now => ?_
    · exact ⟨run.awaited, l.ckpt ▸ at_run⟩
    · cases putBlock_present patch now with
      | inl same => exact same ▸ was
      | inr other => exact other
  | inr appended =>
    obtain ⟨wal, sequence⟩ := appended
    have same : (putBlock patch s b).loaded = s.loaded := congrArg loadMetadata l.metadata
    have listed : ∀ e ∈ s.wal, e ∈ (putBlock patch s b).wal := fun e mem => by
      rw [wal]
      exact List.mem_append_left _ mem
    have logged {n : Nat} (le : n ≤ s.sequence) : (putBlock patch s b).LoggedAfter n b := by
      refine ⟨⟨b, s.sequence + 1⟩, ?_, rfl, Nat.lt_succ_of_le le⟩
      rw [wal]
      exact List.mem_append_right _ List.mem_cons_self
    refine ⟨fun e mem => ?_, ?_, fun b' range now => ?_, fun run at_run => ?_,
      fun run at_run => ?_⟩
    · rw [wal] at mem
      rw [sequence]
      cases List.mem_append.mp mem with
      | inl old => exact Nat.le_succ_of_le (h.wal e old)
      | inr new =>
        cases List.mem_singleton.mp new
        exact le_rfl
    · rw [same, sequence]
      exact Nat.le_succ_of_le h.saved
    · unfold Recorded
      rw [same]
      cases putBlock_present patch now with
      | inl this =>
        subst this
        exact Or.inr (logged ((walMinSeq_le _).trans h.saved))
      | inr other => exact (h.recorded b' range other).frame listed
    · rw [sequence]
      exact Nat.le_succ_of_le (h.covered run (l.ckpt ▸ at_run))
    · have before := l.ckpt ▸ at_run
      refine (h.ckpt run before).frame listed l.metadata fun b' _ now => ?_
      cases putBlock_present patch now with
      | inl this =>
        subst this
        exact Or.inr (logged (h.covered run before))
      | inr other => exact Or.inl other

theorem Cache.Loggable.tail {b : Nat} (ok : s.Loggable (b :: bs)) :
    (putBlock patch s b).Loggable bs where
  unpromoted b' mem absent f handle := by
    rw [putBlock_states, Function.update_apply] at absent
    split at absent
    · cases absent
    · rw [(local_putBlock patch s b).flushingFile] at handle
      exact ok.unpromoted b' (List.mem_cons_of_mem b mem) absent f handle
  numbers := by
    have room := ok.numbers
    simp only [List.length_cons] at room
    cases putBlock_log patch ok with
    | inl kept => omega
    | inr appended => omega

/-- A write takes one number for each entry it appends. -/
theorem putBlocks_logInv (h : LogInv s) (ok : s.Loggable bs) :
    LogInv (bs.foldl (putBlock patch) s) ∧
      (bs.foldl (putBlock patch) s).sequence + s.wal.length =
        s.sequence + (bs.foldl (putBlock patch) s).wal.length := by
  induction bs generalizing s with
  | nil => exact ⟨h, rfl⟩
  | cons b rest ih =>
    obtain ⟨inv, numbers⟩ := ih (putBlock_logInv patch h ok) (ok.tail patch)
    refine ⟨inv, ?_⟩
    rw [List.foldl_cons]
    cases putBlock_log patch ok with
    | inl kept =>
      rw [kept.1, kept.2.1] at numbers
      exact numbers
    | inr appended =>
      rw [appended.1, appended.2, List.length_append, List.length_singleton] at numbers
      omega

end PutBlock

/-- The writes of the runs considered. -/
def Act.Logged (s : Cache g C) : Act → Prop
  | .write offset data => data.length ≠ 0 → s.Loggable (blocksIn g offset data.length)
  | .zeroRange offset len => len ≠ 0 → s.Loggable (blocksIn g offset len)
  | _ => True

theorem putRange_logInv {patch : Patch g} {offset len : Nat} (h : LogInv s) (ex : Exclusive s)
    (ok : len ≠ 0 → s.Loggable (blocksIn g offset len))
    (done : s.putRange patch offset len = some t) : LogInv t ∧ Exclusive t := by
  cases putRange_some done with
  | inl same =>
    rw [same.2]
    exact ⟨h, ex⟩
  | inr put =>
    obtain ⟨nonempty, rfl, held⟩ := put
    have l := local_putBlocks s patch offset len
    obtain ⟨inv, numbers⟩ := putBlocks_logInv patch h (ok nonempty)
    refine ⟨inv, fun run at_run exclusive => ?_⟩
    have before : s.ckpt = some run := l.ckpt ▸ at_run
    -- the checkpoint holds the log, so the write has appended nothing
    have holds : s.walHeld = true := by
      unfold walHeld
      rw [before]
      exact decide_eq_true exclusive
    have same := held holds
    rw [← ex run before exclusive]
    unfold putBlocks at same ⊢
    omega

/-! ## Flushes and checkpoints -/

namespace Cache

variable {b : Nat}

theorem toDirty_present {b' : Nat} (now : (s.transitionToDirty b).Present b') :
    b' = b ∨ s.Present b' := by
  unfold Present at now ⊢
  rw [transitionToDirty_states, Function.update_apply] at now
  split at now
  · rename_i same
    exact Or.inl same
  · exact Or.inr now

theorem foldl_present {f : Cache g C → Nat → Cache g C}
    (each : ∀ s b b', (f s b).Present b' → b' = b ∨ s.Present b') {bs : List Nat}
    (now : (bs.foldl f s).Present b) : b ∈ bs ∨ s.Present b := by
  induction bs generalizing s with
  | nil => exact Or.inr now
  | cons first rest ih =>
    cases ih now with
    | inl later => exact Or.inl (List.mem_cons_of_mem first later)
    | inr before =>
      cases each s first b before with
      | inl here => exact Or.inl (here ▸ List.mem_cons_self)
      | inr was => exact Or.inr was

theorem unskip_present {f : DataFile g.blockSize} {b' : Nat}
    (now : (unskipBlock f [] s b).Present b') : b' = b ∨ s.Present b' := by
  unfold unskipBlock at now
  split at now
  · rw [if_neg List.not_mem_nil] at now
    exact toDirty_present (s := s.writeActive b (f.cur b)) now
  · exact toDirty_present now

theorem Claims.present {bs : List Nat} (h : s.Claims bs) (mem : b ∈ bs) : s.Present b := by
  unfold Present
  cases (h b mem).2 with
  | inl dirty => rw [dirty]; rfl
  | inr syncing => rw [syncing]; rfl

theorem claimDirty_present (now : s.claimDirty.Present b) : s.Present b := by
  unfold Present at now ⊢
  rw [claimDirty_states] at now
  split at now
  · rename_i dirty
    rw [dirty.2]
    rfl
  · exact now

theorem evictBlocks_present {bs : List Nat} (now : (s.evictBlocks bs).Present b) : s.Present b := by
  unfold Present at now ⊢
  rw [evictBlocks_states] at now
  split at now
  · cases now
  · exact now

theorem copyBack_states (s : Cache g C) (claim : Claim g) (uncopied : List Nat) :
    (s.copyBack claim uncopied).states = s.states := by
  unfold copyBack
  split
  · rfl
  · exact (copyBack_fold _ s _).1

end Cache

/-- The next block of a checkpoint is copied. -/
theorem ckptCopy_logInv (h : LogInv s) {mode : CkptMode} {coveredSeq next : Nat}
    {copy : StateMap} {awaited : Bool}
    (at_run : s.ckpt = some ⟨mode, coveredSeq, .copying next copy, awaited⟩) :
    LogInv (s.setCkpt ⟨mode, coveredSeq, .copying next copy, awaited⟩
      (.copying (next + 1) (Function.update copy next (s.states next)))) := by
  have covers := h.ckpt _ at_run
  have covered := h.covered _ at_run
  refine ⟨h.wal, h.saved, h.recorded, fun run found => ?_, fun run found => ?_⟩
  · cases found
    exact covered
  · cases found
    intro b range below present
    by_cases here : b = next
    · subst here
      refine Or.inl ?_
      rw [Function.update_self]
      exact present
    · have before := covers b range (by omega) present
      unfold Covered at before ⊢
      rw [Function.update_of_ne here]
      exact before

/-- The metadata file now has what the checkpoint copied. -/
theorem ckptPublish_logInv (h : LogInv s) {mode : CkptMode} {coveredSeq : Nat} {saved : Metadata}
    {awaited : Bool} (at_run : s.ckpt = some ⟨mode, coveredSeq, .sealed saved, awaited⟩) :
    LogInv ((s.setMetadata saved).setCkpt ⟨mode, coveredSeq, .sealed saved, awaited⟩
      .published) := by
  obtain ⟨number, covers⟩ := h.ckpt _ at_run
  have covered := h.covered _ at_run
  have below : saved.maxSequence ≤ s.sequence := number.le.trans covered
  refine ⟨h.wal, below, fun b range present => ?_, fun run found => ?_, fun run found => ?_⟩
  · exact (covers b range present).weaken ((walMinSeq_le saved).trans number.le)
  · cases found
    exact covered
  · cases found
    exact ⟨number, covers⟩

/-- The log goes when the metadata file covers all of it. -/
theorem truncate_logInv (h : LogInv s) {run : CkptRun} {ok : Bool} (at_run : s.ckpt = some run)
    (stage : run.stage = .published) (covered : s.sequence = run.coveredSeq) :
    LogInv (s.truncateWal.endCkpt run ok) := by
  have covers := h.ckpt run at_run
  rw [stage] at covers
  refine ⟨nofun, h.saved, fun b range present => ?_,
    nofun, nofun⟩
  cases covers.2 b range present with
  | inl saved => exact Or.inl saved
  | inr logged =>
    obtain ⟨e, listed, _, above⟩ := logged
    exact absurd (h.wal e listed) (by omega)

/-- A checkpoint starts at the current number. -/
theorem newCkpt_logInv (h : LogInv s) (awaited : Bool) : LogInv (s.setNewCkpt awaited) := by
  refine ⟨h.wal, h.saved, h.recorded, fun run found => ?_, fun run found => ?_⟩
  · cases found
    exact le_rfl
  · cases found
    exact fun b range below => absurd below (Nat.not_lt_zero b)

structure RecordInv (s : Cache g C) : Prop where
  log : LogInv s
  exclusive : Exclusive s

/-- A flush step leaves log, metadata and checkpoint alone. -/
theorem RecordInv.frame (h : RecordInv s) (log : t.log = s.log) (metadata : t.metadata = s.metadata)
    (ckpt : ∀ run, t.ckpt = some run → ∃ awaited, s.ckpt = some { run with awaited })
    (present : ∀ b, g.InRange b → t.Present b → s.Present b) : RecordInv t := by
  refine ⟨h.log.frame log metadata ckpt present, fun run found exclusive => ?_⟩
  obtain ⟨awaited, before⟩ := ckpt run found
  rw [(Prod.mk.inj log).2]
  exact h.exclusive { run with awaited } before exclusive

theorem RecordInv.same (h : RecordInv s) (log : t.log = s.log) (metadata : t.metadata = s.metadata)
    (ckpt : t.ckpt = s.ckpt) (present : ∀ b, g.InRange b → t.Present b → s.Present b) :
    RecordInv t :=
  h.frame log metadata (fun run found => ⟨run.awaited, ckpt ▸ found⟩) present

theorem RecordInv.newCkpt (h : RecordInv s) (awaited : Bool) : RecordInv (s.setNewCkpt awaited) :=
  ⟨newCkpt_logInv h.log awaited, fun run found _ => by cases found; rfl⟩

/-- Dropping a flush only changes who waits for the checkpoint. -/
theorem RecordInv.dropFlush (h : RecordInv s) : RecordInv s.dropFlush := by
  refine h.frame rfl rfl (fun run found => ?_) fun b _ now => now
  obtain ⟨before, at_run, rfl⟩ := Option.map_eq_some_iff.mp found
  exact ⟨before.awaited, at_run⟩

/-- What a step other than a write makes of log, metadata and checkpoint. -/
inductive LogStep (s : Cache g C) : Cache g C → Prop
  | same : LogStep s s
  | dropFlush : LogStep s s.dropFlush
  | newCkpt (awaited : Bool) : LogStep s (s.setNewCkpt awaited)
  | copy {mode coveredSeq next copy awaited}
      (at_run : s.ckpt = some ⟨mode, coveredSeq, .copying next copy, awaited⟩) :
      LogStep s (s.setCkpt ⟨mode, coveredSeq, .copying next copy, awaited⟩
        (.copying (next + 1) (Function.update copy next (s.states next))))
  | sealed {mode coveredSeq copy awaited}
      (at_run : s.ckpt = some ⟨mode, coveredSeq, .copying (numBlocks g) copy, awaited⟩) :
      LogStep s (s.setCkpt ⟨mode, coveredSeq, .copying (numBlocks g) copy, awaited⟩
        (.sealed ⟨copy, coveredSeq, s.rotationSeq⟩))
  | publish {mode coveredSeq saved awaited}
      (at_run : s.ckpt = some ⟨mode, coveredSeq, .sealed saved, awaited⟩) :
      LogStep s ((s.setMetadata saved).setCkpt ⟨mode, coveredSeq, .sealed saved, awaited⟩ .published)
  | truncate {mode coveredSeq awaited}
      (at_run : s.ckpt = some ⟨mode, coveredSeq, .published, awaited⟩)
      (covered : mode = .exclusive ∨ s.sequence = coveredSeq) :
      LogStep s (s.truncateWal.endCkpt ⟨mode, coveredSeq, .published, awaited⟩ true)
  | ended {run : CkptRun} (at_run : s.ckpt = some run) (ok : Bool) : LogStep s (s.endCkpt run ok)

/-- The same log, metadata and checkpoint, and no more local data. -/
structure SameLog (s t : Cache g C) : Prop where
  log : t.log = s.log
  synced : t.walSynced = s.walSynced
  metadata : t.metadata = s.metadata
  ckpt : t.ckpt = s.ckpt
  present : ∀ b, g.InRange b → t.Present b → s.Present b

theorem SameLog.of_rfl (log : t.log = s.log) (synced : t.walSynced = s.walSynced)
    (metadata : t.metadata = s.metadata) (ckpt : t.ckpt = s.ckpt) (states : t.states = s.states) :
    SameLog s t :=
  ⟨log, synced, metadata, ckpt, fun b _ now => by unfold Present at now ⊢; exact states ▸ now⟩

theorem step_log (data : DataInv s) {a : Act} (copies : a.Copies)
    (quiet : a.Internal) (taken : a.step s = some t) : ∃ u, LogStep s u ∧ SameLog u t := by
  cases step_cases taken with
  | write done => exact absurd rfl (quiet.1 _ _)
  | zeroRange done => exact absurd rfl (quiet.2 _ _)
  | ckptStart free => exact ⟨_, .newCkpt false, .of_rfl rfl rfl rfl rfl rfl⟩
  | ckptCopy at_run more => exact ⟨_, .copy at_run, .of_rfl rfl rfl rfl rfl rfl⟩
  | ckptSeal at_run => exact ⟨_, .sealed at_run, .of_rfl rfl rfl rfl rfl rfl⟩
  | ckptPublish at_run => exact ⟨_, .publish at_run, .of_rfl rfl rfl rfl rfl rfl⟩
  | ckptTruncate at_run covered => exact ⟨_, .truncate at_run covered, .of_rfl rfl rfl rfl rfl rfl⟩
  | ckptKeep at_run => exact ⟨_, .ended at_run true, .of_rfl rfl rfl rfl rfl rfl⟩
  | ckptFail at_run => exact ⟨_, .ended at_run false, .of_rfl rfl rfl rfl rfl rfl⟩
  | rotate at_r named =>
    have l := shifts_claimDirty (s.setFlags true s.sequence)
    exact ⟨s, .same, l.log, l.local.walSynced, l.local.metadata, l.local.ckpt,
      fun b _ now => claimDirty_present (s := s.setFlags true s.sequence) now⟩
  | @compute _ _ claim f _ _ skipped _ at_r nonempty handle computed =>
    cases copies
    have l := shifts_unskip f [] s (claim.blocks.filter (· ∈ skipped))
    obtain ⟨_, claims, _⟩ := data.stage _ at_r
    refine ⟨s, .same, l.log, l.local.walSynced, l.local.metadata, l.local.ckpt, fun b _ now => ?_⟩
    cases foldl_present (fun s b b' now => unskip_present now) now with
    | inl mem => exact claims.present (List.mem_of_mem_filter mem)
    | inr was => exact was
  | @evict _ _ _ plans at_r =>
    have l := shifts_evictBlocks s (flushedBlocks plans)
    exact ⟨s, .same, l.log, l.local.walSynced, l.local.metadata, l.local.ckpt,
      fun b _ now => evictBlocks_present now⟩
  | flushCkpt at_r free | syncCkpt at_r free =>
    exact ⟨_, .newCkpt true, .of_rfl rfl rfl rfl rfl rfl⟩
  | @copyBack _ _ claim uncopied at_r =>
    have l := shifts_copyBack s claim uncopied
    exact ⟨s, .same, .of_rfl l.log l.local.walSynced l.local.metadata l.local.ckpt
      (copyBack_states s claim uncopied)⟩
  | @strand _ _ claim recovered at_r =>
    obtain ⟨_, _, syncingIn, _⟩ := data.stage _ at_r
    rw [strand_all claim.inRange syncingIn]
    exact ⟨s, .same, .of_rfl rfl rfl rfl rfl rfl⟩
  | @redirty _ _ recovered at_r =>
    have l := shifts_redirty s recovered
    obtain ⟨_, claims, _⟩ := data.stage _ at_r
    refine ⟨s, .same, l.log, l.local.walSynced, l.local.metadata, l.local.ckpt, fun b _ now => ?_⟩
    cases foldl_present (fun s b b' now => toDirty_present now) now with
    | inl mem => exact claims.present mem
    | inr was => exact was
  | removeEmpty at_r | deleteFile at_r | unlink at_r | syncDelete at_r =>
    refine ⟨s, .same, ?_⟩
    split <;> exact .of_rfl rfl rfl rfl rfl rfl
  | dropDeleting at_r waits | dropPutting at_r waits =>
    refine ⟨s.dropFlush, .dropFlush, ?_⟩
    split <;> exact .of_rfl rfl rfl rfl rfl rfl
  | dropWaiting at_r waits => exact ⟨_, .dropFlush, .of_rfl rfl rfl rfl rfl rfl⟩
  | _ => exact ⟨s, .same, .of_rfl rfl rfl rfl rfl rfl⟩

theorem RecordInv.logStep (h : RecordInv s) (done : LogStep s t) : RecordInv t := by
  cases done with
  | same => exact h
  | dropFlush => exact h.dropFlush
  | newCkpt awaited => exact h.newCkpt awaited
  | copy at_run =>
    refine ⟨ckptCopy_logInv h.log at_run, fun run found => ?_⟩
    have exclusive := h.exclusive _ at_run
    cases found
    exact exclusive
  | sealed at_run =>
    have covers := h.log.ckpt _ at_run
    have covered := h.log.covered _ at_run
    have exclusive := h.exclusive _ at_run
    refine ⟨⟨h.log.wal, h.log.saved, h.log.recorded, fun run found => ?_, fun run found => ?_⟩,
      fun run found => ?_⟩
    · cases found
      exact covered
    · cases found
      exact ⟨rfl, fun b range => covers b range (lt_numBlocks.mpr range)⟩
    · cases found
      exact exclusive
  | publish at_run =>
    refine ⟨ckptPublish_logInv h.log at_run, fun run found => ?_⟩
    have exclusive := h.exclusive _ at_run
    cases found
    exact exclusive
  | truncate at_run covered =>
    refine ⟨truncate_logInv h.log at_run rfl ?_, nofun⟩
    cases covered with
    | inl exclusive => exact h.exclusive _ at_run exclusive
    | inr same => exact same
  | ended at_run ok => exact h.frame rfl rfl nofun fun b _ now => now

theorem step_recordInv (data : DataInv s) (h : RecordInv s) {a : Act} (copies : a.Copies)
    (logged : a.Logged s) (taken : a.step s = some t) : RecordInv t := by
  have other (quiet : a.Internal) : RecordInv t := by
    obtain ⟨u, done, same⟩ := step_log data copies quiet taken
    exact (h.logStep done).same same.log same.metadata same.ckpt same.present
  cases a with
  | write offset data | zeroRange offset len =>
    obtain ⟨log, exclusive⟩ := putRange_logInv h.log h.exclusive logged taken
    exact ⟨log, exclusive⟩
  | _ => exact other ⟨nofun, nofun⟩

end GlideFS.WriteCache
