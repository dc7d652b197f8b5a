import GlideFS.WriteCache.Checkpoint

/-! # Acknowledged writes are recovered

The invariant follows each DIRTY mark that is not `unlogged`: it is in the
metadata file, or the log has an entry with a number above the one the file
covers. A checkpoint keeps this because a block is marked before it is numbered
and the number is read before the states are copied: an entry the new file covers
belongs to a block that was DIRTY when it was copied.
-/

namespace GlideFS.WriteCache.Checkpoint

open Lib Block

variable {crc32 : List UInt8 → UInt32} {cfg : CacheConfig} {s t : State}

/-- The log has an entry for the block that the number does not cover. -/
def InLog (crc32 : List UInt8 → UInt32) (wal : List UInt8) (covered b : Nat) : Prop :=
  ∃ e ∈ Wal.entries crc32 wal, e.blockIndex = b ∧ covered < e.sequence

/-- What is on disk marks the block DIRTY. -/
def Recorded (crc32 : List UInt8 → UInt32) (s : State) (b : Nat) : Prop :=
  (loadMetadata s.metadata).states b = .dirty ∨
    InLog crc32 s.wal (loadMetadata s.metadata).maxSequence b

/-- DIRTY with a mark that is on disk. -/
def Settled (s : State) (b : Nat) : Prop := s.states b = .dirty ∧ s.unlogged b = false

variable {b w : Nat} {x : Writer}

theorem recovered_dirty (inside : b < cfg.numBlocks) :
    recovered crc32 cfg s.metadata s.wal b = .dirty ↔ Recorded crc32 s b := by
  simp only [recovered, applyEntries_eq, Recorded, InLog]
  constructor
  · intro marked
    split at marked
    · rename_i listed
      obtain ⟨_, e, replayed, at_b⟩ := listed
      obtain ⟨read, later⟩ := (Wal.mem_replay crc32).mp replayed
      exact Or.inr ⟨e, read, at_b, later⟩
    · exact Or.inl marked
  · intro h
    split
    · rfl
    · rename_i unlisted
      cases h with
      | inl saved => exact saved
      | inr logged =>
        obtain ⟨e, read, at_b, later⟩ := logged
        exact absurd ⟨inside, e, (Wal.mem_replay crc32).mpr ⟨read, later⟩, at_b⟩ unlisted

/-- An entry of a batch: its block was marked first, and either the metadata file has the mark
    or the number is above what the file covers. -/
structure EntryOk (cfg : CacheConfig) (s : State) (e : WalEntry) : Prop where
  inside : e.blockIndex < cfg.numBlocks
  dirty : s.states e.blockIndex = .dirty
  small : e.sequence ≤ s.sequence
  fits : e.sequence < 2 ^ 64
  above : (loadMetadata s.metadata).states e.blockIndex = .dirty ∨
    (loadMetadata s.metadata).maxSequence < e.sequence

structure WriterOk (cfg : CacheConfig) (s : State) (x : Writer) : Prop where
  inside : ∀ b ∈ x.blocks, b < cfg.numBlocks
  todo : ∀ b ∈ x.todo, b ∈ x.blocks
  marked : ∀ b, x.marked = some b → b ∈ x.blocks ∧ s.states b = .dirty
  found : ∀ b ∈ x.found, s.states b = .dirty
  batch : ∀ e ∈ x.batch, EntryOk cfg s e
  reached : ∀ b ∈ x.blocks,
    b ∈ x.todo ∨ x.marked = some b ∨ b ∈ x.found ∨ ∃ e ∈ x.batch, e.blockIndex = b
  finished : x.appended = true → x.todo = [] ∧ x.marked = none
  logged : x.appended = true → ∀ e ∈ x.batch, s.unlogged e.blockIndex = false

/-- What a copy of the first `next` states, started at number `covered`, has to hold. -/
structure Copies (crc32 : List UInt8 → UInt32) (s : State) (covered next : Nat)
    (copy : StateMap) : Prop where
  small : covered ≤ s.sequence
  pending : ∀ w x, s.writers w = some x → ∀ e ∈ x.batch, e.blockIndex < next →
    copy e.blockIndex = .dirty ∨ covered < e.sequence
  settled : ∀ b < next, Settled s b → copy b = .dirty ∨ InLog crc32 s.wal covered b

/-- Nothing in the log is above the number. -/
def LogBelow (crc32 : List UInt8 → UInt32) (s : State) (covered : Nat) : Prop :=
  ∀ e ∈ Wal.entries crc32 s.wal, e.sequence ≤ covered

def CkptOk (crc32 : List UInt8 → UInt32) (cfg : CacheConfig) (s : State) : Ckpt → Prop
  | .idle => True
  | .saving mode covered next copy => next ≤ cfg.numBlocks ∧ Copies crc32 s covered next copy ∧
      (mode = .exclusive → LogBelow crc32 s covered)
  | .saved mode covered => (loadMetadata s.metadata).maxSequence = covered ∧
      (mode = .exclusive → LogBelow crc32 s covered)

structure Inv (crc32 : List UInt8 → UInt32) (cfg : CacheConfig) (s : State) : Prop where
  log : LogBelow crc32 s s.sequence
  covered : (loadMetadata s.metadata).maxSequence ≤ s.sequence
  writers : ∀ w x, s.writers w = some x → WriterOk cfg s x
  settled : ∀ b < cfg.numBlocks, Settled s b → Recorded crc32 s b
  acknowledged : ∀ b, s.acknowledged b = true → b < cfg.numBlocks ∧ Settled s b
  ckpt : CkptOk crc32 cfg s s.ckpt

/-- The steps of writers and of a checkpoint before it publishes: marks and numbers only grow
    and the metadata file stays. -/
structure Grows (s t : State) : Prop where
  dirty : ∀ b, s.states b = .dirty → t.states b = .dirty
  settled : ∀ b, s.states b = .dirty → s.unlogged b = false → t.unlogged b = false
  sequence : s.sequence ≤ t.sequence
  metadata : t.metadata = s.metadata

theorem EntryOk.grows {e : WalEntry} (h : EntryOk cfg s e) (g : Grows s t) : EntryOk cfg t e where
  inside := h.inside
  dirty := g.dirty _ h.dirty
  small := h.small.trans g.sequence
  fits := h.fits
  above := g.metadata ▸ h.above

theorem WriterOk.grows (h : WriterOk cfg s x) (g : Grows s t) : WriterOk cfg t x where
  inside := h.inside
  todo := h.todo
  marked b at_b := ⟨(h.marked b at_b).1, g.dirty b (h.marked b at_b).2⟩
  found b listed := g.dirty b (h.found b listed)
  batch e listed := (h.batch e listed).grows g
  reached := h.reached
  finished := h.finished
  logged done e listed := g.settled _ (h.batch e listed).dirty (h.logged done e listed)

theorem Settled.grows (h : Settled s b) (g : Grows s t) : Settled t b :=
  ⟨g.dirty b h.1, g.settled b h.1 h.2⟩

/-- The writers of a state in which one writer has changed. -/
theorem writers_set {x : Option Writer} {P : Writer → Prop}
    (others : ∀ w y, s.writers w = some y → P y) (mine : ∀ y, x = some y → P y) :
    ∀ w' y, (s.setWriter w x).writers w' = some y → P y := by
  intro w' y at_w'
  simp only [State.setWriter, Function.update_apply] at at_w'
  split at at_w'
  · exact mine y at_w'
  · exact others w' y at_w'

/-- Steps that leave the log, the metadata file and the checkpoint as they are and settle no
    block. What they add to a batch has a new number. -/
structure Keeps (s t : State) : Prop extends Grows s t where
  wal : t.wal = s.wal
  ckpt : t.ckpt = s.ckpt
  fresh : ∀ b, Settled t b → Settled s b
  batches : ∀ w y, t.writers w = some y → ∀ e ∈ y.batch,
    (∃ w' x, s.writers w' = some x ∧ e ∈ x.batch) ∨ s.sequence < e.sequence

theorem Copies.keeps {covered next : Nat} {copy : StateMap} (h : Copies crc32 s covered next copy)
    (k : Keeps s t) : Copies crc32 t covered next copy where
  small := h.small.trans k.sequence
  pending w y at_w e listed below := by
    cases k.batches w y at_w e listed with
    | inl old =>
      obtain ⟨w', x, at_w', listed'⟩ := old
      exact h.pending w' x at_w' e listed' below
    | inr new => exact Or.inr (lt_of_le_of_lt h.small new)
  settled b below now := by
    rw [k.wal]
    exact h.settled b below (k.fresh b now)

theorem CkptOk.keeps (h : CkptOk crc32 cfg s s.ckpt) (k : Keeps s t) :
    CkptOk crc32 cfg t t.ckpt := by
  rw [k.ckpt]
  cases at_ckpt : s.ckpt with
  | idle => trivial
  | saving mode covered next copy =>
    rw [at_ckpt] at h
    obtain ⟨bounded, copies, below⟩ := h
    refine ⟨bounded, copies.keeps k, fun held => ?_⟩
    unfold LogBelow
    rw [k.wal]
    exact below held
  | saved mode covered =>
    rw [at_ckpt] at h
    obtain ⟨same, below⟩ := h
    refine ⟨k.metadata ▸ same, fun held => ?_⟩
    unfold LogBelow
    rw [k.wal]
    exact below held

theorem Inv.keeps (h : Inv crc32 cfg s) (k : Keeps s t)
    (writers : ∀ w x, t.writers w = some x → WriterOk cfg t x)
    (acknowledged : ∀ b, t.acknowledged b = true → b < cfg.numBlocks ∧ Settled t b) :
    Inv crc32 cfg t where
  log := by
    unfold LogBelow
    rw [k.wal]
    exact fun e read => (h.log e read).trans k.sequence
  covered := by
    rw [k.metadata]
    exact h.covered.trans k.sequence
  writers := writers
  settled b inside now := by
    unfold Recorded
    rw [k.metadata, k.wal]
    exact h.settled b inside (k.fresh b now)
  acknowledged := acknowledged
  ckpt := h.ckpt.keeps k

/-- A writer is replaced by one with the same batch, or leaves. -/
theorem keeps_setWriter {x : Option Writer}
    (batch : ∀ y, x = some y → ∀ e ∈ y.batch, ∃ w' x', s.writers w' = some x' ∧ e ∈ x'.batch) :
    Keeps s (s.setWriter w x) where
  dirty _ marked := marked
  settled _ _ now := now
  sequence := le_rfl
  metadata := rfl
  wal := rfl
  ckpt := rfl
  fresh _ now := now
  batches := writers_set (fun w' y at_w' _ listed => Or.inl ⟨w', y, at_w', listed⟩)
    fun y at_y e listed => Or.inl (batch y at_y e listed)

theorem inv_setWriter (h : Inv crc32 cfg s) {x : Option Writer}
    (batch : ∀ y, x = some y → ∀ e ∈ y.batch, ∃ w' x', s.writers w' = some x' ∧ e ∈ x'.batch)
    (ok : ∀ y, x = some y → WriterOk cfg s y) : Inv crc32 cfg (s.setWriter w x) := by
  have k : Keeps s (s.setWriter w x) := keeps_setWriter batch
  refine h.keeps k (writers_set (fun w' y at_w' => ?_) fun y at_y => ?_) h.acknowledged
  · exact (h.writers w' y at_w').grows k.toGrows
  · exact (ok y at_y).grows k.toGrows

theorem start_inv (h : Inv crc32 cfg s) (w first last : Nat) :
    Inv crc32 cfg (s.setWriter w (some (.new cfg first last))) := by
  refine inv_setWriter h (fun y at_y e listed => ?_) fun y at_y => ?_
  · cases at_y
    cases listed
  · cases at_y
    exact
      { inside := fun b listed => by simpa using (List.mem_filter.mp listed).2
        todo := fun _ listed => listed
        marked := nofun
        found := nofun
        batch := nofun
        reached := fun _ listed => Or.inl listed
        finished := nofun
        logged := fun done => by cases done }

/-- The writer is done with the first of its blocks, which it marked or found DIRTY. -/
theorem WriterOk.next {y : Writer} {rest : List Nat} (ok : WriterOk cfg s x)
    (next : x.todo = b :: rest)
    (same : y = { x with todo := rest, marked := y.marked, found := y.found })
    (marked : ∀ b', y.marked = some b' → b' ∈ x.blocks ∧ s.states b' = .dirty)
    (found : ∀ b' ∈ y.found, s.states b' = .dirty) (done : y.marked = some b ∨ b ∈ y.found)
    (kept : ∀ b', x.marked = some b' ∨ b' ∈ x.found → y.marked = some b' ∨ b' ∈ y.found) :
    WriterOk cfg s y := by
  rw [same]
  exact
    { inside := ok.inside
      todo := fun b' listed => ok.todo b' (next ▸ List.mem_cons_of_mem b listed)
      marked
      found
      batch := ok.batch
      reached := fun b' listed => by
        rcases ok.reached b' listed with waiting | was | was | inBatch
        · rw [next] at waiting
          cases waiting with
          | head => exact Or.inr (or_assoc.mp (Or.inl done))
          | tail _ waiting => exact Or.inl waiting
        · exact Or.inr (or_assoc.mp (Or.inl (kept b' (Or.inl was))))
        · exact Or.inr (or_assoc.mp (Or.inl (kept b' (Or.inr was))))
        · exact Or.inr (Or.inr (Or.inr inBatch))
      finished := fun done => by
        have empty := (ok.finished done).1
        rw [next] at empty
        cases empty
      logged := ok.logged }

theorem found_inv (h : Inv crc32 cfg s) {rest : List Nat} (at_w : s.writers w = some x)
    (next : x.todo = b :: rest) (dirty : s.states b = .dirty) :
    Inv crc32 cfg (s.setWriter w (some { x with todo := rest, found := b :: x.found })) := by
  have ok := h.writers w x at_w
  refine inv_setWriter h (fun y at_y e listed => ?_) fun y at_y => ?_
  · cases at_y
    exact ⟨w, x, at_w, listed⟩
  · cases at_y
    refine ok.next next rfl ok.marked (fun b' listed => ?_) (Or.inr List.mem_cons_self)
      fun b' was => was.imp_right (List.mem_cons_of_mem b)
    cases listed with
    | head => exact dirty
    | tail _ listed => exact ok.found b' listed

/-- A mark on a block that is not DIRTY settles nothing. -/
theorem keeps_markDirty (clean : s.states b ≠ .dirty) : Keeps s (s.markDirty b) where
  dirty b' marked := by
    simp only [State.markDirty, Function.update_apply]
    split <;> simp_all
  settled b' marked now := by
    have other : b' ≠ b := fun same => clean (same ▸ marked)
    simpa only [State.markDirty, Function.update_of_ne other] using now
  sequence := le_rfl
  metadata := rfl
  wal := rfl
  ckpt := rfl
  fresh b' now := by
    obtain ⟨dirty, logged⟩ := now
    have other : b' ≠ b := by
      rintro rfl
      simp [State.markDirty] at logged
    simp only [State.markDirty, Function.update_of_ne other] at dirty logged
    exact ⟨dirty, logged⟩
  batches w y at_w e listed := Or.inl ⟨w, y, at_w, listed⟩

theorem mark_inv (h : Inv crc32 cfg s) {rest : List Nat} (at_w : s.writers w = some x)
    (next : x.todo = b :: rest) (none : x.marked = none) (clean : s.states b ≠ .dirty) :
    Inv crc32 cfg ((s.markDirty b).setWriter w
      (some { x with todo := rest, marked := some b })) := by
  have k : Keeps s (s.markDirty b) := keeps_markDirty clean
  have marked : Inv crc32 cfg (s.markDirty b) :=
    h.keeps k (fun w' y at_w' => (h.writers w' y at_w').grows k.toGrows)
      fun b' done => ⟨(h.acknowledged b' done).1, (h.acknowledged b' done).2.grows k.toGrows⟩
  have ok := marked.writers w x at_w
  refine inv_setWriter marked (fun y at_y e listed => ?_) fun y at_y => ?_
  · cases at_y
    exact ⟨w, x, at_w, listed⟩
  · cases at_y
    refine ok.next next rfl (fun b' at_b => ?_) ok.found (Or.inl rfl) fun b' was => Or.inr ?_
    · cases at_b
      exact ⟨ok.todo b (next ▸ List.mem_cons_self), by simp [State.markDirty]⟩
    · exact was.resolve_left fun here => by rw [none] at here; cases here

theorem number_inv (h : Inv crc32 cfg s) (at_w : s.writers w = some x) (marked : x.marked = some b)
    (more : s.sequence < u64Max) :
    Inv crc32 cfg ((s.setSequence (nextSequence s.sequence)).setWriter w
      (some (x.number b (nextSequence s.sequence)))) := by
  have seq : nextSequence s.sequence = s.sequence + 1 := by
    unfold nextSequence
    split <;> omega
  rw [seq]
  have k : Keeps s ((s.setSequence (s.sequence + 1)).setWriter w
      (some (x.number b (s.sequence + 1)))) :=
    { dirty := fun _ dirty => dirty
      settled := fun _ _ now => now
      sequence := Nat.le_succ _
      metadata := rfl
      wal := rfl
      ckpt := rfl
      fresh := fun _ now => now
      batches := writers_set (fun w' y at_w' _ listed => Or.inl ⟨w', y, at_w', listed⟩) <| by
        intro y at_y e listed
        cases at_y
        cases List.mem_append.mp listed with
        | inl old => exact Or.inl ⟨w, x, at_w, old⟩
        | inr new =>
          cases List.mem_singleton.mp new
          exact Or.inr (Nat.lt_succ_self _) }
  have ok := h.writers w x at_w
  refine h.keeps k (writers_set (fun w' y at_w' => ?_) fun y at_y => ?_) h.acknowledged
  · exact (h.writers w' y at_w').grows k.toGrows
  · cases at_y
    exact
      { inside := ok.inside
        todo := ok.todo
        marked := nofun
        found := ok.found
        batch := fun e listed => by
          cases List.mem_append.mp listed with
          | inl old => exact (ok.batch e old).grows k.toGrows
          | inr new =>
            cases List.mem_singleton.mp new
            exact
              { inside := ok.inside b (ok.marked b marked).1
                dirty := (ok.marked b marked).2
                small := le_rfl
                fits := by unfold u64Max at more; simp only; omega
                above := Or.inr (Nat.lt_succ_of_le h.covered) }
        reached := fun b' listed => by
          rcases ok.reached b' listed with waiting | was | known | ⟨e, old, at_b⟩
          · exact Or.inl waiting
          · rw [marked] at was
            cases was
            exact Or.inr (Or.inr (Or.inr
              ⟨⟨b, s.sequence + 1⟩, List.mem_append_right _ List.mem_cons_self, rfl⟩))
          · exact Or.inr (Or.inr (Or.inl known))
          · exact Or.inr (Or.inr (Or.inr ⟨e, List.mem_append_left _ old, at_b⟩))
        finished := fun done => ⟨(ok.finished done).1, rfl⟩
        logged := fun done => by
          have unmarked := (ok.finished done).2
          rw [marked] at unmarked
          cases unmarked }

/-- A log entry stays when the log grows. -/
theorem InLog.append {wal tail : List UInt8} {covered : Nat} (h : InLog crc32 wal covered b)
    (aligned : Wal.recordSize ∣ wal.length) : InLog crc32 (wal ++ tail) covered b := by
  obtain ⟨e, read, at_b, above⟩ := h
  refine ⟨e, ?_, at_b, above⟩
  rw [Wal.entries_append crc32 tail aligned]
  exact List.mem_append_left _ read

theorem settled_settle {es : List WalEntry} :
    Settled (s.settle es) b ↔
      s.states b = .dirty ∧ (s.unlogged b = false ∨ ∃ e ∈ es, e.blockIndex = b) := by
  simp only [Settled, State.settle, Bool.and_eq_false_iff, Bool.not_eq_false', List.any_eq_true,
    decide_eq_true_eq]

/-- The entries that were written whole are in the log and their marks are settled; nothing
    else is. -/
theorem append_inv (h : Inv crc32 cfg s) (written : Nat) (at_w : s.writers w = some x)
    (free : s.ckpt.holdsWal = false) (aligned : Wal.recordSize ∣ s.wal.length) :
    Inv crc32 cfg ((s.appendBytes ((Wal.serializeBatch crc32 x.batch).take written)).settle
      (x.batch.take (written / Wal.recordSize))) := by
  have ok := h.writers w x at_w
  have fits : ∀ e ∈ x.batch, e.Fits := fun e listed =>
    ⟨lt_of_lt_of_le (ok.batch e listed).inside (cfg.numBlocks_le.trans cfg.deviceSize_fits.le),
      (ok.batch e listed).fits⟩
  generalize whole : x.batch.take (written / Wal.recordSize) = written'
  generalize cut : (Wal.serializeBatch crc32 x.batch).take written = bytes
  have log : Wal.entries crc32 (s.wal ++ bytes) = Wal.entries crc32 s.wal ++ written' := by
    rw [Wal.entries_append crc32 bytes aligned, ← cut, ← whole, Wal.entries_take crc32 fits]
  have mine : ∀ e ∈ written', e ∈ x.batch := fun e listed =>
    List.mem_of_mem_take (whole ▸ listed)
  have new {covered : Nat} {e : WalEntry} (listed : e ∈ written') (above : covered < e.sequence) :
      InLog crc32 (s.wal ++ bytes) covered e.blockIndex :=
    ⟨e, log ▸ List.mem_append_right _ listed, rfl, above⟩
  have g : Grows s ((s.appendBytes bytes).settle written') :=
    { dirty := fun _ dirty => dirty
      settled := fun b dirty now => (settled_settle.mpr ⟨dirty, Or.inl now⟩).2
      sequence := le_rfl
      metadata := rfl }
  -- a block is settled now because it was, or because its entry was just written
  have cases_settled {b : Nat} (now : Settled ((s.appendBytes bytes).settle written') b) :
      Settled s b ∨ ∃ e ∈ written', e.blockIndex = b := by
    obtain ⟨dirty, was | new⟩ := settled_settle.mp now
    · exact Or.inl ⟨dirty, was⟩
    · exact Or.inr new
  refine
    { log := fun e read => ?_
      covered := h.covered
      writers := fun w' y at_w' => (h.writers w' y at_w').grows g
      settled := fun b inside now => ?_
      acknowledged := fun b done =>
        ⟨(h.acknowledged b done).1, (h.acknowledged b done).2.grows g⟩
      ckpt := ?_ }
  · have read' : e ∈ Wal.entries crc32 (s.wal ++ bytes) := read
    rw [log] at read'
    cases List.mem_append.mp read' with
    | inl old => exact h.log e old
    | inr listed => exact (ok.batch e (mine e listed)).small
  · rcases cases_settled now with was | ⟨e, listed, rfl⟩
    · exact (h.settled b inside was).imp_right fun logged => logged.append aligned
    · exact (ok.batch e (mine e listed)).above.imp_right (new listed)
  · have held := h.ckpt
    show CkptOk crc32 cfg _ s.ckpt
    cases at_ckpt : s.ckpt with
    | idle => trivial
    | saving mode covered next copy =>
      rw [at_ckpt] at held free
      obtain ⟨bounded, copies, _⟩ := held
      refine ⟨bounded, ⟨copies.small, copies.pending, fun b below now => ?_⟩, fun excl => ?_⟩
      · rcases cases_settled now with was | ⟨e, listed, rfl⟩
        · exact (copies.settled b below was).imp_right fun logged => logged.append aligned
        · exact (copies.pending w x at_w e (mine e listed) below).imp_right (new listed)
      · subst excl
        cases free
    | saved mode covered =>
      rw [at_ckpt] at held free
      refine ⟨held.1, fun excl => ?_⟩
      subst excl
      cases free

theorem appended_inv (h : Inv crc32 cfg s) (at_w : s.writers w = some x)
    (done : x.todo = [] ∧ x.marked = none) (logged : ∀ e ∈ x.batch, s.unlogged e.blockIndex = false) :
    Inv crc32 cfg (s.setWriter w (some { x with appended := true })) := by
  have ok := h.writers w x at_w
  refine inv_setWriter h (fun y at_y e listed => ?_) fun y at_y => ?_
  · cases at_y
    exact ⟨w, x, at_w, listed⟩
  · cases at_y
    exact { ok with finished := fun _ => done, logged := fun _ => logged }

/-- A block of an acknowledged call was found DIRTY or is in the batch. -/
theorem acknowledge_inv (h : Inv crc32 cfg s) (at_w : s.writers w = some x)
    (done : x.todo = [] ∧ x.marked = none ∧ (x.batch = [] ∨ x.appended = true))
    (found : ∀ b ∈ x.found, s.unlogged b = false) :
    Inv crc32 cfg ((s.setAcknowledged x.blocks).setWriter w none) := by
  have ok := h.writers w x at_w
  have settled : ∀ b ∈ x.blocks, Settled s b := by
    intro b listed
    rcases ok.reached b listed with waiting | marked | known | ⟨e, entry, rfl⟩
    · rw [done.1] at waiting
      cases waiting
    · rw [done.2.1] at marked
      cases marked
    · exact ⟨ok.found b known, found b known⟩
    · refine ⟨(ok.batch e entry).dirty, ?_⟩
      cases done.2.2 with
      | inl empty => rw [empty] at entry; cases entry
      | inr logged => exact ok.logged logged e entry
  have g : Grows s (s.setAcknowledged x.blocks) := ⟨fun _ d => d, fun _ _ n => n, le_rfl, rfl⟩
  have k : Keeps s (s.setAcknowledged x.blocks) :=
    { g with
      wal := rfl
      ckpt := rfl
      fresh := fun _ now => now
      batches := fun w' y at_w' e listed => Or.inl ⟨w', y, at_w', listed⟩ }
  refine inv_setWriter (h.keeps k (fun w' y at_w' => (h.writers w' y at_w').grows g) fun b now => ?_)
    (fun y at_y => ?_) fun y at_y => ?_
  rotate_left
  · cases at_y
  · cases at_y
  simp only [State.setAcknowledged, Bool.or_eq_true, List.contains_iff_mem] at now
  cases now with
  | inl was => exact h.acknowledged b was
  | inr listed => exact ⟨ok.inside b listed, settled b listed⟩

theorem setCkpt_inv (h : Inv crc32 cfg s) {skips : Nat} {c : Ckpt}
    (ok : CkptOk crc32 cfg (s.setCkpt skips c) c) : Inv crc32 cfg (s.setCkpt skips c) where
  log := h.log
  covered := h.covered
  writers w x at_w := (h.writers w x at_w).grows ⟨fun _ d => d, fun _ _ n => n, le_rfl, rfl⟩
  settled := h.settled
  acknowledged := h.acknowledged
  ckpt := ok

/-- A block that is copied while it is DIRTY is DIRTY in the copy, and one that is not DIRTY
    has no settled mark and no number yet. -/
theorem copy_inv (h : Inv crc32 cfg s) {mode : CkptMode} {covered next : Nat} {copy : StateMap}
    (at_ckpt : s.ckpt = .saving mode covered next copy) (more : next < cfg.numBlocks) (skips : Nat) :
    Inv crc32 cfg (s.setCkpt skips
      (.saving mode covered (next + 1) (Function.update copy next (s.states next)))) := by
  have held := h.ckpt
  rw [at_ckpt] at held
  obtain ⟨bounded, copies, below⟩ := held
  have copied {b : Nat} {P : Prop} (now : b < next + 1) (dirty : s.states b = .dirty)
      (old : b < next → copy b = .dirty ∨ P) :
      Function.update copy next (s.states next) b = .dirty ∨ P := by
    rcases Nat.lt_succ_iff_lt_or_eq.mp now with before | rfl
    · rw [Function.update_of_ne before.ne]
      exact old before
    · rw [Function.update_self]
      exact Or.inl dirty
  refine setCkpt_inv h ⟨more, ⟨copies.small, fun w x at_w e listed now => ?_, fun b now is => ?_⟩,
    below⟩
  · exact copied now ((h.writers w x at_w).batch e listed).dirty
      (copies.pending w x at_w e listed)
  · exact copied now is.1 fun before => copies.settled b before is

theorem publish_inv (h : Inv crc32 cfg s) {mode : CkptMode} {covered : Nat} {copy : StateMap}
    (at_ckpt : s.ckpt = .saving mode covered cfg.numBlocks copy) :
    Inv crc32 cfg (s.publish mode covered copy) := by
  have held := h.ckpt
  rw [at_ckpt] at held
  obtain ⟨_, copies, below⟩ := held
  have settles : ∀ b, s.unlogged b = false → (s.publish mode covered copy).unlogged b = false :=
    fun b now => by simp [State.publish, now]
  refine
    { log := h.log
      covered := copies.small
      writers := fun w x at_w => ?_
      settled := fun b inside now => ?_
      acknowledged := fun b done => ?_
      ckpt := ⟨rfl, below⟩ }
  · have ok := h.writers w x at_w
    exact
      { ok with
        batch := fun e listed =>
          { ok.batch e listed with
            above := copies.pending w x at_w e listed (ok.batch e listed).inside }
        logged := fun done e listed => settles _ (ok.logged done e listed) }
  · obtain ⟨dirty, logged⟩ := now
    simp only [State.publish, Bool.and_eq_false_iff, Bool.not_eq_false', decide_eq_true_eq] at logged
    cases logged with
    | inl was => exact copies.settled b inside ⟨dirty, was⟩
    | inr copied => exact Or.inl copied
  · obtain ⟨inside, dirty, logged⟩ := h.acknowledged b done
    exact ⟨inside, dirty, settles b logged⟩

/-- Nothing the file leaves uncovered is cut off the log. -/
theorem truncate_inv (h : Inv crc32 cfg s)
    (all : LogBelow crc32 s (loadMetadata s.metadata).maxSequence) :
    Inv crc32 cfg (s.truncate.setCkpt 0 .idle) := by
  have empty : Wal.entries crc32 [] = [] := by simp [Wal.entries, Wal.readEntries]
  refine
    { log := fun e read => ?_
      covered := h.covered
      writers := fun w x at_w =>
        (h.writers w x at_w).grows ⟨fun _ d => d, fun _ _ n => n, le_rfl, rfl⟩
      settled := fun b inside now => ?_
      acknowledged := h.acknowledged
      ckpt := trivial }
  · have none : e ∈ Wal.entries crc32 [] := read
    rw [empty] at none
    cases none
  · cases h.settled b inside now with
    | inl saved => exact Or.inl saved
    | inr logged =>
      obtain ⟨e, read, _, above⟩ := logged
      exact absurd (all e read) (not_le.mpr above)

theorem openCache_inv (file : Option Metadata) (wal : List UInt8) :
    Inv crc32 cfg (openCache crc32 cfg file wal) := by
  have fits : ∀ e ∈ Wal.replay crc32 wal (walMinSeq (loadMetadata file)), e.Fits :=
    fun e read => Wal.readEntries_fits crc32 ((Wal.mem_replay crc32).mp read).1
  have kept := Wal.entries_serializeBatch crc32 fits
  exact
    { log := fun e read => (Wal.foldl_max_le _ _).2 e (kept ▸ read)
      covered := (Wal.foldl_max_le _ _).1
      writers := nofun
      settled := fun b inside now =>
        (recovered_dirty inside).mp (by simpa [openCache] using now.2)
      acknowledged := nofun
      ckpt := trivial }

theorem step_inv (h : Inv crc32 cfg s) {a : Act} (logged : a.Logged s)
    (taken : a.step crc32 cfg s = some t) : Inv crc32 cfg t := by
  cases a with
  | start w first last =>
    simp only [Act.step] at taken
    split at taken
    · cases taken
    · cases taken
      exact start_inv h w first last
  | mark w =>
    simp only [Act.step] at taken
    split at taken
    · cases taken
    · rename_i x at_w
      split at taken
      · rename_i b rest none next
        split at taken
        · rename_i dirty
          cases taken
          exact found_inv h at_w next dirty
        · rename_i clean
          cases taken
          exact mark_inv h at_w next none clean
      · cases taken
  | number w =>
    simp only [Act.step] at taken
    split at taken
    · cases taken
    · rename_i x at_w
      split at taken
      · cases taken
      · rename_i b marked
        cases taken
        exact number_inv h at_w marked logged
  | append w written =>
    simp only [Act.step] at taken
    split at taken
    · cases taken
    · rename_i x at_w
      split at taken
      · rename_i ready
        obtain ⟨todo, marked, _, _, free, _⟩ := ready
        have after := append_inv h written at_w free logged
        split at taken
        · rename_i all
          cases taken
          refine appended_inv after at_w ⟨todo, marked⟩ fun e listed => ?_
          have whole : written / Wal.recordSize = x.batch.length := by
            rw [all, Wal.length_serializeBatch, Nat.mul_div_cancel_left _ (by decide)]
          have dirty := ((h.writers w x at_w).batch e listed).dirty
          rw [whole, List.take_length]
          exact (settled_settle.mpr ⟨dirty, Or.inr ⟨e, listed, rfl⟩⟩).2
        · cases taken
          exact inv_setWriter after nofun nofun
      · cases taken
  | acknowledge w =>
    simp only [Act.step] at taken
    split at taken
    · cases taken
    · rename_i x at_w
      split at taken
      · rename_i done
        cases taken
        exact acknowledge_inv h at_w done (logged x at_w)
      · cases taken
  | abandon w =>
    simp only [Act.step] at taken
    split at taken
    · cases taken
    · split at taken
      · cases taken
        exact inv_setWriter h nofun nofun
      · cases taken
  | ckptStart handoff =>
    simp only [Act.step] at taken
    split at taken
    · cases taken
      refine setCkpt_inv h ⟨Nat.zero_le _, ⟨le_rfl, fun _ _ _ _ _ below => ?_, fun _ below => ?_⟩,
        fun _ => h.log⟩
      · omega
      · omega
    · cases taken
  | ckptCopy =>
    simp only [Act.step] at taken
    split at taken
    · rename_i mode covered next copy at_ckpt
      split at taken
      · rename_i more
        cases taken
        exact copy_inv h at_ckpt more _
      · cases taken
    · cases taken
  | ckptPublish =>
    simp only [Act.step] at taken
    split at taken
    · rename_i mode covered next copy at_ckpt
      split at taken
      · rename_i all
        cases taken
        subst all
        exact publish_inv h at_ckpt
      · cases taken
    · cases taken
  | ckptTruncate handoff =>
    have held := h.ckpt
    simp only [Act.step] at taken
    split at taken
    · cases taken
      exact setCkpt_inv h trivial
    · rename_i covered at_ckpt
      rw [at_ckpt] at held
      split at taken
      · rename_i still
        cases taken
        refine truncate_inv h ?_
        rw [held.1, ← still.1]
        exact h.log
      · cases taken
        exact setCkpt_inv h trivial
    · rename_i covered at_ckpt
      rw [at_ckpt] at held
      split at taken
      · cases taken
        refine truncate_inv h ?_
        rw [held.1]
        exact held.2 rfl
      · cases taken
        exact setCkpt_inv h trivial
    · cases taken
  | ckptFail =>
    simp only [Act.step] at taken
    split at taken
    · cases taken
    · cases taken
      exact setCkpt_inv h trivial

/-- In every run in which no writer is acknowledged on an unlogged mark, no batch follows a torn
    record and the numbers do not run out, a crash at any point recovers every acknowledged
    block as DIRTY. -/
theorem acknowledged_recovered (crc32 : List UInt8 → UInt32) (cfg : CacheConfig)
    (file : Option Metadata) (wal : List UInt8) (s : State)
    (run : Reach (Act.step crc32 cfg) Act.Logged (openCache crc32 cfg file wal) s) (b : Nat)
    (done : s.acknowledged b = true) : recovered crc32 cfg s.metadata s.wal b = .dirty := by
  have inv : Inv crc32 cfg s :=
    run.invariant (openCache_inv file wal) fun _ _ _ held logged taken => step_inv held logged taken
  obtain ⟨inside, settled⟩ := inv.acknowledged b done
  exact (recovered_dirty inside).mpr (inv.settled b inside settled)

/-- A device of one block and a checksum that is always zero. -/
def oneBlock : CacheConfig :=
  ⟨4096, 4096, Nat.zero_lt_succ _, Nat.zero_lt_succ _, Nat.le_of_ble_eq_true rfl⟩

def zeroCrc (_ : List UInt8) : UInt32 := 0

/-- One call marks, numbers, logs and is acknowledged; a second finds the block DIRTY and is
    acknowledged during a checkpoint. -/
def twoWrites : List Act :=
  [.start 1 0 0, .mark 1, .number 1, .append 1 20, .acknowledge 1, .ckptStart false, .ckptCopy,
    .start 2 0 0, .mark 2, .ckptPublish, .ckptTruncate false, .acknowledge 2]

theorem twoWrites_recovered :
    ∃ s, execWhile (Act.step zeroCrc oneBlock) Act.Logged (openCache zeroCrc oneBlock none [])
      twoWrites = some s ∧ s.acknowledged 0 = true ∧
      recovered zeroCrc oneBlock s.metadata s.wal 0 = .dirty := by
  obtain ⟨s, run, done⟩ : ∃ s, execWhile (Act.step zeroCrc oneBlock) Act.Logged
      (openCache zeroCrc oneBlock none []) twoWrites = some s ∧ s.acknowledged 0 = true :=
    ⟨_, rfl, rfl⟩
  exact ⟨s, run, done,
    acknowledged_recovered zeroCrc oneBlock none [] s (reach_execWhile run) 0 done⟩

/-- The second call is acknowledged before the first has appended. -/
theorem unlogged_mark_lost :
    ∃ s b, Reach (Act.step zeroCrc oneBlock) anyStep (openCache zeroCrc oneBlock none []) s ∧
      s.acknowledged b = true ∧ recovered zeroCrc oneBlock s.metadata s.wal b = .notPresent := by
  obtain ⟨s, run, done, lost⟩ : ∃ s, exec (Act.step zeroCrc oneBlock)
      (openCache zeroCrc oneBlock none [])
      [.start 1 0 0, .mark 1, .start 2 0 0, .mark 2, .acknowledge 2] = some s ∧
      s.acknowledged 0 = true ∧
      recovered zeroCrc oneBlock s.metadata s.wal 0 = .notPresent := ⟨_, rfl, rfl, rfl⟩
  exact ⟨s, 0, reach_exec run, done, lost⟩

end GlideFS.WriteCache.Checkpoint
