import GlideFS.Block.Wal
import Mathlib.Data.List.Pairwise
import Mathlib.Data.List.Sort

/-! # What a replay of the log returns

Appends succeed or leave some first part of their bytes behind, and later the bytes of one record
are overwritten. A record is found by its position alone: replay reads the file in windows of 20
bytes, so it finds the records that begin at a multiple of 20.
-/

namespace GlideFS.Block.Wal

open Lib

/-- A call of `append_batch`, with the bytes it wrote when it failed. -/
structure Append where
  batch : List WalEntry
  failedAfter : Option Nat
  fits : ∀ e ∈ batch, e.Fits

variable (crc32 : List UInt8 → UInt32)

def Append.bytes (a : Append) : List UInt8 :=
  match a.failedAfter with
  | none => serializeBatch crc32 a.batch
  | some k => (serializeBatch crc32 a.batch).take k

def logBytes (appends : List Append) : List UInt8 := appends.flatMap (Append.bytes crc32)

/-- A record in the file, of which `size` bytes were written. -/
structure Placed where
  offset : Nat
  size : Nat
  entry : WalEntry
  acked : Bool

/-- The records of a batch of which `left` bytes were written. -/
def placeBatch (acked : Bool) : Nat → Nat → List WalEntry → List Placed
  | _, _, [] => []
  | offset, left, e :: rest =>
      if left = 0 then []
      else ⟨offset, min recordSize left, e, acked⟩ ::
        placeBatch acked (offset + recordSize) (left - recordSize) rest

def placed : Nat → List Append → List Placed
  | _, [] => []
  | offset, a :: rest =>
      placeBatch a.failedAfter.isNone offset (a.bytes crc32).length a.batch ++
        placed (offset + (a.bytes crc32).length) rest

/-- Nothing but bytes of one record was overwritten. -/
structure Corrupted (p : Placed) (before after : List UInt8) : Prop where
  length : after.length = before.length
  same : ∀ i, i < p.offset ∨ p.offset + p.size ≤ i → after[i]? = before[i]?

def window (file : List UInt8) (n : Nat) : List UInt8 := (file.drop (recordSize * n)).take recordSize

/-- The CRC accepts a window only if it is a record as it was written there. -/
def Detects (records : List Placed) (file : List UInt8) : Prop :=
  ∀ n < file.length / recordSize, readEntry crc32 (window file n) = none ∨
    ∃ p ∈ records, p.offset = recordSize * n ∧ window file n = serializeEntry crc32 p.entry

/-- A record that replay has to return: it was acknowledged, and is not the one that was damaged. -/
def Placed.Due (p c : Placed) (file : List UInt8) (minSequence : Nat) : Prop :=
  p.acked ∧ (p.offset = c.offset → Holds file p.offset (serializeEntry crc32 p.entry)) ∧
    minSequence < p.entry.sequence

instance (p c : Placed) (file : List UInt8) (minSequence : Nat) :
    Decidable (p.Due crc32 c file minSequence) :=
  inferInstanceAs (Decidable (_ ∧ (_ → _ ∧ _) ∧ _))

/-- Every acknowledged entry above the minimum is returned, in order, other than the damaged one,
    and nothing that was never appended. -/
def Recovered (appends : List Append) (c : Placed) (file : List UInt8) (minSequence : Nat) : Prop :=
  (((placed crc32 0 appends).filter fun p => p.Due crc32 c file minSequence).map
      Placed.entry).Sublist (replay crc32 file minSequence) ∧
    ∀ e ∈ replay crc32 file minSequence, ∃ a ∈ appends, e ∈ a.batch

/-- The due records begin at multiples of the record size. -/
def Aligned (appends : List Append) (c : Placed) (file : List UInt8) (minSequence : Nat) : Prop :=
  ∀ p ∈ placed crc32 0 appends, p.Due crc32 c file minSequence → recordSize ∣ p.offset

/-! ## Where the records lie -/

section

variable {file : List UInt8} {offset left : Nat} {acked : Bool} {batch : List WalEntry}
  {appends : List Append}

theorem readEntries_eq (n : Nat) (file : List UInt8) :
    readEntries crc32 n file =
      (List.range n).filterMap fun i => readEntry crc32 (window file i) := by
  induction n generalizing file with
  | zero => rfl
  | succ n ih =>
    have shifted (i : Nat) : window (file.drop recordSize) i = window file (i + 1) := by
      rw [window, List.drop_drop, window, Nat.mul_succ, Nat.add_comm]
    rw [List.range_succ_eq_map, readEntries, ih, List.filterMap_cons, List.filterMap_map]
    have first : window file 0 = file.take recordSize := rfl
    simp only [shifted, first]
    cases readEntry crc32 (file.take recordSize) <;> rfl

/-- A record and the bytes of the batch after it. -/
theorem take_serializeBatch (e : WalEntry) (rest : List WalEntry) (left : Nat) :
    (serializeBatch crc32 (e :: rest)).take left =
      (serializeEntry crc32 e).take (min recordSize left) ++
        (serializeBatch crc32 rest).take (left - recordSize) := by
  have cons : serializeBatch crc32 (e :: rest) =
      serializeEntry crc32 e ++ serializeBatch crc32 rest := rfl
  rw [cons, List.take_append, length_serializeEntry, List.take_eq_take_min,
    length_serializeEntry, Nat.min_comm]

@[simp] theorem placeBatch_zero (acked : Bool) (offset : Nat) (batch : List WalEntry) :
    placeBatch acked offset 0 batch = [] := by
  cases batch <;> rfl

variable {p : Placed}

/-- The first record of a batch, and those after it when it was written whole. -/
theorem mem_placeBatch {e : WalEntry} {rest : List WalEntry}
    (listed : p ∈ placeBatch acked offset left (e :: rest)) :
    0 < left ∧ (p = ⟨offset, min recordSize left, e, acked⟩ ∨ recordSize ≤ left ∧
      p ∈ placeBatch acked (offset + recordSize) (left - recordSize) rest) := by
  unfold placeBatch at listed
  split at listed
  · cases listed
  · refine ⟨by omega, (List.mem_cons.mp listed).imp_right fun later => ⟨?_, later⟩⟩
    by_contra short
    rw [Nat.sub_eq_zero_of_le (by omega), placeBatch_zero] at later
    cases later

theorem placeBatch_holds (holds : Holds file offset ((serializeBatch crc32 batch).take left))
    (listed : p ∈ placeBatch acked offset left batch) :
    p.entry ∈ batch ∧ Holds file p.offset ((serializeEntry crc32 p.entry).take p.size) := by
  induction batch generalizing offset left with
  | nil => cases listed
  | cons e rest ih =>
    rw [take_serializeBatch, holds_append] at holds
    obtain ⟨-, rfl | ⟨whole, later⟩⟩ := mem_placeBatch listed
    · exact ⟨List.mem_cons_self, holds.1⟩
    · rw [List.length_take, length_serializeEntry, Nat.min_eq_left whole, Nat.min_self] at holds
      exact (ih holds.2 later).imp_left (List.mem_cons_of_mem e)

theorem placeBatch_bounds (listed : p ∈ placeBatch acked offset left batch) :
    p.acked = acked ∧ offset ≤ p.offset ∧ p.offset + p.size ≤ offset + left ∧ 0 < p.size := by
  induction batch generalizing offset left with
  | nil => cases listed
  | cons e rest ih =>
    obtain ⟨some, rfl | ⟨whole, later⟩⟩ := mem_placeBatch listed
    · exact ⟨rfl, le_rfl, by simp, by simp [recordSize, some]⟩
    · obtain ⟨same, after, inside, positive⟩ := ih later
      exact ⟨same, by omega, by omega, positive⟩

theorem placeBatch_whole (all : recordSize * batch.length ≤ left)
    (listed : p ∈ placeBatch acked offset left batch) : p.size = recordSize := by
  induction batch generalizing offset left with
  | nil => cases listed
  | cons e rest ih =>
    rw [List.length_cons, Nat.mul_succ] at all
    obtain ⟨-, rfl | ⟨-, later⟩⟩ := mem_placeBatch listed
    · exact Nat.min_eq_left (by omega)
    · exact ih (by omega) later

/-- One record ends before the next begins. -/
def Before (p q : Placed) : Prop := p.offset + p.size ≤ q.offset

theorem placeBatch_ordered : (placeBatch acked offset left batch).Pairwise Before := by
  induction batch generalizing offset left with
  | nil => exact .nil
  | cons e rest ih =>
    unfold placeBatch
    split
    · exact .nil
    · refine .cons ?_ ih
      intro q later
      have := (placeBatch_bounds later).2.1
      simp only [Before]
      omega

theorem bytes_eq (a : Append) :
    a.bytes crc32 = (serializeBatch crc32 a.batch).take (a.bytes crc32).length := by
  unfold Append.bytes
  split
  · rw [List.take_length]
  · rw [List.length_take, ← List.take_eq_take_min]

theorem placed_after (listed : p ∈ placed crc32 offset appends) : offset ≤ p.offset := by
  induction appends generalizing offset with
  | nil => cases listed
  | cons a rest ih =>
    rcases List.mem_append.mp listed with here | later
    · exact (placeBatch_bounds here).2.1
    · exact (Nat.le_add_right _ _).trans (ih later)

theorem placed_ordered : (placed crc32 offset appends).Pairwise Before := by
  induction appends generalizing offset with
  | nil => exact .nil
  | cons a rest ih =>
    refine List.pairwise_append.mpr ⟨placeBatch_ordered, ih, ?_⟩
    intro p here q later
    exact (placeBatch_bounds here).2.2.1.trans (placed_after crc32 later)

/-- What is known of a record of the file. -/
structure Placed.Written (p : Placed) (appends : List Append) (file : List UInt8) : Prop where
  appended : ∃ a ∈ appends, p.entry ∈ a.batch
  fits : p.entry.Fits
  nonempty : 0 < p.size
  whole : p.acked → p.size = recordSize
  holds : Holds file p.offset ((serializeEntry crc32 p.entry).take p.size)

theorem placed_written (holds : Holds file offset (logBytes crc32 appends))
    (listed : p ∈ placed crc32 offset appends) : p.Written crc32 appends file := by
  induction appends generalizing offset with
  | nil => cases listed
  | cons a rest ih =>
    rw [logBytes, List.flatMap_cons, holds_append] at holds
    rcases List.mem_append.mp listed with here | later
    · have bounds := placeBatch_bounds here
      rw [bytes_eq] at holds
      obtain ⟨member, at_place⟩ := placeBatch_holds crc32 holds.1 here
      refine ⟨⟨a, List.mem_cons_self, member⟩, a.fits _ member, bounds.2.2.2, ?_, at_place⟩
      intro acked
      have all : a.bytes crc32 = serializeBatch crc32 a.batch := by
        rw [bounds.1, Option.isNone_iff_eq_none] at acked
        rw [Append.bytes, acked]
      exact placeBatch_whole (by rw [all, length_serializeBatch]) here
    · obtain ⟨⟨b, member, entry⟩, fits, nonempty, whole, at_place⟩ := ih holds.2 later
      exact ⟨⟨b, List.mem_cons_of_mem a member, entry⟩, fits, nonempty, whole, at_place⟩

end

/-! ## After the corruption -/

section

variable {crc32} {appends : List Append} {c p : Placed} {file : List UInt8} {minSequence : Nat}

/-- Another record lies outside the bytes of the overwritten one. -/
theorem disjoint (listed : p ∈ placed crc32 0 appends) (other : c ∈ placed crc32 0 appends)
    (ne : p.offset ≠ c.offset) : p.offset + p.size ≤ c.offset ∨ c.offset + c.size ≤ p.offset := by
  have ordered : (placed crc32 0 appends).Pairwise fun a b => Before a b ∨ Before b a :=
    (placed_ordered crc32).imp .inl
  have symmetric : Std.Symm fun a b => Before a b ∨ Before b a := ⟨fun _ _ => Or.symm⟩
  exact ordered.forall listed other fun same => ne (same ▸ rfl)

theorem Corrupted.holds {bytes before after : List UInt8} {pos : Nat}
    (corrupted : Corrupted c before after)
    (apart : pos + bytes.length ≤ c.offset ∨ c.offset + c.size ≤ pos)
    (holds : Holds before pos bytes) : Holds after pos bytes := by
  refine ⟨corrupted.length ▸ holds.1, ?_⟩
  rw [← holds.2, holds.2]
  apply List.ext_getElem?
  intro i
  have original := congrArg (·[i]?) holds.2
  simp only [List.getElem?_take, List.getElem?_drop] at original ⊢
  rw [← original]
  split
  · exact corrupted.same _ (by omega)
  · rfl

/-- A due record at a multiple of the record size is read as it was written. -/
theorem read_due (corrupted : Corrupted c (logBytes crc32 appends) file)
    (other : c ∈ placed crc32 0 appends) (listed : p ∈ placed crc32 0 appends)
    (due : p.Due crc32 c file minSequence) (aligned : recordSize ∣ p.offset) :
    p.offset / recordSize < file.length / recordSize ∧
      readEntry crc32 (window file (p.offset / recordSize)) = some p.entry := by
  obtain ⟨n, place⟩ := aligned
  obtain ⟨-, fits, -, whole, holds⟩ := placed_written crc32 (Holds.whole _) listed
  rw [whole due.1, List.take_of_length_le (by simp)] at holds
  have intact : Holds file p.offset (serializeEntry crc32 p.entry) := by
    by_cases here : p.offset = c.offset
    · exact due.2.1 here
    · have apart := disjoint listed other here
      rw [whole due.1] at apart
      exact corrupted.holds (by simpa using apart) holds
  have number : p.offset / recordSize = n := by
    rw [place, Nat.mul_div_cancel_left n (by decide)]
  obtain ⟨inside, bytes⟩ := intact
  rw [length_serializeEntry, place] at inside bytes
  rw [number, window, bytes]
  refine ⟨?_, readEntry_serializeEntry crc32 fits⟩
  rw [Nat.lt_iff_add_one_le, Nat.le_div_iff_mul_le (by decide)]
  rw [Nat.mul_comm, Nat.mul_succ]
  exact inside

theorem mem_entries (detects : Detects crc32 (placed crc32 0 appends) file) {e : WalEntry}
    (read : e ∈ entries crc32 file) :
    ∃ p ∈ placed crc32 0 appends, p.entry = e ∧ recordSize ∣ p.offset := by
  rw [entries, readEntries_eq, List.mem_filterMap] at read
  obtain ⟨n, inside, read⟩ := read
  rcases detects n (List.mem_range.mp inside) with none | ⟨p, listed, place, intact⟩
  · rw [none] at read
    cases read
  · have written := placed_written crc32 (Holds.whole _) listed
    rw [intact, readEntry_serializeEntry crc32 written.fits, Option.some.injEq] at read
    exact ⟨p, listed, read, n, place⟩

/-- The due records lie at ascending windows, each of which reads as its record. -/
theorem due_sublist (corrupted : Corrupted c (logBytes crc32 appends) file)
    (other : c ∈ placed crc32 0 appends) (aligned : Aligned crc32 appends c file minSequence) :
    (((placed crc32 0 appends).filter fun p => p.Due crc32 c file minSequence).map
      Placed.entry).Sublist (replay crc32 file minSequence) := by
  have found : ∀ p ∈ (placed crc32 0 appends).filter fun p => p.Due crc32 c file minSequence,
      recordSize ∣ p.offset ∧ p.Due crc32 c file minSequence ∧
        p.offset / recordSize < file.length / recordSize ∧
        readEntry crc32 (window file (p.offset / recordSize)) = some p.entry := by
    intro p listed
    obtain ⟨listed, due⟩ := List.mem_filter.mp listed
    have due : p.Due crc32 c file minSequence := of_decide_eq_true due
    exact ⟨aligned p listed due, due, read_due corrupted other listed due (aligned p listed due)⟩
  have ordered : ((placed crc32 0 appends).filter fun p => p.Due crc32 c file minSequence).Pairwise
      fun p q => p.offset < q.offset := by
    apply ((placed_ordered crc32).imp_of_mem ?_).filter
    intro p q listed _ before
    have := (placed_written crc32 (Holds.whole _) listed).nonempty
    exact lt_of_lt_of_le (by omega) before
  generalize (placed crc32 0 appends).filter (fun p => p.Due crc32 c file minSequence) = due at found ordered
  have ascending : (due.map fun p => p.offset / recordSize).Pairwise (· < ·) := by
    rw [List.pairwise_map]
    apply ordered.imp_of_mem
    intro p q here there less
    obtain ⟨⟨m, atP⟩, -⟩ := found p here
    obtain ⟨⟨n, atQ⟩, -⟩ := found q there
    simp only [recordSize] at atP atQ ⊢
    omega
  have windows : (due.map fun p => p.offset / recordSize).Sublist
      (List.range (file.length / recordSize)) := by
    apply List.sublist_of_subperm_of_pairwise _ (ascending.imp le_of_lt) List.pairwise_le_range
    have distinct : (due.map fun p => p.offset / recordSize).Nodup := ascending.imp ne_of_lt
    apply List.subperm_of_subset distinct
    intro n listed
    obtain ⟨p, here, rfl⟩ := List.mem_map.mp listed
    exact List.mem_range.mpr (found p here).2.2.1
  have read : (due.map fun p => p.offset / recordSize).filterMap
      (fun i => readEntry crc32 (window file i)) = due.map Placed.entry := by
    rw [List.filterMap_map, ← List.filterMap_eq_map]
    exact List.filterMap_congr fun p here => (found p here).2.2.2
  have kept : (due.map Placed.entry).filter (fun e => minSequence < e.sequence) =
      due.map Placed.entry := by
    rw [List.filter_eq_self]
    intro e listed
    obtain ⟨p, here, rfl⟩ := List.mem_map.mp listed
    exact decide_eq_true (found p here).2.1.2.2
  rw [← kept, replay, entries, readEntries_eq, ← read]
  exact (windows.filterMap _).filter _

end

/-- With a CRC that accepts no window other than an intact record in its place, replay returns
    what it should if every due record begins at a multiple of 20 bytes, and, the records being
    distinct, only then. -/
theorem replay_recovers (appends : List Append) (c : Placed) (other : c ∈ placed crc32 0 appends)
    (file : List UInt8) (corrupted : Corrupted c (logBytes crc32 appends) file)
    (detects : Detects crc32 (placed crc32 0 appends) file) (minSequence : Nat) :
    (Aligned crc32 appends c file minSequence → Recovered crc32 appends c file minSequence) ∧
    (((placed crc32 0 appends).map Placed.entry).Nodup →
      Recovered crc32 appends c file minSequence → Aligned crc32 appends c file minSequence) := by
  constructor
  · intro aligned
    refine ⟨due_sublist corrupted other aligned, ?_⟩
    intro e read
    obtain ⟨p, listed, rfl, -⟩ := mem_entries detects ((mem_replay crc32).mp read).1
    exact (placed_written crc32 (Holds.whole _) listed).appended
  · intro distinct recovered p listed due
    have returned : p.entry ∈ replay crc32 file minSequence :=
      recovered.1.subset (List.mem_map_of_mem (List.mem_filter.mpr ⟨listed, decide_eq_true due⟩))
    obtain ⟨q, there, same, aligned⟩ := mem_entries detects ((mem_replay crc32).mp returned).1
    rwa [List.inj_on_of_nodup_map distinct there listed same] at aligned

/-- A checksum for the closed runs. -/
def byteSum (bytes : List UInt8) : UInt32 := .ofNat (bytes.map UInt8.toNat).sum

theorem fits_first : ∀ e ∈ [(⟨1, 1⟩ : WalEntry)], e.Fits := by
  simp [WalEntry.Fits]

theorem fits_second : ∀ e ∈ [(⟨2, 2⟩ : WalEntry)], e.Fits := by
  simp [WalEntry.Fits]

/-- Two appends of one record each. -/
def twoAppends : List Append := [⟨[⟨1, 1⟩], none, fits_first⟩, ⟨[⟨2, 2⟩], none, fits_second⟩]

/-- Their file after the first record was overwritten. -/
def firstOverwritten : List UInt8 := List.replicate 20 255 ++ serializeEntry byteSum ⟨2, 2⟩

theorem second_record_recovered :
    Corrupted ⟨0, 20, ⟨1, 1⟩, true⟩ (logBytes byteSum twoAppends) firstOverwritten ∧
      Aligned byteSum twoAppends ⟨0, 20, ⟨1, 1⟩, true⟩ firstOverwritten 0 ∧
      Recovered byteSum twoAppends ⟨0, 20, ⟨1, 1⟩, true⟩ firstOverwritten 0 := by
  have written : logBytes byteSum twoAppends =
      serializeEntry byteSum ⟨1, 1⟩ ++ serializeEntry byteSum ⟨2, 2⟩ := rfl
  have corrupted : Corrupted ⟨0, 20, ⟨1, 1⟩, true⟩ (logBytes byteSum twoAppends)
      firstOverwritten := by
    refine ⟨rfl, ?_⟩
    intro i outside
    have later : 20 ≤ i := by simpa using outside
    rw [written, firstOverwritten, List.getElem?_append_right (by simpa using later),
      List.getElem?_append_right (by simpa [recordSize] using later)]
    rfl
  have detects : Detects byteSum (placed byteSum 0 twoAppends) firstOverwritten := by
    unfold Detects
    decide
  have aligned : Aligned byteSum twoAppends ⟨0, 20, ⟨1, 1⟩, true⟩ firstOverwritten 0 := by
    unfold Aligned
    decide
  exact ⟨corrupted, aligned, (replay_recovers byteSum twoAppends ⟨0, 20, ⟨1, 1⟩, true⟩
    List.mem_cons_self firstOverwritten corrupted detects 0).1 aligned⟩

/-- An append that failed after five bytes, and a later one that succeeded. -/
def afterShortWrite : List Append :=
  [⟨[⟨1, 1⟩], some 5, fits_first⟩, ⟨[⟨2, 2⟩], none, fits_second⟩]

/-- Nothing is damaged, and the record of the second append is not returned. -/
theorem record_after_short_write_lost :
    Detects byteSum (placed byteSum 0 afterShortWrite) (logBytes byteSum afterShortWrite) ∧
      (⟨5, 20, ⟨2, 2⟩, true⟩ : Placed) ∈ placed byteSum 0 afterShortWrite ∧
      replay byteSum (logBytes byteSum afterShortWrite) 0 = [] ∧
      ∀ c ∈ placed byteSum 0 afterShortWrite,
        Corrupted c (logBytes byteSum afterShortWrite) (logBytes byteSum afterShortWrite) ∧
        ¬Recovered byteSum afterShortWrite c (logBytes byteSum afterShortWrite) 0 := by
  refine ⟨?_, List.mem_cons_of_mem _ List.mem_cons_self, rfl, fun c listed =>
    ⟨⟨rfl, fun _ _ => rfl⟩, fun recovered => ?_⟩⟩
  · unfold Detects
    decide
  · have none : replay byteSum (logBytes byteSum afterShortWrite) 0 = [] := rfl
    have due := recovered.1
    rw [none, List.sublist_nil, List.map_eq_nil_iff, List.filter_eq_nil_iff] at due
    refine due ⟨5, 20, ⟨2, 2⟩, true⟩ (List.mem_cons_of_mem _ List.mem_cons_self)
      (decide_eq_true ⟨rfl, fun _ => ?_, by decide⟩)
    exact ⟨by decide, by decide⟩

end GlideFS.Block.Wal
