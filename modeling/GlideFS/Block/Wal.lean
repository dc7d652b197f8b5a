import GlideFS.Lib.Bytes
import Mathlib.Data.List.Flatten

/-! # The write-ahead log

A record of the log is 20 bytes: block index, sequence number and the CRC-32 of
the two. Replay reads whole records from the start of the file, skips those whose
CRC fails and drops what is left of a record at the end. An append that fails may
leave any part of its bytes behind.
-/

namespace GlideFS.Block

open Lib

structure WalEntry where
  blockIndex : Nat
  sequence : Nat
deriving DecidableEq

/-- The values a record can carry, both fields being 64 bits wide. -/
def WalEntry.Fits (e : WalEntry) : Prop := e.blockIndex < 2 ^ 64 ∧ e.sequence < 2 ^ 64

namespace Wal

def recordSize : Nat := 20

variable (crc32 : List UInt8 → UInt32)

def entryBody (e : WalEntry) : List UInt8 := leBytes 8 e.blockIndex ++ leBytes 8 e.sequence

def serializeEntry (e : WalEntry) : List UInt8 :=
  entryBody e ++ leBytes 4 (crc32 (entryBody e)).toNat

def serializeBatch (es : List WalEntry) : List UInt8 := es.flatMap (serializeEntry crc32)

/-- One whole record, `none` when its CRC fails. -/
def readEntry (bytes : List UInt8) : Option WalEntry :=
  if ofLeBytes ((bytes.drop 16).take 4) = (crc32 (bytes.take 16)).toNat then
    some ⟨ofLeBytes (bytes.take 8), ofLeBytes ((bytes.drop 8).take 8)⟩
  else none

def readEntries : Nat → List UInt8 → List WalEntry
  | 0, _ => []
  | n + 1, bytes =>
      match readEntry crc32 (bytes.take recordSize) with
      | some e => e :: readEntries n (bytes.drop recordSize)
      | none => readEntries n (bytes.drop recordSize)

/-- The records of a log file. -/
def entries (bytes : List UInt8) : List WalEntry :=
  readEntries crc32 (bytes.length / recordSize) bytes

def replay (bytes : List UInt8) (minSequence : Nat) : List WalEntry :=
  (entries crc32 bytes).filter fun e => minSequence < e.sequence

@[simp] theorem length_entryBody (e : WalEntry) : (entryBody e).length = 16 := by
  simp [entryBody]

@[simp] theorem length_serializeEntry (e : WalEntry) :
    (serializeEntry crc32 e).length = recordSize := by
  simp [serializeEntry, recordSize]

theorem length_serializeBatch (es : List WalEntry) :
    (serializeBatch crc32 es).length = recordSize * es.length := by
  induction es with
  | nil => rfl
  | cons e rest ih =>
    simp only [serializeBatch, List.flatMap_cons, List.length_append] at ih ⊢
    rw [ih, length_serializeEntry, List.length_cons]
    ring

variable {e : WalEntry} {bytes : List UInt8}

/-- A record is read back as it was written. -/
theorem readEntry_serializeEntry (h : e.Fits) :
    readEntry crc32 (serializeEntry crc32 e) = some e := by
  have body : (serializeEntry crc32 e).take 16 = entryBody e := by
    rw [serializeEntry, List.take_append_of_le_length (by simp)]
    exact List.take_of_length_le (by simp)
  have trailer : ((serializeEntry crc32 e).drop 16).take 4 =
      leBytes 4 (crc32 (entryBody e)).toNat := by
    rw [serializeEntry, List.drop_left' (by simp)]
    exact List.take_of_length_le (by simp)
  have index : (serializeEntry crc32 e).take 8 = leBytes 8 e.blockIndex := by
    rw [serializeEntry, entryBody, List.append_assoc, List.take_left' (by simp)]
  have number : ((serializeEntry crc32 e).drop 8).take 8 = leBytes 8 e.sequence := by
    rw [serializeEntry, entryBody, List.append_assoc, List.drop_left' (by simp),
      List.take_left' (by simp)]
  have crc : ofLeBytes (leBytes 4 (crc32 (entryBody e)).toNat) = (crc32 (entryBody e)).toNat :=
    ofLeBytes_leBytes (crc32 (entryBody e)).toNat_lt
  rw [readEntry, body, trailer, index, number, crc, if_pos rfl,
    ofLeBytes_leBytes h.1, ofLeBytes_leBytes h.2]

/-- What a record carries fits its fields. -/
theorem readEntry_fits (h : readEntry crc32 bytes = some e) : e.Fits := by
  have field (bs : List UInt8) (short : bs.length ≤ 8) : ofLeBytes bs < 2 ^ 64 :=
    lt_of_lt_of_le (ofLeBytes_lt bs) (Nat.pow_le_pow_right (by decide) short)
  unfold readEntry at h
  split at h
  · cases h
    exact ⟨field _ (by simp), field _ (by simp)⟩
  · cases h

theorem readEntries_fits {n : Nat} (h : e ∈ readEntries crc32 n bytes) : e.Fits := by
  induction n generalizing bytes with
  | zero => cases h
  | succ n ih =>
    simp only [readEntries] at h
    cases record : readEntry crc32 (bytes.take recordSize) with
    | none =>
      rw [record] at h
      exact ih h
    | some first =>
      rw [record] at h
      cases h with
      | head => exact readEntry_fits crc32 record
      | tail _ later => exact ih later

/-- Whole records are read alike whatever follows them. -/
theorem readEntries_append (n m : Nat) (bytes tail : List UInt8)
    (whole : bytes.length = recordSize * n) :
    readEntries crc32 (n + m) (bytes ++ tail) =
      readEntries crc32 n bytes ++ readEntries crc32 m tail := by
  induction n generalizing bytes with
  | zero =>
    have empty : bytes = [] := List.length_eq_zero_iff.mp (by simpa using whole)
    simp [empty, readEntries]
  | succ n ih =>
    have fits : recordSize ≤ bytes.length := by
      rw [whole]
      exact Nat.le_mul_of_pos_right _ (Nat.succ_pos n)
    have rest : (bytes.drop recordSize).length = recordSize * n := by
      rw [List.length_drop, whole, Nat.mul_succ]
      omega
    rw [Nat.succ_add]
    simp only [readEntries, List.take_append_of_le_length fits,
      List.drop_append_of_le_length fits, ih _ rest]
    cases readEntry crc32 (bytes.take recordSize) <;> rfl

/-- Appending to a log that ends with a whole record adds the records of the tail. -/
theorem entries_append (tail : List UInt8) (aligned : recordSize ∣ bytes.length) :
    entries crc32 (bytes ++ tail) = entries crc32 bytes ++ entries crc32 tail := by
  obtain ⟨n, whole⟩ := aligned
  have parts : (bytes ++ tail).length / recordSize = n + tail.length / recordSize := by
    rw [List.length_append, whole, Nat.mul_add_div (by decide)]
  have count : bytes.length / recordSize = n := by
    rw [whole]
    exact Nat.mul_div_cancel_left n (by decide)
  rw [entries, entries, entries, parts, count, readEntries_append crc32 n _ bytes tail whole]

theorem entries_serializeEntry (h : e.Fits) : entries crc32 (serializeEntry crc32 e) = [e] := by
  have whole : (serializeEntry crc32 e).take recordSize = serializeEntry crc32 e :=
    List.take_of_length_le (by simp)
  have one : (serializeEntry crc32 e).length / recordSize = 1 := by
    rw [length_serializeEntry]
    decide
  rw [entries, one]
  simp only [readEntries, whole, readEntry_serializeEntry crc32 h]

/-- Of a batch that was cut off, the records that were written whole are read. -/
theorem entries_take {es : List WalEntry} (h : ∀ e ∈ es, e.Fits) (k : Nat) :
    entries crc32 ((serializeBatch crc32 es).take k) = es.take (k / recordSize) := by
  induction es generalizing k with
  | nil => simp [serializeBatch, entries, readEntries]
  | cons first rest ih =>
    have later : serializeBatch crc32 (first :: rest) =
        serializeEntry crc32 first ++ serializeBatch crc32 rest := rfl
    rcases Nat.lt_or_ge k recordSize with short | whole
    · have none : ((serializeBatch crc32 (first :: rest)).take k).length / recordSize = 0 := by
        refine Nat.div_eq_of_lt ?_
        rw [List.length_take]
        omega
      rw [entries, none, Nat.div_eq_of_lt short]
      rfl
    · have split : (serializeBatch crc32 (first :: rest)).take k =
          serializeEntry crc32 first ++ (serializeBatch crc32 rest).take (k - recordSize) := by
        rw [later, List.take_append, length_serializeEntry,
          List.take_of_length_le (by simpa using whole)]
      have count : k / recordSize = (k - recordSize) / recordSize + 1 :=
        Nat.div_eq_sub_div (by decide) whole
      rw [split, entries_append crc32 _ (by simp),
        entries_serializeEntry crc32 (h first List.mem_cons_self),
        ih fun e listed => h e (List.mem_cons_of_mem first listed), count]
      rfl

/-- A batch is read back as it was written. -/
theorem entries_serializeBatch {es : List WalEntry} (h : ∀ e ∈ es, e.Fits) :
    entries crc32 (serializeBatch crc32 es) = es := by
  have all := entries_take crc32 h (serializeBatch crc32 es).length
  rw [List.take_length, length_serializeBatch, Nat.mul_div_cancel_left _ (by decide),
    List.take_length] at all
  exact all

theorem mem_replay {low : Nat} :
    e ∈ replay crc32 bytes low ↔ e ∈ entries crc32 bytes ∧ low < e.sequence := by
  simp [replay]

theorem foldl_max_le (es : List WalEntry) (n : Nat) :
    n ≤ es.foldl (fun top e => max top e.sequence) n ∧
      ∀ e ∈ es, e.sequence ≤ es.foldl (fun top e => max top e.sequence) n := by
  induction es generalizing n with
  | nil => exact ⟨le_rfl, nofun⟩
  | cons first rest ih =>
    obtain ⟨low, high⟩ := ih (max n first.sequence)
    refine ⟨(le_max_left _ _).trans low, fun e mem => ?_⟩
    cases mem with
    | head => exact (le_max_right _ _).trans low
    | tail _ later => exact high e later

end Wal

end GlideFS.Block
