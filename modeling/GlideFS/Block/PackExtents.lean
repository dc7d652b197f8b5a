import GlideFS.Block.PackFormat

/-! # Cached pack indices

On the disk tier of the cache a pack's index is stored as extents: a first chunk offset, a count
of consecutive offsets and for each block its hash and compressed length. The places of the
blocks are left out, they follow from the lengths.
-/

namespace GlideFS.Block.PackExtents

open Lib PackFormat

/-- `None` is the error without a value. -/
abbrev Decode : Type → Type := Except (Fault Unit)

def decodeNone {α : Type} : Decode α := .error (.error ())

/-- An addition of 32 bits; every build checks it for overflow. -/
def addU32 (a b : Nat) : Decode Nat := if a + b < 2 ^ 32 then .ok (a + b) else .error .panic

/-! ## Encoding -/

def blockBytes (e : Entry) : List UInt8 := e.hash.bytes ++ leBytes 4 e.compLength

/-- The inner loop: how long an extent of `n` blocks becomes with the entries after it. -/
def runLength (startOffset n : Nat) : List Entry → Decode Nat
  | [] => return n
  | e :: rest => do
      let expected ← addU32 startOffset n
      if e.chunkOffset = expected ∧ n < 65535 then runLength startOffset (n + 1) rest
      else return n

def extentEncode : List Entry → Decode (List UInt8)
  | [] => return []
  | e :: rest => do
      let count ← runLength e.chunkOffset 1 rest
      let later ← extentEncode (rest.drop (count - 1))
      return leBytes 4 e.chunkOffset ++ leBytes 2 count ++
        (e :: rest.take (count - 1)).flatMap blockBytes ++ later
termination_by entries => entries.length
decreasing_by
  simp only [List.length_drop, List.length_cons]
  omega

/-! ## Decoding -/

/-- The blocks of one extent from its `j`th on, and where the next block of the pack begins. -/
def decodeBlocks (data : List UInt8) (startChunkOffset : Nat) :
    Nat → Nat → Nat → Nat → Decode (List Entry × Nat)
  | 0, _, _, packOffset => return ([], packOffset)
  | n + 1, j, pos, packOffset =>
      if data.length < pos + 20 then decodeNone
      else do
        let hash ← hashAt data pos
        let compLength ← leAt data (pos + 16) 4
        let chunkOffset ← addU32 startChunkOffset j
        let next ← addU32 packOffset compLength
        let (rest, final) ← decodeBlocks data startChunkOffset n (j + 1) (pos + 20) next
        return (⟨hash, chunkOffset, packOffset, compLength⟩ :: rest, final)

def decodeFrom (data : List UInt8) (pos packOffset : Nat) : Decode (List Entry) :=
  if pos + 6 ≤ data.length then do
    let startChunkOffset ← leAt data pos 4
    let count ← leAt data (pos + 4) 2
    let (blocks, packOffset) ← decodeBlocks data startChunkOffset count 0 (pos + 6) packOffset
    let rest ← decodeFrom data (pos + 6 + count * 20) packOffset
    return blocks ++ rest
  else if pos ≠ data.length then decodeNone
  else return []
termination_by data.length - pos

def extentDecode (data : List UInt8) : Decode (List Entry) := decodeFrom data 0 packHeaderSize

/-! ## What the writer produces reads back -/

/-- Each block begins where the one before it ends, and the last ends within 32 bits. -/
def Cumulative : Nat → List Entry → Prop
  | offset, [] => offset < 2 ^ 32
  | offset, e :: rest => e.offset = offset ∧ Cumulative (offset + e.compLength) rest

/-- An index as the pack writer produces it. -/
structure Written (entries : List Entry) : Prop where
  sorted : entries.Pairwise fun a b => a.chunkOffset < b.chunkOffset
  chunkOffset_lt : ∀ e ∈ entries, e.chunkOffset < 2 ^ 32
  laid : Cumulative packHeaderSize entries

def dataEnd (offset : Nat) (entries : List Entry) : Nat :=
  offset + (entries.map PackIndexEntry.compLength).sum

section

variable {data : List UInt8} {entries : List Entry} {offset : Nat}

theorem Cumulative.dataEnd_lt (laid : Cumulative offset entries) :
    dataEnd offset entries < 2 ^ 32 := by
  induction entries generalizing offset with
  | nil => simpa [dataEnd, Cumulative] using laid
  | cons e rest ih => simpa [dataEnd, Nat.add_assoc] using ih laid.2

theorem cumulative_append {a b : List Entry} :
    Cumulative offset (a ++ b) → Cumulative (dataEnd offset a) b := by
  induction a generalizing offset with
  | nil => exact id
  | cons e rest ih =>
    intro laid
    simpa [dataEnd, Nat.add_assoc] using ih laid.2

theorem Cumulative.left {a b : List Entry} (laid : Cumulative offset (a ++ b)) :
    Cumulative offset a := by
  induction a generalizing offset with
  | nil =>
    have small := laid.dataEnd_lt
    simp only [dataEnd, List.nil_append] at small
    exact lt_of_le_of_lt (Nat.le_add_right _ _) small
  | cons e rest ih => exact ⟨laid.1, ih laid.2⟩

/-- An extent takes entries with consecutive offsets, and at most 65535 of them. -/
theorem runLength_spec {start n : Nat} (few : n ≤ 65535)
    (sorted : entries.Pairwise fun a b => a.chunkOffset < b.chunkOffset)
    (after : ∀ e ∈ entries, start + n ≤ e.chunkOffset ∧ e.chunkOffset < 2 ^ 32) :
    ∃ more, runLength start n entries = .ok (n + more) ∧ n + more ≤ 65535 ∧
      (entries.take more).map PackIndexEntry.chunkOffset = List.range' (start + n) more := by
  induction entries generalizing n with
  | nil => exact ⟨0, rfl, few, rfl⟩
  | cons e rest ih =>
    obtain ⟨first, later⟩ := List.pairwise_cons.mp sorted
    have here := after e List.mem_cons_self
    have expected : addU32 start n = .ok (start + n) := if_pos (by omega)
    rw [runLength, expected]
    by_cases goes : e.chunkOffset = start + n ∧ n < 65535
    · obtain ⟨more, run, small, consecutive⟩ := ih goes.2 later (fun e' mem => by
        have := first e' mem
        have := (after e' (List.mem_cons_of_mem e mem)).2
        omega)
      refine ⟨more + 1, ?_, by omega, ?_⟩
      · simp only [bind, Except.bind, if_pos goes, run]
        exact congrArg Except.ok (by omega)
      · rw [List.take_succ_cons, List.map_cons, consecutive, goes.1, List.range'_succ]
        rfl
    · exact ⟨0, by simp [bind, Except.bind, goes, pure, Except.pure], few, rfl⟩

@[simp] theorem length_blockBytes (e : Entry) : (blockBytes e).length = 20 := by
  simp [blockBytes, e.hash.size]

theorem length_blocks (entries : List Entry) :
    (entries.flatMap blockBytes).length = entries.length * 20 := by
  simp [List.length_flatMap]

theorem decodeBlocks_holds {start j pos : Nat} (laid : Cumulative offset entries)
    (chunkOffset_lt : ∀ e ∈ entries, e.chunkOffset < 2 ^ 32)
    (consecutive : entries.map PackIndexEntry.chunkOffset = List.range' (start + j) entries.length)
    (holds : Holds data pos (entries.flatMap blockBytes)) :
    decodeBlocks data start entries.length j pos offset = .ok (entries, dataEnd offset entries) := by
  induction entries generalizing j pos offset with
  | nil => rfl
  | cons e rest ih =>
    obtain ⟨rfl, laid⟩ := laid
    have small := laid.dataEnd_lt
    have e_lt := chunkOffset_lt e List.mem_cons_self
    rw [List.map_cons, List.length_cons, List.range'_succ, List.cons.injEq] at consecutive
    obtain ⟨here, later⟩ := consecutive
    rw [Nat.add_assoc] at later
    rw [List.flatMap_cons, holds_append, length_blockBytes] at holds
    obtain ⟨block, others⟩ := holds
    have inside := block.1
    rw [length_blockBytes] at inside
    simp only [blockBytes, holds_append, e.hash.size] at block
    have hash : (hashAt data pos : Decode _) = .ok e.hash := hashAt_holds block.1
    have length : (leAt data (pos + 16) 4 : Decode _) = .ok e.compLength :=
      block.2.leAt (by simp only [dataEnd] at small; omega)
    have number : addU32 start j = .ok e.chunkOffset := by
      rw [addU32, if_pos (by omega), here]
    have next : addU32 e.offset e.compLength = .ok (e.offset + e.compLength) :=
      if_pos (by simp only [dataEnd] at small; omega)
    have tail := ih laid (fun e' mem => chunkOffset_lt e' (List.mem_cons_of_mem e mem)) later others
    rw [List.length_cons, decodeBlocks, if_neg (by omega), hash]
    simp only [bind, Except.bind, length, number, next, tail, pure, Except.pure, dataEnd,
      List.map_cons, List.sum_cons, Nat.add_assoc]

theorem extentEncode_holds (sorted : entries.Pairwise fun a b => a.chunkOffset < b.chunkOffset)
    (chunkOffset_lt : ∀ e ∈ entries, e.chunkOffset < 2 ^ 32) (laid : Cumulative offset entries) :
    ∃ bytes, extentEncode entries = .ok bytes ∧
      ∀ data pos, Holds data pos bytes → pos + bytes.length = data.length →
        decodeFrom data pos offset = .ok entries := by
  induction entries using extentEncode.induct generalizing offset with
  | case1 =>
    refine ⟨[], by rw [extentEncode]; rfl, ?_⟩
    intro data pos _ ends
    rw [List.length_nil, Nat.add_zero] at ends
    rw [decodeFrom, if_neg (by omega), if_neg (by simpa using ends)]
    rfl
  | case2 e rest ih =>
    obtain ⟨first, later⟩ := List.pairwise_cons.mp sorted
    have e_lt := chunkOffset_lt e List.mem_cons_self
    have rest_lt : ∀ e' ∈ rest, e'.chunkOffset < 2 ^ 32 :=
      fun e' mem => chunkOffset_lt e' (List.mem_cons_of_mem e mem)
    obtain ⟨more, run, few, consecutive⟩ := runLength_spec (show 1 ≤ 65535 by omega) later
      fun e' mem => ⟨first e' mem, rest_lt e' mem⟩
    -- the extent and what follows it
    let extent := e :: rest.take more
    have parts : e :: rest = extent ++ rest.drop more := by simp [extent]
    rw [parts] at laid
    have numbers : extent.map PackIndexEntry.chunkOffset =
        List.range' (e.chunkOffset + 0) extent.length := by
      have length : (rest.take more).length = more := by
        simpa using congrArg List.length consecutive
      simp [extent, consecutive, length, List.range'_succ]
    have count : extent.length = 1 + more := by
      have length := congrArg List.length consecutive
      simp only [List.length_map, List.length_range'] at length
      simp [extent, length, Nat.add_comm]
    obtain ⟨bytes, encoded, decoded⟩ := ih (1 + more)
      (by simpa using later.drop) (fun e' mem => rest_lt e' (List.mem_of_mem_drop mem))
      (by simpa using cumulative_append laid)
    simp only [Nat.add_sub_cancel_left] at encoded decoded
    refine ⟨leBytes 4 e.chunkOffset ++ leBytes 2 (1 + more) ++ extent.flatMap blockBytes ++ bytes,
      ?_, ?_⟩
    · rw [extentEncode, run]
      simp only [bind, Except.bind, Nat.add_sub_cancel_left, encoded]
      rfl
    · intro data pos holds ends
      simp only [holds_append, List.length_append, length_leBytes, length_blocks, count]
        at holds ends
      obtain ⟨⟨⟨atStart, atCount⟩, atBlocks⟩, atRest⟩ := holds
      have start : (leAt data pos 4 : Decode _) = .ok e.chunkOffset := atStart.leAt e_lt
      have number : (leAt data (pos + 4) 2 : Decode _) = .ok (1 + more) :=
        atCount.leAt (by omega)
      have extent_lt : ∀ e' ∈ extent, e'.chunkOffset < 2 ^ 32 := by
        intro e' mem
        apply chunkOffset_lt
        rw [parts]
        exact List.mem_append_left _ mem
      rw [← Nat.add_assoc] at atRest
      have blocks := decodeBlocks_holds laid.left extent_lt numbers atBlocks
      have rest := decoded data (pos + 6 + (1 + more) * 20) atRest (by omega)
      rw [count] at blocks
      rw [decodeFrom, if_pos (by omega), start]
      simp only [bind, Except.bind, number, blocks, rest, parts, pure, Except.pure]

end

/-! ## Which inputs overflow -/

/-- A block as the data lists it: the first offset of its extent, its place in the extent and its
    compressed length. -/
structure Listed where
  start : Nat
  place : Nat
  compLength : Nat

def numberAt (data : List UInt8) (pos k : Nat) : Nat := ofLeBytes ((data.drop pos).take k)

def listedBlocks (data : List UInt8) (start : Nat) : Nat → Nat → Nat → List Listed
  | 0, _, _ => []
  | n + 1, j, pos =>
      if data.length < pos + 20 then []
      else ⟨start, j, numberAt data (pos + 16) 4⟩ :: listedBlocks data start n (j + 1) (pos + 20)

/-- The blocks listed from a position on, as far as the data reaches. -/
def listedFrom (data : List UInt8) (pos : Nat) : List Listed :=
  if pos + 6 ≤ data.length then
    listedBlocks data (numberAt data pos 4) (numberAt data (pos + 4) 2) 0 (pos + 6) ++
      listedFrom data (pos + 6 + numberAt data (pos + 4) 2 * 20)
  else []
termination_by data.length - pos

def Fits (offset : Nat) (listed : List Listed) : Prop :=
  (∀ b ∈ listed, b.start + b.place < 2 ^ 32) ∧
    offset + (listed.map Listed.compLength).sum < 2 ^ 32

/-- All chunk offsets and all places of the listed blocks are numbers of 32 bits. -/
def NoOverflow (data : List UInt8) : Prop := Fits packHeaderSize (listedFrom data 0)

section

variable {data : List UInt8} {pos offset : Nat}

theorem leAt_eq {k : Nat} (inside : pos + k ≤ data.length) :
    (leAt data pos k : Decode _) = .ok (numberAt data pos k) := by
  rw [leAt, bytesAt, if_pos inside]
  rfl

theorem hashAt_eq (inside : pos + 16 ≤ data.length) :
    ∃ hash, (hashAt data pos : Decode _) = .ok hash := by
  have size : ((data.drop pos).take 16).length = 16 := by
    rw [List.length_take, List.length_drop]
    omega
  exact ⟨⟨_, size⟩, dif_pos size⟩

theorem fits_nil : Fits offset [] ↔ offset < 2 ^ 32 := by
  simp [Fits]

theorem fits_cons {b : Listed} {listed : List Listed} :
    Fits offset (b :: listed) ↔
      b.start + b.place < 2 ^ 32 ∧ Fits (offset + b.compLength) listed := by
  simp [Fits, and_assoc, Nat.add_assoc]

/-- The blocks of one extent: an overflow stops with a panic, the end of the data with `None`. -/
theorem decodeBlocks_cases (data : List UInt8) (start n j pos : Nat) (small : offset < 2 ^ 32) :
    let listed := listedBlocks data start n j pos
    (¬Fits offset listed ∧ decodeBlocks data start n j pos offset = .error .panic) ∨
    (Fits offset listed ∧ data.length < pos + n * 20 ∧
      decodeBlocks data start n j pos offset = decodeNone) ∨
    (Fits offset listed ∧ ∃ blocks, decodeBlocks data start n j pos offset =
      .ok (blocks, offset + (listed.map Listed.compLength).sum)) := by
  induction n generalizing j pos offset with
  | zero => exact .inr (.inr ⟨fits_nil.mpr small, [], rfl⟩)
  | succ n ih =>
    unfold listedBlocks decodeBlocks
    split
    · exact .inr (.inl ⟨fits_nil.mpr small, by omega, rfl⟩)
    · obtain ⟨hash, atHash⟩ := hashAt_eq (show pos + 16 ≤ data.length by omega)
      have atLength := leAt_eq (show pos + 16 + 4 ≤ data.length by omega)
      rw [atHash]
      simp only [fits_cons, bind, Except.bind, atLength, List.map_cons, List.sum_cons]
      generalize numberAt data (pos + 16) 4 = compLength
      by_cases number : start + j < 2 ^ 32
      · by_cases next : offset + compLength < 2 ^ 32
        · rw [addU32, if_pos number, addU32, if_pos next]
          rcases ih (j + 1) (pos + 20) next with ⟨overflows, run⟩ | ⟨fits, short, run⟩ |
            ⟨fits, blocks, run⟩
          · exact .inl ⟨fun fits => overflows fits.2, by simp only [run]⟩
          · exact .inr (.inl ⟨⟨number, fits⟩, by omega, by simp only [run]; rfl⟩)
          · refine .inr (.inr ⟨⟨number, fits⟩, ⟨hash, start + j, offset, compLength⟩ :: blocks, ?_⟩)
            simp only [run, ← Nat.add_assoc]
            rfl
        · refine .inl ⟨fun fits => next ?_, by rw [addU32, if_pos number, addU32, if_neg next]⟩
          exact lt_of_le_of_lt (Nat.le_add_right _ _) fits.2.2
      · exact .inl ⟨fun fits => number fits.1, by rw [addU32, if_neg number]⟩

theorem fits_append {a b : List Listed} :
    Fits offset (a ++ b) ↔ Fits offset a ∧ Fits (offset + (a.map Listed.compLength).sum) b := by
  induction a generalizing offset with
  | nil =>
    simp only [List.nil_append, List.map_nil, List.sum_nil, Nat.add_zero, iff_and_self, fits_nil]
    exact fun fits => lt_of_le_of_lt (Nat.le_add_right _ _) fits.2
  | cons x rest ih =>
    simp only [List.cons_append, fits_cons, ih, and_assoc, List.map_cons, List.sum_cons,
      Nat.add_assoc]

theorem listedFrom_past (past : data.length < pos + 6) : listedFrom data pos = [] := by
  rw [listedFrom, if_neg (by omega)]

theorem decodeFrom_panics (small : offset < 2 ^ 32) :
    decodeFrom data pos offset = .error .panic ↔ ¬Fits offset (listedFrom data pos) := by
  fun_induction listedFrom data pos generalizing offset with
  | case1 pos inside ih =>
    rw [fits_append, decodeFrom, if_pos inside, leAt_eq (by omega)]
    simp only [bind, Except.bind, leAt_eq (show pos + 4 + 2 ≤ data.length by omega)]
    generalize numberAt data (pos + 4) 2 = count at ih
    rcases decodeBlocks_cases data (numberAt data pos 4) count 0 (pos + 6) small with
      ⟨overflows, run⟩ | ⟨fits, short, run⟩ | ⟨fits, blocks, run⟩
    · simp [run, overflows]
    · have past := listedFrom_past (show data.length < pos + 6 + count * 20 + 6 by omega)
      simp only [run, past, fits, fits_nil, fits.2, decodeNone, and_true, not_true_eq_false,
        iff_false]
      nofun
    · simp only [run, fits, true_and, ← ih fits.2]
      cases decodeFrom data (pos + 6 + count * 20) _ <;> simp [pure, Except.pure]
  | case2 pos outside =>
    have fits : Fits offset [] := fits_nil.mpr small
    rw [decodeFrom, if_neg outside]
    split <;> simp [fits, decodeNone, pure, Except.pure]

end

/-- Every index a pack writer produces comes back from its encoding; the cache's zstd layer and
    its limit of 1 MiB are left out. Decoding stays inside its input, and ends with a value or with
    `None` exactly if no listed offset exceeds 32 bits. -/
theorem extents_round_trip (entries : List Entry) (data : List UInt8) :
    (Written entries →
      ∃ bytes, extentEncode entries = .ok bytes ∧ extentDecode bytes = .ok entries) ∧
    (extentDecode data ≠ .error .panic ↔ NoOverflow data) := by
  constructor
  · intro written
    obtain ⟨bytes, encoded, decoded⟩ :=
      extentEncode_holds written.sorted written.chunkOffset_lt written.laid
    exact ⟨bytes, encoded, decoded bytes 0 (Holds.whole bytes) (Nat.zero_add _)⟩
  · rw [extentDecode, ne_eq, decodeFrom_panics (by decide), not_not, NoOverflow]

/-- Two extents, the second a tombstone. -/
def twoExtents : List Entry := [⟨zeroHash, 3, 16, 5⟩, ⟨zeroHash, 4, 21, 2⟩, ⟨zeroHash, 9, 23, 0⟩]

theorem twoExtents_round_trip :
    ∃ bytes, extentEncode twoExtents = .ok bytes ∧ extentDecode bytes = .ok twoExtents :=
  (extents_round_trip twoExtents []).1 ⟨by decide, by decide, by simp [Cumulative, twoExtents,
    packHeaderSize]⟩

/-- An extent of two blocks that begins at the last chunk offset. -/
def overflowing : List UInt8 := [255, 255, 255, 255, 2, 0] ++ List.replicate 40 0

theorem overflowing_panics : extentDecode overflowing = .error .panic := by
  rw [extentDecode, decodeFrom]
  rfl

end GlideFS.Block.PackExtents
