import GlideFS.Block.PackIndex
import GlideFS.Lib.Bytes

/-! # The bytes of a pack

A header, the compressed blocks by chunk offset, the index and a trailer with the block count.
A pack is either assembled in memory or streamed in parts of a fixed size; a reader fetches a
suffix of the object, and a second one when the first does not reach back to the index.
-/

namespace GlideFS.Block.PackFormat

open Lib

structure Blake3Hash where
  bytes : List UInt8
  size : bytes.length = 16
deriving DecidableEq

abbrev RawBlock : Type := PackBlock Blake3Hash
abbrev Entry : Type := PackIndexEntry Blake3Hash

/-- `b"GLPK"`. -/
def packMagic : List UInt8 := [71, 76, 80, 75]

def packVersion : Nat := 3

def packIndexEntrySize : Nat := 28

/-- `b"GLIX"`. -/
def trailerMagic : List UInt8 := [71, 76, 73, 88]

def trailerSize : Nat := 8

inductive PackError where
  | blockCount (count : Nat)
  | dataTooLong (atBlock : Nat)
  | tooSmallForTrailer
  | invalidTrailerMagic
  | suffixTooSmall (required got : Nat)

def packHeader (blockCount : Nat) (chunkSize : UInt32) : List UInt8 :=
  packMagic ++ leBytes 2 packVersion ++ leBytes 2 blockCount ++ leBytes 4 chunkSize.toNat ++
    List.replicate 4 0

def entryBytes (e : Entry) : List UInt8 :=
  e.hash.bytes ++ leBytes 4 e.chunkOffset ++ leBytes 4 e.offset ++ leBytes 4 e.compLength

def packTrailer (blockCount : Nat) : List UInt8 :=
  leBytes 2 blockCount ++ List.replicate 2 0 ++ trailerMagic

/-! ## In memory -/

/-- `compressed.len() as u32`. -/
def compLength (b : RawBlock) : Nat := b.compressed.length % 2 ^ 32

/-- The entries of the blocks after `done` others. -/
def indexBlocks (runningOffset done : Nat) : List RawBlock → Except PackError (List Entry)
  | [] => return []
  | b :: rest =>
      if 2 ^ 32 ≤ runningOffset + compLength b then .error (.dataTooLong (done + 1))
      else do
        let entries ← indexBlocks (runningOffset + compLength b) (done + 1) rest
        return ⟨b.hash, b.chunkOffset, runningOffset, compLength b⟩ :: entries

def assembleSorted (blocks : List RawBlock) (chunkSize : UInt32) :
    Except PackError (List UInt8 × List Entry) :=
  if 65535 < blocks.length then .error (.blockCount blocks.length)
  else do
    let entries ← indexBlocks packHeaderSize 0 blocks
    return (packHeader blocks.length chunkSize ++ blocks.flatMap PackBlock.compressed ++
      entries.flatMap entryBytes ++ packTrailer blocks.length, entries)

def assemblePack (blocks : List RawBlock) (chunkSize : UInt32) :
    Except PackError (List UInt8 × List Entry) :=
  assembleSorted (sortBlocks blocks) chunkSize

/-! ## In parts -/

/-- The parts handed to the upload so far, in order, and the bytes that wait for more. -/
structure BoundedMultipart where
  buffer : List UInt8
  partSize : Nat
  positive : 0 < partSize
  parts : List (List UInt8)

namespace BoundedMultipart

def newWithPartSize (partSize : Nat) (positive : 0 < partSize) : BoundedMultipart :=
  ⟨[], partSize, positive, []⟩

def spawnPart (w : BoundedMultipart) (bytes : List UInt8) : BoundedMultipart :=
  { w with parts := w.parts ++ [bytes] }

def flushFullParts (w : BoundedMultipart) : BoundedMultipart :=
  if w.partSize ≤ w.buffer.length then
    flushFullParts ({ w with buffer := w.buffer.drop w.partSize }.spawnPart
      (w.buffer.take w.partSize))
  else w
termination_by w.buffer.length
decreasing_by
  have := w.positive
  simp only [spawnPart, List.length_drop]
  omega

def write (w : BoundedMultipart) (data : List UInt8) : BoundedMultipart :=
  { w with buffer := w.buffer ++ data }.flushFullParts

/-- The parts of the finished upload; the object is their concatenation. -/
def finish (w : BoundedMultipart) : List (List UInt8) :=
  if w.buffer ≠ [] then (w.spawnPart w.buffer).parts else w.parts

/-- What was written, in parts or not. -/
def stream (w : BoundedMultipart) : List UInt8 := w.parts.flatten ++ w.buffer

theorem stream_flushFullParts (w : BoundedMultipart) : w.flushFullParts.stream = w.stream := by
  induction w using flushFullParts.induct with
  | case1 w full ih =>
    rw [flushFullParts, if_pos full, ih]
    simp [stream, spawnPart]
  | case2 w short => rw [flushFullParts, if_neg short]

@[simp] theorem stream_write (w : BoundedMultipart) (data : List UInt8) :
    (w.write data).stream = w.stream ++ data := by
  rw [write, stream_flushFullParts]
  simp [stream]

theorem flatten_finish (w : BoundedMultipart) : w.finish.flatten = w.stream := by
  unfold finish
  split
  · simp [spawnPart, stream]
  · simp_all [stream]

end BoundedMultipart

open BoundedMultipart

def streamBlocks (w : BoundedMultipart) (runningOffset done : Nat) :
    List RawBlock → Except PackError (BoundedMultipart × List Entry)
  | [] => return (w, [])
  | b :: rest =>
      if 2 ^ 32 ≤ runningOffset + compLength b then .error (.dataTooLong (done + 1))
      else do
        let (w, entries) ← streamBlocks (w.write b.compressed) (runningOffset + compLength b)
          (done + 1) rest
        return (w, ⟨b.hash, b.chunkOffset, runningOffset, compLength b⟩ :: entries)

def streamSorted (blocks : List RawBlock) (chunkSize : UInt32) (w : BoundedMultipart) :
    Except PackError (BoundedMultipart × List Entry) :=
  if 65535 < blocks.length then .error (.blockCount blocks.length)
  else do
    let w := w.write (packHeader blocks.length chunkSize)
    let (w, entries) ← streamBlocks w packHeaderSize 0 blocks
    let w := entries.foldl (fun w e => w.write (entryBytes e)) w
    return (w.write (packTrailer blocks.length), entries)

def streamPackToWriter (blocks : List RawBlock) (chunkSize : UInt32) (w : BoundedMultipart) :
    Except PackError (BoundedMultipart × List Entry) :=
  streamSorted (sortBlocks blocks) chunkSize w

/-- The loop writes the blocks one after the other and fails where the index does. -/
theorem streamBlocks_eq (w : BoundedMultipart) (runningOffset done : Nat) (blocks : List RawBlock) :
    (streamBlocks w runningOffset done blocks).map (fun r => (r.1.stream, r.2)) =
      (indexBlocks runningOffset done blocks).map fun entries =>
        (w.stream ++ blocks.flatMap PackBlock.compressed, entries) := by
  induction blocks generalizing w runningOffset done with
  | nil => simp [streamBlocks, indexBlocks, pure, Except.pure, Except.map]
  | cons b rest ih =>
    have next := ih (w.write b.compressed) (runningOffset + compLength b) (done + 1)
    unfold streamBlocks indexBlocks
    split
    · rfl
    · cases streamed : streamBlocks (w.write b.compressed) (runningOffset + compLength b)
          (done + 1) rest <;>
        cases indexed : indexBlocks (runningOffset + compLength b) (done + 1) rest <;>
        simp_all [Except.map, bind, Except.bind, pure, Except.pure]

theorem stream_foldl_write (w : BoundedMultipart) (entries : List Entry) :
    (entries.foldl (fun w e => w.write (entryBytes e)) w).stream =
      w.stream ++ entries.flatMap entryBytes := by
  induction entries generalizing w with
  | nil => simp
  | cons e rest ih => simp [ih]

/-- Streaming a pack and assembling it come to the same, errors included. -/
theorem streamSorted_eq (blocks : List RawBlock) (chunkSize : UInt32) (w : BoundedMultipart) :
    (streamSorted blocks chunkSize w).map (fun r => (r.1.stream, r.2)) =
      (assembleSorted blocks chunkSize).map fun r => (w.stream ++ r.1, r.2) := by
  unfold streamSorted assembleSorted
  split
  · rfl
  · have loop := streamBlocks_eq (w.write (packHeader blocks.length chunkSize)) packHeaderSize 0
      blocks
    cases streamed : streamBlocks (w.write (packHeader blocks.length chunkSize)) packHeaderSize 0
        blocks <;>
      cases indexed : indexBlocks packHeaderSize 0 blocks <;>
      simp_all [Except.map, bind, Except.bind, pure, Except.pure, stream_foldl_write]

/-! ## Reading the index -/

abbrev Parse : Type → Type := Except (Fault PackError)

def hashAt {ε : Type} (data : List UInt8) (pos : Nat) : Except (Fault ε) Blake3Hash :=
  if h : ((data.drop pos).take 16).length = 16 then .ok ⟨(data.drop pos).take 16, h⟩
  else .error .panic

structure ParsedIndex where
  blockCount : Nat
  chunkSize : Nat
  entries : List Entry

def readEntries (data : List UInt8) : Nat → Nat → Parse (List Entry)
  | 0, _ => return []
  | n + 1, base => do
      let hash ← hashAt data base
      let chunkOffset ← leAt data (base + 16) 4
      let offset ← leAt data (base + 20) 4
      let compLength ← leAt data (base + 24) 4
      let rest ← readEntries data n (base + 28)
      return ⟨hash, chunkOffset, offset, compLength⟩ :: rest

/-- The chunk size, where the data is the whole pack. -/
def headerChunkSize (data : List UInt8) : Parse Nat :=
  if packHeaderSize ≤ data.length then do
    let magic ← bytesAt data 0 4
    if magic = packMagic then leAt data 8 4 else return 0
  else return 0

def parsePackIndex (data : List UInt8) : Parse ParsedIndex :=
  if data.length < trailerSize then .error (.error .tooSmallForTrailer)
  else do
    let trailerStart := data.length - trailerSize
    let magic ← bytesAt data (trailerStart + 4) 4
    if magic ≠ trailerMagic then .error (.error .invalidTrailerMagic)
    else
      let blockCount ← leAt data trailerStart 2
      let indexSize := blockCount * packIndexEntrySize
      if data.length < indexSize + trailerSize then
        .error (.error (.suffixTooSmall (indexSize + trailerSize) data.length))
      else
        let chunkSize ← headerChunkSize data
        let entries ← readEntries data blockCount (trailerStart - indexSize)
        return ⟨blockCount, chunkSize, entries⟩

/-- `GetRange::Suffix`: the last bytes of an object, or all of it when it has fewer. -/
def getSuffix (object : List UInt8) (n : Nat) : List UInt8 := object.drop (object.length - n)

def initialSuffix : Nat := 16 * 1024

/-- The first read takes the last `initial` bytes. -/
def getPackIndexFrom (initial : Nat) (object : List UInt8) : Parse (List Entry) :=
  let data := getSuffix object initial
  match parsePackIndex data with
  | .ok index => return index.entries
  | .error (.error (.suffixTooSmall _ _)) =>
      if data.length < trailerSize then .error (.error .tooSmallForTrailer)
      else do
        let blockCount ← leAt data (data.length - trailerSize) 2
        let index ← parsePackIndex
          (getSuffix object (blockCount * packIndexEntrySize + trailerSize))
        return index.entries
  | .error e => .error e

def getPackIndex (object : List UInt8) : Parse (List Entry) :=
  getPackIndexFrom initialSuffix object

/-! ## What is written reads back -/

structure Packable (blocks : List RawBlock) : Prop where
  few : blocks.length ≤ 65535
  distinct : (blocks.map PackBlock.chunkOffset).Nodup
  chunkOffset_lt : ∀ b ∈ blocks, b.chunkOffset < 2 ^ 32
  small : packHeaderSize + (blocks.flatMap PackBlock.compressed).length < 2 ^ 32

/-- The fields are numbers of 32 bits. -/
structure InU32 (e : Entry) : Prop where
  chunkOffset : e.chunkOffset < 2 ^ 32
  offset : e.offset < 2 ^ 32
  compLength : e.compLength < 2 ^ 32

section

variable {data object : List UInt8} {entries : List Entry} {blocks : List RawBlock}

theorem hashAt_holds {ε : Type} {pos : Nat} {hash : Blake3Hash}
    (holds : Holds data pos hash.bytes) :
    (hashAt data pos : Except (Fault ε) _) = .ok hash := by
  obtain ⟨-, same⟩ := holds
  rw [hash.size] at same
  have size : ((data.drop pos).take 16).length = 16 := by rw [same, hash.size]
  rw [hashAt, dif_pos size]
  simp only [same]

@[simp] theorem length_entryBytes (e : Entry) : (entryBytes e).length = 28 := by
  simp [entryBytes, e.hash.size]

@[simp] theorem length_packTrailer (n : Nat) : (packTrailer n).length = 8 := by
  simp [packTrailer, trailerMagic]

@[simp] theorem length_packHeader (n : Nat) (chunkSize : UInt32) :
    (packHeader n chunkSize).length = packHeaderSize := by
  simp [packHeader, packMagic, packHeaderSize]

theorem length_index (entries : List Entry) :
    (entries.flatMap entryBytes).length = entries.length * 28 := by
  simp [List.length_flatMap]

theorem readEntries_holds {base : Nat} (fields : ∀ e ∈ entries, InU32 e)
    (holds : Holds data base (entries.flatMap entryBytes)) :
    readEntries data entries.length base = .ok entries := by
  induction entries generalizing base with
  | nil => rfl
  | cons e rest ih =>
    have field := fields e List.mem_cons_self
    rw [List.flatMap_cons, holds_append, length_entryBytes] at holds
    obtain ⟨here, later⟩ := holds
    have others := ih (fun e' mem => fields e' (List.mem_cons_of_mem e mem)) later
    simp only [entryBytes, holds_append, List.length_append, length_leBytes, e.hash.size] at here
    obtain ⟨⟨⟨hash, chunkOffset⟩, offset⟩, compLength⟩ := here
    rw [List.length_cons, readEntries, hashAt_holds hash]
    simp [chunkOffset.leAt field.chunkOffset, offset.leAt field.offset,
      compLength.leAt field.compLength, others, bind, Except.bind, pure, Except.pure]

theorem headerChunkSize_ok (data : List UInt8) : ∃ n, headerChunkSize data = .ok n := by
  have safe : Ends (fun _ => False) (fun _ => True) (headerChunkSize data) := by
    unfold headerChunkSize
    split
    · rename_i long
      simp only [packHeaderSize] at long
      apply (bytesAt_ends (by omega)).bind
      intro magic _
      split
      · exact (leAt_ends (by omega)).mono fun _ _ => trivial
      · trivial
    · trivial
  cases read : headerChunkSize data with
  | ok n => exact ⟨n, rfl⟩
  | error e =>
    rw [read] at safe
    exact safe.elim

/-- What a suffix that ends in a trailer parses as. -/
theorem parsePackIndex_trailer (front : List UInt8) {count : Nat} (few : count ≤ 65535) :
    parsePackIndex (front ++ packTrailer count) =
      if front.length < count * 28 then
        .error (.error (.suffixTooSmall (count * 28 + 8) (front.length + 8)))
      else do
        let chunkSize ← headerChunkSize (front ++ packTrailer count)
        let entries ← readEntries (front ++ packTrailer count) count (front.length - count * 28)
        return ⟨count, chunkSize, entries⟩ := by
  have holds := (holds_append.mp (Holds.whole (front ++ packTrailer count))).2
  have length : (front ++ packTrailer count).length = front.length + 8 := by simp
  generalize front ++ packTrailer count = data at holds length
  simp only [packTrailer, holds_append, List.length_append, length_leBytes, Nat.zero_add,
    List.length_replicate] at holds
  obtain ⟨⟨atCount, -⟩, atMagic⟩ := holds
  have magic : bytesAt data (front.length + 4) 4 = (.ok trailerMagic : Parse _) :=
    atMagic.bytesAt rfl
  have blockCount : leAt data front.length 2 = (.ok count : Parse _) := atCount.leAt (by omega)
  rw [parsePackIndex, length]
  simp only [trailerSize, packIndexEntrySize, Nat.add_sub_cancel, magic, blockCount, bind,
    Except.bind, ne_eq, not_true_eq_false, if_false, Nat.add_lt_add_iff_right]
  rw [if_neg (by omega)]

theorem parsePackIndex_index (front : List UInt8) (few : entries.length ≤ 65535)
    (fields : ∀ e ∈ entries, InU32 e) :
    ∃ chunkSize, parsePackIndex (front ++ entries.flatMap entryBytes ++ packTrailer entries.length) =
      .ok ⟨entries.length, chunkSize, entries⟩ := by
  obtain ⟨chunkSize, header⟩ := headerChunkSize_ok
    (front ++ entries.flatMap entryBytes ++ packTrailer entries.length)
  have holds := Holds.whole (front ++ entries.flatMap entryBytes ++ packTrailer entries.length)
  have index := (holds_append.mp (holds_append.mp holds).1).2
  have start : (front ++ entries.flatMap entryBytes).length - entries.length * 28 =
      0 + front.length := by
    rw [List.length_append, length_index]
    omega
  refine ⟨chunkSize, ?_⟩
  rw [parsePackIndex_trailer _ few, if_neg (by rw [List.length_append, length_index]; omega), start,
    header, readEntries_holds fields index]
  rfl

theorem getSuffix_append (front : List UInt8) {tail : List UInt8} {n : Nat}
    (reaches : tail.length ≤ n) :
    getSuffix (front ++ tail) n = front.drop (front.length + tail.length - n) ++ tail := by
  rw [getSuffix, List.length_append, List.drop_append_of_le_length (by omega)]

/-- The second read is sized by the count that the first one found. -/
theorem getPackIndexFrom_index {initial : Nat} (room : 8 ≤ initial) (front : List UInt8)
    (few : entries.length ≤ 65535) (fields : ∀ e ∈ entries, InU32 e) :
    getPackIndexFrom initial (front ++ entries.flatMap entryBytes ++ packTrailer entries.length) =
      .ok entries := by
  have parse : ∀ n, entries.length * 28 + 8 ≤ n → ∃ chunkSize, parsePackIndex
      (getSuffix (front ++ entries.flatMap entryBytes ++ packTrailer entries.length) n) =
        .ok ⟨entries.length, chunkSize, entries⟩ := by
    intro n reaches
    have fits : (entries.flatMap entryBytes ++ packTrailer entries.length).length ≤ n := by
      simpa [length_index] using reaches
    rw [List.append_assoc, getSuffix_append front fits, ← List.append_assoc]
    exact parsePackIndex_index _ few fields
  unfold getPackIndexFrom
  by_cases reaches : entries.length * 28 + 8 ≤ initial
  · obtain ⟨chunkSize, parsed⟩ := parse _ reaches
    simp only [parsed, pure, Except.pure]
  · obtain ⟨chunkSize, parsed⟩ := parse _ (le_refl _)
    have index := length_index entries
    have short := getSuffix_append (front ++ entries.flatMap entryBytes)
      ((length_packTrailer entries.length).trans_le room)
    dsimp only
    rw [short]
    generalize rest : (front ++ entries.flatMap entryBytes).drop _ = part
    have length : part.length + 8 = initial := by
      simp only [← rest, List.length_drop, List.length_append, length_packTrailer, index]
      omega
    have trailer := (holds_append.mp (Holds.whole (part ++ packTrailer entries.length))).2
    have atCount : leAt (part ++ packTrailer entries.length) part.length 2 =
        (.ok entries.length : Parse _) := by
      simp only [packTrailer, holds_append, Nat.zero_add] at trailer
      exact Holds.leAt trailer.1.1 (by omega)
    rw [parsePackIndex_trailer part few, if_pos (by omega)]
    have size : (part ++ packTrailer entries.length).length - trailerSize = part.length := by
      simp [trailerSize]
    simp only [size, atCount, bind, Except.bind]
    rw [if_neg (by simp [trailerSize])]
    simp only [packIndexEntrySize, trailerSize, parsed, pure, Except.pure]

theorem indexBlocks_layOut {offset : Nat} (done : Nat)
    (small : offset + (blocks.flatMap PackBlock.compressed).length < 2 ^ 32) :
    ∃ es, indexBlocks offset done blocks = .ok es ∧ layOut offset blocks = some es := by
  induction blocks generalizing offset done with
  | nil => exact ⟨[], rfl, rfl⟩
  | cons b rest ih =>
    rw [List.flatMap_cons, List.length_append, ← Nat.add_assoc] at small
    obtain ⟨es, indexed, laid⟩ := ih (done + 1) small
    have length : compLength b = b.compressed.length := Nat.mod_eq_of_lt (by omega)
    refine ⟨⟨b.hash, b.chunkOffset, offset, b.compressed.length⟩ :: es, ?_, ?_⟩
    · rw [indexBlocks, length, if_neg (by omega), indexed]
      rfl
    · rw [layOut, if_pos (by omega), laid]
      rfl

theorem Packable.sorted (packable : Packable blocks) : Packable (sortBlocks blocks) := by
  have perm : (sortBlocks blocks).Perm blocks := List.perm_insertionSort _ blocks
  refine ⟨perm.length_eq ▸ packable.few, (perm.map _).nodup_iff.mpr packable.distinct,
    fun b mem => packable.chunkOffset_lt b (perm.mem_iff.mp mem), ?_⟩
  rw [(perm.flatMap_right _).length_eq]
  exact packable.small

end

/-- A pack of at most 65535 blocks with distinct offsets is the same object whether it is
    assembled in memory or streamed in parts of any size. Its index, read back in one or two
    reads, lists the blocks in the order of their offsets, and each at the place of its bytes. -/
theorem pack_round_trip (blocks : List RawBlock) (packable : Packable blocks) (chunkSize : UInt32)
    (partSize : Nat) (positive : 0 < partSize) :
    ∃ bytes entries w, assemblePack blocks chunkSize = .ok (bytes, entries) ∧
      streamPackToWriter blocks chunkSize (newWithPartSize partSize positive) = .ok (w, entries) ∧
      w.finish.flatten = bytes ∧
      getPackIndex bytes = .ok entries ∧
      entries.Pairwise (fun a b => a.chunkOffset < b.chunkOffset) ∧
      (sortBlocks blocks).Perm blocks ∧
      List.Forall₂ (PackIndexEntry.Describes bytes) (sortBlocks blocks) entries := by
  have perm : (sortBlocks blocks).Perm blocks := List.perm_insertionSort _ blocks
  have sorted := packable.sorted
  obtain ⟨entries, indexed, laid⟩ := indexBlocks_layOut 0 sorted.small
  let front := packHeader (sortBlocks blocks).length chunkSize ++
    (sortBlocks blocks).flatMap PackBlock.compressed
  let footer := entries.flatMap entryBytes ++ packTrailer (sortBlocks blocks).length
  have assembled : assemblePack blocks chunkSize = .ok (front ++ footer, entries) := by
    rw [assemblePack, assembleSorted, if_neg (not_lt.mpr sorted.few), indexed]
    simp [front, footer, bind, Except.bind, pure, Except.pure]
  obtain ⟨w, streamed, written⟩ : ∃ w,
      streamPackToWriter blocks chunkSize (newWithPartSize partSize positive) = .ok (w, entries) ∧
        w.stream = front ++ footer := by
    have same := streamSorted_eq (sortBlocks blocks) chunkSize (newWithPartSize partSize positive)
    rw [← assemblePack, ← streamPackToWriter, assembled] at same
    obtain ⟨⟨w, es⟩, streamed, same⟩ := map_eq_ok.mp same
    obtain ⟨stream, rfl⟩ := Prod.mk.inj same
    exact ⟨w, streamed, stream⟩
  have laid' := laid
  rw [← length_packHeader (sortBlocks blocks).length chunkSize] at laid'
  have described := layOut_describes footer laid'
  have count : (sortBlocks blocks).length = entries.length := described.length_eq
  have fields : ∀ e ∈ entries, InU32 e := by
    intro e mem
    have place := (layOut_laid laid).1 e mem
    obtain ⟨b, listed, same⟩ : ∃ b ∈ sortBlocks blocks, b.chunkOffset = e.chunkOffset := by
      have offsets := List.mem_map_of_mem (f := PackIndexEntry.chunkOffset) mem
      rwa [layOut_chunkOffset laid, List.mem_map] at offsets
    exact ⟨same ▸ sorted.chunkOffset_lt b listed, by omega, by omega⟩
  refine ⟨front ++ footer, entries, w, assembled, streamed, (flatten_finish w).trans written, ?_,
    layOut_sorted packable.distinct laid, perm, described⟩
  have read := getPackIndexFrom_index (show 8 ≤ initialSuffix by decide) front (count ▸ sorted.few) fields
  rwa [List.append_assoc, ← count] at read

def zeroHash : Blake3Hash := ⟨List.replicate 16 0, rfl⟩

/-- Two blocks and a tombstone, out of order. -/
def threeBlocks : List RawBlock := [⟨zeroHash, 5, [1, 2]⟩, ⟨zeroHash, 2, []⟩, ⟨zeroHash, 9, [3]⟩]

theorem threeBlocks_packable : Packable threeBlocks where
  few := by decide
  distinct := by decide
  chunkOffset_lt := by decide
  small := by decide

theorem threeBlocks_round_trip :
    ∃ bytes entries w, streamPackToWriter threeBlocks 131072 (newWithPartSize 7 (by decide)) =
        .ok (w, entries) ∧
      w.finish.flatten = bytes ∧
      getPackIndex bytes = .ok entries ∧
      List.Forall₂ (PackIndexEntry.Describes bytes)
        [⟨zeroHash, 2, []⟩, ⟨zeroHash, 5, [1, 2]⟩, ⟨zeroHash, 9, [3]⟩] entries := by
  obtain ⟨bytes, entries, w, -, streamed, same, read, -, -, described⟩ :=
    pack_round_trip threeBlocks threeBlocks_packable 131072 7 (by decide)
  exact ⟨bytes, entries, w, streamed, same, read, described⟩

end GlideFS.Block.PackFormat
