import GlideFS.Block.VolumeManifest
import Mathlib.Data.List.Sort

/-! # Pack indices

The footer of a pack lists its blocks by chunk offset: the hash of each, where its
compressed bytes begin in the object and how many there are. The blocks follow one
another without a gap; a tombstone takes no bytes, so it begins where the next
block begins.
-/

namespace GlideFS.Block

structure PackIndexEntry (Hash : Type) where
  hash : Hash
  chunkOffset : Nat
  offset : Nat
  compLength : Nat
deriving DecidableEq

/-- The entries of a pack in the order in which every writer of packs stores them. -/
structure PackIndex (Hash : Type) where
  entries : List (PackIndexEntry Hash)
  sorted : entries.Pairwise fun a b => a.chunkOffset < b.chunkOffset

variable {Hash : Type}

/-- The entry for a chunk offset. On sorted entries `binary_search_by_key` and a scan find the
    same one. -/
def PackIndex.lookup (i : PackIndex Hash) (chunkOffset : Nat) : Option (PackIndexEntry Hash) :=
  i.entries.find? fun e => e.chunkOffset == chunkOffset

/-- An index with the places of its blocks: one after the other, within 32 bits. -/
structure PackLayout (Hash : Type) extends PackIndex Hash where
  laid : entries.Pairwise fun a b => a.offset + a.compLength ≤ b.offset
  fits : ∀ e ∈ entries, e.offset + e.compLength < 2 ^ 32

def packHeaderSize : Nat := 16

/-- The loop of `stream_pack_to_writer` over the sorted blocks; `running_offset` must not
    overflow. -/
def layOut (runningOffset : Nat) : List (PackBlock Hash) → Option (List (PackIndexEntry Hash))
  | [] => some []
  | b :: rest =>
      if runningOffset + b.compressed.length < 2 ^ 32 then
        (layOut (runningOffset + b.compressed.length) rest).map
          (⟨b.hash, b.chunkOffset, runningOffset, b.compressed.length⟩ :: ·)
      else none

def sortBlocks (blocks : List (PackBlock Hash)) : List (PackBlock Hash) :=
  blocks.insertionSort fun a b => a.chunkOffset ≤ b.chunkOffset

variable {blocks : List (PackBlock Hash)} {es : List (PackIndexEntry Hash)}

theorem layOut_chunkOffset {offset : Nat} (h : layOut offset blocks = some es) :
    es.map PackIndexEntry.chunkOffset = blocks.map PackBlock.chunkOffset := by
  induction blocks generalizing offset es with
  | nil =>
    cases h
    rfl
  | cons b rest ih =>
    obtain ⟨-, h⟩ := Option.ite_none_right_eq_some.mp h
    obtain ⟨es', tail, rfl⟩ := Option.map_eq_some_iff.mp h
    simp [ih tail]

theorem layOut_laid {offset : Nat} (h : layOut offset blocks = some es) :
    (∀ e ∈ es, offset ≤ e.offset ∧ e.offset + e.compLength < 2 ^ 32) ∧
      es.Pairwise fun a b => a.offset + a.compLength ≤ b.offset := by
  induction blocks generalizing offset es with
  | nil =>
    cases h
    simp
  | cons b rest ih =>
    obtain ⟨small, h⟩ := Option.ite_none_right_eq_some.mp h
    obtain ⟨es', tail, rfl⟩ := Option.map_eq_some_iff.mp h
    obtain ⟨after, laid⟩ := ih tail
    constructor
    · intro e mem
      rcases List.mem_cons.mp mem with rfl | mem
      · exact ⟨le_rfl, small⟩
      · exact ⟨by have := (after e mem).1; omega, (after e mem).2⟩
    · exact List.pairwise_cons.mpr ⟨fun e mem => (after e mem).1, laid⟩

/-- Blocks with distinct offsets are indexed in ascending order. -/
theorem layOut_sorted {offset : Nat} (distinct : (blocks.map PackBlock.chunkOffset).Nodup)
    (h : layOut offset (sortBlocks blocks) = some es) :
    es.Pairwise fun a b => a.chunkOffset < b.chunkOffset := by
  have perm : (sortBlocks blocks).Perm blocks := List.perm_insertionSort _ blocks
  rw [← List.pairwise_map (f := PackIndexEntry.chunkOffset) (R := (· < ·)), layOut_chunkOffset h]
  have distinct : ((sortBlocks blocks).map PackBlock.chunkOffset).Nodup :=
    (perm.map _).nodup_iff.mpr distinct
  have sorted : ((sortBlocks blocks).map PackBlock.chunkOffset).Pairwise (· ≤ ·) := by
    rw [List.pairwise_map]
    exact List.pairwise_insertionSort _ blocks
  exact (sorted.and distinct).imp fun le_ne => lt_of_le_of_ne le_ne.1 le_ne.2

/-- An entry describes a block whose compressed bytes lie at its place. -/
structure PackIndexEntry.Describes (bytes : List UInt8) (b : PackBlock Hash)
    (e : PackIndexEntry Hash) : Prop where
  hash : e.hash = b.hash
  chunkOffset : e.chunkOffset = b.chunkOffset
  compLength : e.compLength = b.compressed.length
  found : (bytes.drop e.offset).take e.compLength = b.compressed

theorem layOut_describes {header : List UInt8} (footer : List UInt8)
    (h : layOut header.length blocks = some es) :
    List.Forall₂ (PackIndexEntry.Describes
      (header ++ blocks.flatMap PackBlock.compressed ++ footer)) blocks es := by
  induction blocks generalizing header es with
  | nil =>
    cases h
    exact .nil
  | cons b rest ih =>
    obtain ⟨-, h⟩ := Option.ite_none_right_eq_some.mp h
    obtain ⟨es', tail, rfl⟩ := Option.map_eq_some_iff.mp h
    rw [← List.length_append] at tail
    constructor
    · exact ⟨rfl, rfl, rfl, by simp [List.append_assoc]⟩
    · simpa only [List.flatMap_cons, List.append_assoc] using ih tail

variable {D PackId : Type} [Zero D] [DecidableEq Hash]

/-- A stored pack: where the index says, the object has bytes that decompress to a block with the
    hash of the entry. -/
structure PackObject (C : Codec D Hash PackId) extends PackLayout Hash where
  bytes : List UInt8
  inside : ∀ e ∈ entries, e.offset + e.compLength ≤ bytes.length
  holds : ∀ e ∈ entries, e.compLength ≠ 0 →
    ∃ d, C.decompressBlock ((bytes.drop e.offset).take e.compLength) = some d ∧ C.blake3 d = e.hash

end GlideFS.Block
