import GlideFS.Block.BlockMap
import Mathlib.Data.List.Nodup

/-! # Packs and the pack store

A pack is an immutable object holding compressed blocks of one chunk. Its index
gives every block's chunk offset, content hash and compressed length; a length of
zero is a tombstone for a block of zeros. Packs are named by a hash of their
blocks, so an upload of a name that exists already changes nothing.
-/

namespace GlideFS.Block

/-- One block of a pack: `(hash, chunk_offset, compressed)`. -/
structure PackBlock (Hash : Type) where
  hash : Hash
  chunkOffset : Nat
  compressed : List UInt8
deriving DecidableEq

/-- Hashing, pack naming and compression, with what their libraries promise. -/
structure Codec (D Hash PackId : Type) where
  blake3 : D → Hash
  contentPackId : List (PackBlock Hash) → PackId
  compressBlock : D → Int → List UInt8
  decompressBlock : List UInt8 → Option D
  blake3_injective : Function.Injective blake3
  contentPackId_injective : Function.Injective contentPackId
  decompress_compress : ∀ d level, decompressBlock (compressBlock d level) = some d
  compress_nonempty : ∀ d level, compressBlock d level ≠ []

/-- A codec that can be evaluated: contents name themselves, a block filled with one
    byte is stored as that byte and any other block as its bytes. -/
def Codec.plain (n : Nat) :
    Codec (BlockData n) (BlockData n) (List (PackBlock (BlockData n))) where
  blake3 d := d
  contentPackId blocks := blocks
  compressBlock d _ := if d = .fill n (d.get 0) then [0, d.get 0] else 1 :: List.ofFn d.byte
  decompressBlock
    | [0, v] => some (.fill n v)
    | 1 :: bytes => some ⟨fun k => bytes.getD k 0⟩
    | _ => none
  blake3_injective _ _ h := h
  contentPackId_injective _ _ h := h
  decompress_compress d _ := by
    by_cases filled : d = .fill n (d.get 0)
    · simp only [if_pos filled]
      exact congrArg some filled.symm
    · simp [if_neg filled]
  compress_nonempty d _ := by split <;> simp

section

variable {D Hash PackId : Type} [Zero D] [DecidableEq Hash]

/-- The hash of a block of zeros. -/
def Codec.zeroBlockHash (C : Codec D Hash PackId) : Hash := C.blake3 0

/-- Fetches, decompresses and verifies one block; a tombstone is a block of zeros. -/
def Codec.fetchBlock (C : Codec D Hash PackId) (e : PackBlock Hash) : Option D :=
  if e.compressed.length = 0 then some 0
  else (C.decompressBlock e.compressed).filter fun d => C.blake3 d = e.hash

/-- An entry whose stored bytes are the ones its hash names. -/
def PackBlock.Sound (C : Codec D Hash PackId) (e : PackBlock Hash) : Prop :=
  ∃ d, C.fetchBlock e = some d ∧ C.blake3 d = e.hash

/-- A pack object as every writer of packs produces it. -/
structure Pack (C : Codec D Hash PackId) where
  blocks : List (PackBlock Hash)
  distinct : (blocks.map PackBlock.chunkOffset).Nodup
  sound : ∀ e ∈ blocks, e.Sound C

namespace Pack

variable {C : Codec D Hash PackId}

def packId (p : Pack C) : PackId := C.contentPackId p.blocks

def find (p : Pack C) (chunkOffset : Nat) : Option (PackBlock Hash) :=
  p.blocks.find? fun e => e.chunkOffset == chunkOffset

theorem eq_of_packId {p q : Pack C} (h : p.packId = q.packId) : p = q := by
  cases p with | mk ps _ _ =>
    cases q with | mk qs _ _ =>
      have same : ps = qs := C.contentPackId_injective h
      subst same
      rfl

theorem find_some {p : Pack C} {off : Nat} {e : PackBlock Hash} (h : p.find off = some e) :
    e ∈ p.blocks ∧ e.chunkOffset = off :=
  ⟨List.mem_of_find?_eq_some h, by simpa using List.find?_some h⟩

theorem find_none {p : Pack C} {off : Nat} :
    p.find off = none ↔ ∀ e ∈ p.blocks, e.chunkOffset ≠ off := by
  simp [find, List.find?_eq_none]

/-- Offsets are distinct, so an entry of the pack is the one found at its offset. -/
theorem find_of_mem {p : Pack C} {e : PackBlock Hash} (h : e ∈ p.blocks) :
    p.find e.chunkOffset = some e := by
  cases found : p.find e.chunkOffset with
  | none => exact absurd rfl (find_none.mp found e h)
  | some e' =>
    obtain ⟨mem, off⟩ := find_some found
    rw [List.inj_on_of_nodup_map p.distinct mem h off]

end Pack

/-- The packs of a store, by chunk index and pack id. -/
structure PackStore (C : Codec D Hash PackId) where
  get : Nat → PackId → Option (Pack C)
  named : ∀ {c id p}, get c id = some p → p.packId = id

namespace PackStore

variable [DecidableEq PackId] {C : Codec D Hash PackId}

/-- The store before any upload. -/
def empty : PackStore C where
  get _ _ := none
  named h := by cases h

/-- Uploads a pack under its content id; an object of that name is left as it is. -/
def streamChunkPack (s : PackStore C) (c : Nat) (p : Pack C) : PackStore C where
  get c' id := if c' = c ∧ id = p.packId then some ((s.get c' id).getD p) else s.get c' id
  named := by
    intro c' id q h
    split at h
    · rename_i here
      cases old : s.get c' id with
      | none =>
          rw [old] at h
          cases h
          exact here.2.symm
      | some q' =>
          rw [old] at h
          cases h
          exact s.named old
    · exact s.named h

theorem streamChunkPack_self (s : PackStore C) (c : Nat) (p : Pack C) :
    (s.streamChunkPack c p).get c p.packId = some p := by
  simp only [streamChunkPack, and_self, if_true, Option.some.injEq]
  cases old : s.get c p.packId with
  | none => rfl
  | some q => exact Pack.eq_of_packId (s.named old)

theorem streamChunkPack_keeps {s : PackStore C} {c c' : Nat} {p q : Pack C} {id : PackId}
    (h : s.get c' id = some q) : (s.streamChunkPack c p).get c' id = some q := by
  simp only [streamChunkPack, h, Option.getD_some, ite_self]

end PackStore

end

end GlideFS.Block
