import GlideFS.Block.VolumeManifest
import GlideFS.Lib.Assemble

/-! # Reading a byte range

`WriteCache::read` cuts a range into blocks of the cache's block size and looks each
of them up: in the local files, else newest first in the packs of the manifest. A
block no pack has data for is a block of zeros of the cache's size; a block from a
pack is as long as it was stored. The parts are put together without a check.
-/

namespace GlideFS.WriteCache

open Block Lib

/-- What a read finds in a cache: `file` is the active data file, `localBlock` the block that
    `sync_read_local_block` reads. -/
structure ReadView where
  deviceSize : Nat
  blockSize : Nat
  state : Nat → SparseBlockState
  flushingActive : Bool
  file : Nat → UInt8
  localBlock : Nat → Option (List UInt8)

/-- `open_fresh_active`: a cache without local blocks. -/
def openFreshActive (deviceSize blockSize : Nat) : Option ReadView :=
  if blockSize = 0 ∨ deviceSize = 0 then none
  else some ⟨deviceSize, blockSize, fun _ => .notPresent, false, fun _ => 0, fun _ => none⟩

inductive BlockLocation (Hash : Type) where
  | onDisk (data : List UInt8)
  | zero
  | needsFetch (e : PackBlock Hash)

namespace ReadView

variable {Hash PackId : Type} [DecidableEq Hash] {g : Geometry}
  {C : Codec (BlockData g.blockSize) Hash PackId}

def locate (v : ReadView) (s : PackStore C) (m : VolumeManifest PackId) (b : Nat) :
    Option (BlockLocation Hash) :=
  match if (v.state b).hasLocalData then v.localBlock b else none with
  | some data => some (.onDisk data)
  | none =>
      (locateBlock g s m b).map fun
        | none => .zero
        | some e => if e.compressed.length = 0 then .zero else .needsFetch e

/-- The bytes of a block at its location. -/
def fetch (v : ReadView) (C : Codec (BlockData g.blockSize) Hash PackId) :
    BlockLocation Hash → Option (List UInt8)
  | .onDisk data => some data
  | .zero => some (List.replicate v.blockSize 0)
  | .needsFetch e => (C.fetchBlock e).map fun d => (List.range g.blockSize).map d.get

def block (v : ReadView) (s : PackStore C) (m : VolumeManifest PackId) (b : Nat) :
    Option (List UInt8) :=
  (v.locate s m b).bind (v.fetch C)

def read (v : ReadView) (s : PackStore C) (m : VolumeManifest PackId) (offset len : Nat) :
    Option (List UInt8) :=
  if v.deviceSize < offset + len then none
  else if len = 0 then some []
  else
    let first := offset / v.blockSize
    let last := (offset + len - 1) / v.blockSize
    let blocks := List.range' first (last - first + 1)
    if !v.flushingActive && blocks.all fun b => v.state b = .dirty then
      some ((List.range' offset len).map v.file)
    else if first = last then
      (v.block s m first).bind fun d =>
        let start := offset - first * v.blockSize
        slice d start (min (start + len) d.length)
    else
      (blocks.mapM fun b => (v.block s m b).bind (blockPart v.blockSize offset len b)).map List.flatten

/-- A cache without local blocks reads what its packs assemble to. -/
theorem read_fresh {deviceSize blockSize : Nat} {v : ReadView}
    (fresh : openFreshActive deviceSize blockSize = some v) {s : PackStore C}
    {m : VolumeManifest PackId} {line : Nat → List UInt8}
    (lines : ∀ b, v.block s m b = some (line b)) {offset len : Nat} (some_len : 0 < len)
    (inside : offset + len ≤ deviceSize) : v.read s m offset len = assemble blockSize line offset len := by
  obtain ⟨-, fresh⟩ := Option.ite_none_left_eq_some.mp fresh
  cases fresh
  have clean (n : Nat) : ((List.range' (offset / blockSize) (n + 1)).all fun _ =>
      decide (SparseBlockState.notPresent = .dirty)) = false := by
    simp [List.range'_succ]
  rw [read, if_neg (by simpa using inside), if_neg (by omega)]
  simp only [Bool.not_false, Bool.true_and, clean, Bool.false_eq_true, if_false, lines,
    Option.bind_some]
  split
  · rename_i one
    exact (assemble_single line one).symm
  · rfl

end ReadView

end GlideFS.WriteCache
