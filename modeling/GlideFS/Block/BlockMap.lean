import GlideFS.Lib.Span
import Mathlib.Algebra.Notation.Defs

/-! # Block contents and block states

A block holds `blockSize` bytes. The state of a block in the sparse state map
says where its current bytes live: nowhere locally, claimed but not yet written,
in the active data file, or in the file being flushed.
-/

namespace GlideFS.Block

open Lib

/-- The bytes of one block. -/
structure BlockData (blockSize : Nat) where
  byte : Fin blockSize → UInt8

namespace BlockData

variable {n : Nat}

/-- The byte at an offset, with zeros past the end of the block. -/
def get (d : BlockData n) (k : Nat) : UInt8 := if h : k < n then d.byte ⟨k, h⟩ else 0

theorem ext_get {a b : BlockData n} (h : ∀ k < n, a.get k = b.get k) : a = b := by
  cases a with | mk f =>
    cases b with | mk g =>
      congr 1
      funext k
      simpa only [get, k.isLt, dif_pos] using h k.val k.isLt

instance : DecidableEq (BlockData n) := fun a b =>
  decidable_of_iff (agreeBelow n a.get b.get = true)
    ⟨fun h => ext_get (agreeBelow_iff.mp h), fun h => agreeBelow_iff.mpr fun _ _ => by rw [h]⟩

/-- A block filled with one byte. -/
def fill (n : Nat) (v : UInt8) : BlockData n := ⟨fun _ => v⟩

instance : Zero (BlockData n) := ⟨fill n 0⟩

end BlockData

/-- The states of the sparse state map. -/
inductive SparseBlockState where
  | notPresent
  | clean
  | dirty
  | syncing
deriving DecidableEq, Repr

namespace SparseBlockState

/-- Whether the block has data on the local disk that the cache answers for. -/
def hasLocalData : SparseBlockState → Bool
  | dirty | syncing => true
  | notPresent | clean => false

end SparseBlockState

end GlideFS.Block
