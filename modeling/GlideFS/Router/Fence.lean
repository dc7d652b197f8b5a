import Mathlib.Data.Nat.Bitwise
import Mathlib.Order.Lattice

/-! # The attach fence

`compose_token` packs `(generation, lease_revision)` into a `u128` so that `>=` is the
lexicographic order. The packing loses nothing: the token an attach stamps is taken
apart again from the larger of the two composites.
-/

namespace GlideFS.Router

structure Token where
  generation : UInt64
  leaseRevision : UInt64
deriving DecidableEq

/-- A caller that does not take part in fencing. -/
def Token.none : Token := ⟨0, 0⟩

def composeToken (generation leaseRevision : UInt64) : Nat :=
  (generation.toNat <<< 64) ||| leaseRevision.toNat

def Token.composite (t : Token) : Nat := composeToken t.generation t.leaseRevision

def Token.ofComposite (n : Nat) : Token :=
  ⟨.ofNat (n >>> 64), .ofNat (n &&& (2 ^ 64 - 1))⟩

inductive Fence where
  | grant
  | reject
deriving DecidableEq

def attachFence (stored my : Nat) : Fence := if stored ≤ my then .grant else .reject

def fenceAttach (stored my : Token) : Fence := attachFence stored.composite my.composite

/-- The token an admitted attach stamps. -/
def effective (stored my : Token) : Token := .ofComposite (max stored.composite my.composite)

theorem composite_eq (t : Token) :
    t.composite = t.generation.toNat * 2 ^ 64 + t.leaseRevision.toNat := by
  unfold Token.composite composeToken
  rw [← Nat.shiftLeft_add_eq_or_of_lt t.leaseRevision.toNat_lt, Nat.shiftLeft_eq]

@[simp] theorem ofComposite_composite (t : Token) : Token.ofComposite t.composite = t := by
  have low := t.leaseRevision.toNat_lt
  have generation : t.composite >>> 64 = t.generation.toNat := by
    rw [composite_eq, Nat.shiftRight_eq_div_pow]
    omega
  have lease : t.composite &&& (2 ^ 64 - 1) = t.leaseRevision.toNat := by
    rw [composite_eq, Nat.and_two_pow_sub_one_eq_mod]
    omega
  unfold Token.ofComposite
  rw [generation, lease, UInt64.ofNat_toNat, UInt64.ofNat_toNat]

theorem composite_injective : Function.Injective Token.composite :=
  Function.LeftInverse.injective ofComposite_composite

@[simp] theorem none_composite : Token.none.composite = 0 := rfl

theorem fenceAttach_grant (stored my : Token) :
    fenceAttach stored my = .grant ↔ stored.composite ≤ my.composite := by
  unfold fenceAttach attachFence
  split
  · rename_i le
    exact ⟨fun _ => le, fun _ => rfl⟩
  · rename_i lt
    exact ⟨nofun, fun le => absurd le lt⟩

/-- Once the fence grants, the stamped token is the caller's. -/
theorem effective_of_le {stored my : Token} (le : stored.composite ≤ my.composite) :
    effective stored my = my := by
  unfold effective
  rw [max_eq_right le, ofComposite_composite]

theorem effective_composite (stored my : Token) :
    (effective stored my).composite = max stored.composite my.composite := by
  unfold effective
  cases le_total stored.composite my.composite with
  | inl le => rw [max_eq_right le, ofComposite_composite]
  | inr le => rw [max_eq_left le, ofComposite_composite]

end GlideFS.Router
