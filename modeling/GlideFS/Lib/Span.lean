import Mathlib.Data.List.Basic
import Mathlib.Tactic.Ring

/-! # Spans of consecutive positions

Files and blocks are functions of a position. A span is given by its first
position and its length. `allFrom` tests a span by halving it, so that a test of
a long span evaluates with a shallow recursion; `overlay` replaces one span of a
function and leaves the rest alone.
-/

namespace GlideFS.Lib

/-- Tests `p` on the `len` positions from `lo`; `fuel` bounds the halvings. -/
def allFrom (p : Nat → Bool) : Nat → Nat → Nat → Bool
  | 0, _, _ => true
  | fuel + 1, lo, len =>
      if len = 0 then true
      else if len = 1 then p lo
      else allFrom p fuel lo (len / 2) && allFrom p fuel (lo + len / 2) (len - len / 2)

theorem allFrom_iff {p : Nat → Bool} {fuel lo len : Nat} (enough : len ≤ fuel) :
    allFrom p fuel lo len = true ↔ ∀ i, lo ≤ i → i < lo + len → p i = true := by
  induction fuel generalizing lo len with
  | zero =>
    simp only [allFrom, true_iff]
    intro i _ _
    omega
  | succ fuel ih =>
    rw [allFrom]
    split
    · simp only [true_iff]
      intro i _ _
      omega
    · split
      · constructor
        · intro h i _ _
          obtain rfl : i = lo := by omega
          exact h
        · intro h
          exact h lo (by omega) (by omega)
      · rw [Bool.and_eq_true, ih (by omega), ih (by omega)]
        constructor
        · rintro ⟨left, right⟩ i _ _
          by_cases side : i < lo + len / 2
          · exact left i (by omega) side
          · exact right i (by omega) (by omega)
        · intro h
          exact ⟨fun i _ _ => h i (by omega) (by omega), fun i _ _ => h i (by omega) (by omega)⟩

/-- Equality of two functions on the positions below `n`, by halving. -/
def agreeBelow {β : Type} [DecidableEq β] (n : Nat) (f g : Nat → β) : Bool :=
  allFrom (fun i => decide (f i = g i)) n 0 n

theorem agreeBelow_iff {β : Type} [DecidableEq β] {n : Nat} {f g : Nat → β} :
    agreeBelow n f g = true ↔ ∀ i < n, f i = g i := by
  simp [agreeBelow, allFrom_iff]

section Overlay

variable {β : Type}

/-- `dst` with the `len` positions from `lo` taken from `src`. -/
def overlay (lo len : Nat) (src dst : Nat → β) : Nat → β :=
  fun i => if lo ≤ i ∧ i < lo + len then src i else dst i

theorem overlay_outside {lo len i : Nat} {src dst : Nat → β} (h : ¬(lo ≤ i ∧ i < lo + len)) :
    overlay lo len src dst i = dst i := if_neg h

end Overlay

end GlideFS.Lib
