import Mathlib.Data.List.Range
import Mathlib.Data.List.Perm.Basic
import Mathlib.Logic.Function.Basic

/-! # Lists over a range -/

namespace GlideFS.Lib

variable {α β : Type}

/-- Rows of equal length, one after the other, are one range. -/
theorem flatMap_grid (rows width : Nat) (g : Nat → List β) :
    ((List.range rows).flatMap fun i => (List.range width).flatMap fun j => g (i * width + j)) =
      (List.range (rows * width)).flatMap g := by
  induction rows with
  | zero => simp
  | succ rows ih =>
    rw [List.range_succ, List.flatMap_append, ih, Nat.succ_mul, List.range_add,
      List.flatMap_append]
    simp [List.flatMap_map]

/-- What lies past the end of a range is not listed. -/
theorem flatMap_range_of_le {n k : Nat} {g : Nat → List β} (le : n ≤ k)
    (past : ∀ i, n ≤ i → g i = []) : (List.range k).flatMap g = (List.range n).flatMap g := by
  obtain ⟨more, rfl⟩ := Nat.exists_eq_add_of_le le
  rw [List.range_add, List.flatMap_append, List.flatMap_map]
  have empty : ((List.range more).flatMap fun i => g (n + i)) = [] := by
    simp [past]
  rw [empty, List.append_nil]

/-! ## How many cells hold a value -/

variable [DecidableEq α] {n : ℕ} {m m' : ℕ → α} {v : α}

/-- The number of the first `n` cells that hold `v`. -/
def tally (n : ℕ) (m : ℕ → α) (v : α) : ℕ := (List.range n).countP fun i => m i = v

theorem tally_congr {w : α} (same : ∀ i < n, (m i = v ↔ m' i = w)) :
    tally n m v = tally n m' w := by
  apply List.countP_congr
  intro i mem
  simpa using same i (List.mem_range.mp mem)

theorem tally_le : tally n m v ≤ n := by
  simpa [tally] using List.countP_le_length (p := fun i => decide (m i = v)) (l := List.range n)

theorem tally_eq_zero : tally n m v = 0 ↔ ∀ i < n, m i ≠ v := by
  simp [tally, List.countP_eq_zero]

/-- A cell that changes its value leaves one tally and enters another. -/
theorem tally_update {i : ℕ} (inside : i < n) (w : α) :
    tally n (Function.update m i w) v + (if m i = v then 1 else 0) =
      tally n m v + (if w = v then 1 else 0) := by
  have perm := List.perm_cons_erase (List.mem_range.mpr inside)
  have rest : ((List.range n).erase i).countP (fun j => Function.update m i w j = v) =
      ((List.range n).erase i).countP fun j => m j = v := by
    apply List.countP_congr
    intro j mem
    have other : j ≠ i := (List.nodup_range.mem_erase_iff.mp mem).1
    rw [Function.update_of_ne other]
  simp only [tally, perm.countP_eq, List.countP_cons, rest, Function.update_self,
    decide_eq_true_eq]
  omega

/-- Fewer cells hold a value when one has lost it and none has got it. -/
theorem tally_lt {i : ℕ} (inside : i < n) (before : m i = v) (after : m' i ≠ v)
    (none : ∀ j < n, m' j = v → m j = v) : tally n m' v < tally n m v := by
  have lost := tally_update (m := m) (v := v) inside (m' i)
  rw [if_pos before, if_neg after] at lost
  have rest : tally n m' v ≤ tally n (Function.update m i (m' i)) v := by
    apply List.countP_mono_left
    intro j mem holds
    rw [decide_eq_true_eq] at holds ⊢
    by_cases here : j = i
    · subst here
      exact absurd holds after
    · rw [Function.update_of_ne here]
      exact none j (List.mem_range.mp mem) holds
  omega

/-- Cells that hold either of two values. -/
theorem tally_add {w : α} (different : v ≠ w) :
    tally n m v + tally n m w = (List.range n).countP fun i => m i = v ∨ m i = w := by
  induction n with
  | zero => rfl
  | succ n ih =>
    simp only [tally, List.range_succ, List.countP_append, List.countP_singleton,
      decide_eq_true_eq] at ih ⊢
    by_cases first : m n = v
    · have second : m n ≠ w := fun h => different (first.symm.trans h)
      simp only [first, different, if_true, if_false, true_or]
      omega
    · simp only [first, false_or, if_false]
      omega

/-! ## Counters of 64 bits -/

section

variable {c : UInt64} {k k' : ℕ}

theorem counter_enter (h : c = .ofNat k) (more : k' = k + 1) : c + 1 = .ofNat k' := by
  rw [h, more]
  exact (UInt64.ofNat_add k 1).symm

theorem counter_leave (h : c = .ofNat k) (less : k' + 1 = k) : c - 1 = .ofNat k' := by
  rw [h, ← less, UInt64.ofNat_add]
  exact UInt64.add_sub_cancel _ _

end

end GlideFS.Lib
