import Mathlib.Data.List.Basic
import Mathlib.Tactic.Ring
import Mathlib.Tactic.IntervalCases

/-! # Numbers as text

A number is written with at least a given number of digits, zeros in front, and read
back digit by digit.
-/

namespace GlideFS.Lib

def padded (base width n : ℕ) : List Char :=
  List.replicate (width - (Nat.toDigits base n).length) '0' ++ Nat.toDigits base n

/-- The value of a digit, letters in either case. -/
def toDigit (base : ℕ) (c : Char) : Option ℕ :=
  let value :=
    if '0' ≤ c ∧ c ≤ '9' then some (c.toNat - '0'.toNat)
    else if 'a' ≤ c ∧ c ≤ 'z' then some (c.toNat - 'a'.toNat + 10)
    else if 'A' ≤ c ∧ c ≤ 'Z' then some (c.toNat - 'A'.toNat + 10)
    else none
  value.filter (· < base)

def readDigits (base : ℕ) (acc : ℕ) (text : List Char) : Option ℕ :=
  text.foldlM (fun acc c => (toDigit base c).map (acc * base + ·)) acc

section

variable {b : ℕ}

theorem toDigit_digitChar {d : ℕ} (small : b ≤ 16) (digit : d < b) :
    toDigit b (Nat.digitChar d) = some d := by
  have known : ∀ d < 16, toDigit 16 (Nat.digitChar d) = some d := by decide
  have value := known d (by omega)
  simp only [toDigit, Option.filter_eq_some_iff] at value ⊢
  exact ⟨value.1, by simpa using digit⟩

theorem readDigits_append (acc : ℕ) (front back : List Char) :
    readDigits b acc (front ++ back) =
      (readDigits b acc front).bind fun n => readDigits b n back := by
  simp [readDigits, List.foldlM_append]

theorem readDigits_toDigits (some : 1 < b) (small : b ≤ 16) (n : ℕ) :
    readDigits b 0 (Nat.toDigits b n) = .some n := by
  induction n using Nat.strong_induction_on with
  | h n ih =>
    by_cases single : n < b
    · simp [Nat.toDigits_of_lt_base single, readDigits, toDigit_digitChar small single]
    · have upper : n / b < n := Nat.div_lt_self (by omega) some
      have last : n % b < b := Nat.mod_lt _ (by omega)
      rw [Nat.toDigits_of_base_le some (by omega), readDigits_append, ih _ upper]
      simp only [readDigits, Option.bind_some, List.foldlM_cons, List.foldlM_nil,
        toDigit_digitChar small last, Option.map_some]
      exact congrArg Option.some (Nat.div_add_mod' n b)

theorem readDigits_zeros (some : 0 < b) (k : ℕ) :
    readDigits b 0 (List.replicate k '0') = .some 0 := by
  have zero : toDigit b '0' = .some 0 := by simp [toDigit, some]
  induction k with
  | zero => rfl
  | succ k ih =>
    rw [List.replicate_succ]
    simpa [readDigits, zero] using ih

theorem toDigits_ne_nil (some : 1 < b) (n : ℕ) : Nat.toDigits b n ≠ [] := by
  by_cases single : n < b
  · simp [Nat.toDigits_of_lt_base single]
  · have long : b ≤ n := by omega
    simp [Nat.toDigits_of_base_le some long]

theorem padded_ne_nil (some : 1 < b) (width n : ℕ) : padded b width n ≠ [] := by
  simp [padded, toDigits_ne_nil some]

theorem readDigits_padded (some : 1 < b) (small : b ≤ 16) (width n : ℕ) :
    readDigits b 0 (padded b width n) = .some n := by
  rw [padded, readDigits_append, readDigits_zeros (by omega), Option.bind_some,
    readDigits_toDigits some small]

/-- Every character of a number is one of its digits. -/
theorem toDigits_chars (some : 1 < b) {n : ℕ} {c : Char} (mem : c ∈ Nat.toDigits b n) :
    ∃ d < b, c = Nat.digitChar d := by
  induction n using Nat.strong_induction_on with
  | h n ih =>
    by_cases single : n < b
    · rw [Nat.toDigits_of_lt_base single, List.mem_singleton] at mem
      exact ⟨n, single, mem⟩
    · rw [Nat.toDigits_of_base_le some (by omega), List.mem_append, List.mem_singleton] at mem
      rcases mem with upper | rfl
      · exact ih _ (Nat.div_lt_self (by omega) some) upper
      · exact ⟨_, Nat.mod_lt _ (by omega), rfl⟩

theorem padded_chars (some : 1 < b) {width n : ℕ} {c : Char} (mem : c ∈ padded b width n) :
    ∃ d < b, c = Nat.digitChar d := by
  rcases List.mem_append.mp mem with zero | digit
  · exact ⟨0, by omega, List.eq_of_mem_replicate zero⟩
  · exact toDigits_chars some digit

theorem padded_injective (some : 1 < b) (small : b ≤ 16) {width m n : ℕ}
    (same : padded b width m = padded b width n) : m = n := by
  have read := readDigits_padded some small width m
  rw [same, readDigits_padded some small] at read
  exact (Option.some.inj read).symm

end

end GlideFS.Lib
