import Mathlib.Algebra.Ring.Nat
import Mathlib.Data.List.Sort

/-! # Extents in order

Items that take up `len` places from `start`. Items in order do not overlap; the
range from the first to the end of the last contains each of them and is at least
as long as all of them together.
-/

namespace GlideFS.Lib

variable {α : Type} {start len : α → Nat}

/-- Each item ends where the next one starts, or before. -/
def InOrder (start len : α → Nat) (l : List α) : Prop :=
  l.Pairwise fun a b => start a + len a ≤ start b

/-- Two items that share no place. -/
def Apart (start len : α → Nat) (a b : α) : Prop :=
  start a + len a ≤ start b ∨ start b + len b ≤ start a

instance : Std.Symm (Apart start len) := ⟨fun _ _ apart => Or.symm apart⟩

/-- Where the last of `first :: rest` ends. -/
def lastEnd (start len : α → Nat) (first : α) (rest : List α) : Nat :=
  start (rest.getLastD first) + len (rest.getLastD first)

theorem InOrder.start_le {first : α} {rest : List α} (h : InOrder start len (first :: rest)) :
    ∀ a ∈ first :: rest, start first ≤ start a := by
  intro a mem
  rcases List.mem_cons.mp mem with rfl | mem
  · exact le_rfl
  · have := List.rel_of_pairwise_cons h mem
    omega

theorem InOrder.sum_le {first : α} {rest : List α} (h : InOrder start len (first :: rest)) :
    start first + ((first :: rest).map len).sum ≤ lastEnd start len first rest := by
  induction rest generalizing first with
  | nil => simp [lastEnd]
  | cons next rest ih =>
    have tail := ih (List.pairwise_cons.mp h).2
    have step := List.rel_of_pairwise_cons h (List.mem_cons_self (a := next) (l := rest))
    rw [lastEnd, List.getLastD_cons]
    rw [List.map_cons, List.sum_cons] at tail ⊢
    rw [lastEnd] at tail
    simp only [List.map_cons, List.sum_cons]
    omega

theorem InOrder.end_le {first : α} {rest : List α} (h : InOrder start len (first :: rest)) :
    ∀ a ∈ first :: rest, start a + len a ≤ lastEnd start len first rest := by
  induction rest generalizing first with
  | nil => simp [lastEnd]
  | cons next rest ih =>
    intro a mem
    have tail := ih (List.pairwise_cons.mp h).2
    rw [lastEnd, List.getLastD_cons]
    rw [lastEnd] at tail
    rcases List.mem_cons.mp mem with rfl | mem
    · have step := List.rel_of_pairwise_cons h (List.mem_cons_self (a := next) (l := rest))
      have := tail next List.mem_cons_self
      omega
    · exact tail a mem

/-- Items that take up places and do not overlap are in order once they are sorted. -/
theorem inOrder_insertionSort {l : List α} (apart : l.Pairwise (Apart start len))
    (some_len : ∀ a ∈ l, 0 < len a) :
    InOrder start len (l.insertionSort fun a b => start a ≤ start b) := by
  have perm := List.perm_insertionSort (fun a b => start a ≤ start b) l
  have sorted := List.pairwise_insertionSort (fun a b => start a ≤ start b) l
  have apart := perm.symm.pairwise apart fun {a b} (h : Apart start len a b) => h.symm
  apply (sorted.and apart).imp_of_mem
  intro a b _ mem ⟨le, apart⟩
  have pos := some_len b (perm.mem_iff.mp mem)
  rcases apart with before | after
  · exact before
  · omega

end GlideFS.Lib
