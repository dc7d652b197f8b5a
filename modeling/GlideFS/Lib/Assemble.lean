import Mathlib.Data.List.Basic
import Mathlib.Tactic.Ring

/-! # Ranges assembled from blocks

A range of positions is read from the blocks that cover it: the first one from
where the range begins, the last one up to where it ends, those in between whole.
Nothing checks how long a block is. The assembled ranges are those of a function
exactly if every block has the function's values and those that are not the last
have the right length.
-/

namespace GlideFS.Lib

variable {β : Type}

/-- The part of a block between two bounds, which must be in order and inside. -/
def slice (d : List β) (lo hi : Nat) : Option (List β) :=
  if lo ≤ hi ∧ hi ≤ d.length then some ((d.take hi).drop lo) else none

/-- What the `len` positions from `offset` take of block `b`. -/
def blockPart (t offset len b : Nat) (d : List β) : Option (List β) :=
  slice d (if b = offset / t then offset - b * t else 0)
    (if b = (offset + len - 1) / t then min (offset + len - b * t) d.length else d.length)

/-- The parts of all blocks from the first to the last. -/
def assemble (t : Nat) (line : Nat → List β) (offset len : Nat) : Option (List β) :=
  ((List.range' (offset / t) ((offset + len - 1) / t - offset / t + 1)).mapM
    fun b => blockPart t offset len b (line b)).map List.flatten

/-- Block `b` has the values of `f`, and its full length unless it is the last of the device. -/
structure Serves (t size : Nat) (line : Nat → List β) (f : Nat → β) (b : Nat) : Prop where
  value : ∀ i < t, b * t + i < size → (line b)[i]? = some (f (b * t + i))
  full : (b + 1) * t < size → (line b).length = t

theorem slice_of_values {d : List β} {f : Nat → β} (base : Nat) {lo hi : Nat} (le : lo ≤ hi)
    (values : ∀ i < hi, d[i]? = some (f (base + i))) :
    slice d lo hi = some ((List.range' (base + lo) (hi - lo)).map f) := by
  have long : hi ≤ d.length := by
    by_contra short
    have last := values (hi - 1) (by omega)
    rw [List.getElem?_eq_none (by omega)] at last
    cases last
  rw [slice, if_pos ⟨le, long⟩, Option.some.injEq]
  apply List.ext_getElem?
  intro i
  rw [List.getElem?_drop, List.getElem?_map]
  by_cases inside : lo + i < hi
  · rw [List.getElem?_take_of_lt inside, values (lo + i) inside,
      List.getElem?_range' (by omega)]
    simp [Nat.add_assoc]
  · rw [List.getElem?_eq_none (by simp; omega), List.getElem?_eq_none (by simp; omega)]
    rfl

theorem mapM_of_some {α γ : Type} {g : α → Option γ} {h : α → γ} {l : List α}
    (all : ∀ a ∈ l, g a = some (h a)) : l.mapM g = some (l.map h) := by
  induction l with
  | nil => rfl
  | cons a rest ih =>
    rw [List.mapM_cons, all a List.mem_cons_self, ih fun b mem => all b (List.mem_cons_of_mem a mem)]
    rfl

variable {t offset len : Nat} {line : Nat → List β}

/-- Consecutive parts make up the range they cover. -/
theorem parts_flatten (f : Nat → β) {first : Nat} (start : first * t ≤ offset) (stop n : Nat) :
    ((List.range' first n).map fun b =>
      (List.range' (max offset (b * t)) (min stop ((b + 1) * t) - max offset (b * t))).map f).flatten =
      (List.range' offset (min stop ((first + n) * t) - offset)).map f := by
  induction n with
  | zero =>
    rw [Nat.add_zero, Nat.sub_eq_zero_of_le ((min_le_right _ _).trans start)]
    rfl
  | succ n ih =>
    rw [List.range'_concat, List.map_append, List.flatten_append, ih, Nat.one_mul]
    simp only [List.map_singleton, List.flatten_singleton]
    rw [← List.map_append]
    congr 1
    have grown : (first + (n + 1)) * t = (first + n) * t + t := by ring
    have next : (first + n + 1) * t = (first + n) * t + t := by ring
    rw [grown, next]
    by_cases begun : (first + n) * t ≤ offset
    · rw [Nat.sub_eq_zero_of_le ((min_le_right _ _).trans begun), max_eq_left begun]
      rfl
    · by_cases ended : stop ≤ (first + n) * t
      · have done : min stop ((first + n) * t + t) - max offset ((first + n) * t) = 0 := by omega
        rw [done, min_eq_left ended, min_eq_left (by omega), List.range'_zero, List.append_nil]
      · have here : max offset ((first + n) * t) = offset + ((first + n) * t - offset) := by omega
        rw [here, min_eq_right (by omega), List.range'_append_1]
        congr 1
        omega

/-- The part of a block that is whole, or the last one and long enough, ends where the block or
    the range ends. -/
theorem blockPart_eq {b : Nat} (pos : 0 < t) (some_len : 0 < len) (from_first : offset / t ≤ b)
    (to_last : b ≤ (offset + len - 1) / t) {d : List β}
    (whole : b < (offset + len - 1) / t → d.length = t)
    (far : b = (offset + len - 1) / t → offset + len - b * t ≤ d.length) :
    blockPart t offset len b d =
      slice d (max offset (b * t) - b * t) (min (offset + len) ((b + 1) * t) - b * t) := by
  have first_le : offset / t * t ≤ offset := Nat.div_mul_le_self offset t
  have first_lt : offset < (offset / t + 1) * t := by
    rw [Nat.mul_comm]
    exact Nat.lt_mul_div_succ offset pos
  have last_le : (offset + len - 1) / t * t ≤ offset + len - 1 := Nat.div_mul_le_self _ t
  have last_lt : offset + len - 1 < ((offset + len - 1) / t + 1) * t := by
    rw [Nat.mul_comm]
    exact Nat.lt_mul_div_succ _ pos
  have next : (b + 1) * t = b * t + t := by ring
  have lo : (if b = offset / t then offset - b * t else 0) = max offset (b * t) - b * t := by
    split
    · rename_i same
      have same : b * t = offset / t * t := congrArg (· * t) same
      omega
    · rename_i other
      have := Nat.mul_le_mul_right t (show offset / t + 1 ≤ b by omega)
      omega
  have hi : (if b = (offset + len - 1) / t then min (offset + len - b * t) d.length else d.length) =
      min (offset + len) ((b + 1) * t) - b * t := by
    split
    · rename_i same
      have long := far same
      have same : (b + 1) * t = ((offset + len - 1) / t + 1) * t := congrArg (fun n => (n + 1) * t) same
      omega
    · rename_i other
      have size := whole (by omega)
      have := Nat.mul_le_mul_right t (show b + 1 ≤ (offset + len - 1) / t by omega)
      omega
  rw [blockPart, lo, hi]

/-- The blocks of a range lie between its first and its last, and each has a position of it. -/
theorem mem_blocks {b : Nat} (pos : 0 < t) (some_len : 0 < len)
    (mem : b ∈ List.range' (offset / t) ((offset + len - 1) / t - offset / t + 1)) :
    (offset / t ≤ b ∧ b ≤ (offset + len - 1) / t) ∧ b * t < offset + len ∧ offset < (b + 1) * t := by
  have order : offset / t ≤ (offset + len - 1) / t := Nat.div_le_div_right (by omega)
  have bounds : offset / t ≤ b ∧ b ≤ (offset + len - 1) / t := by
    have := List.mem_range'_1.mp mem
    omega
  have below : b * t ≤ offset + len - 1 :=
    (Nat.mul_le_mul_right t bounds.2).trans (Nat.div_mul_le_self _ t)
  have reached : offset < (b + 1) * t := by
    have first_lt : offset < (offset / t + 1) * t := by
      rw [Nat.mul_comm]
      exact Nat.lt_mul_div_succ offset pos
    exact first_lt.trans_le (Nat.mul_le_mul_right t (by omega))
  exact ⟨bounds, by omega, reached⟩

/-- The blocks from the first to the last cover the range. -/
theorem range_covered (pos : 0 < t) (some_len : 0 < len) :
    min (offset + len) ((offset / t + ((offset + len - 1) / t - offset / t + 1)) * t) - offset =
      len := by
  have order : offset / t ≤ (offset + len - 1) / t := Nat.div_le_div_right (by omega)
  have last_lt : offset + len - 1 < ((offset + len - 1) / t + 1) * t := by
    rw [Nat.mul_comm]
    exact Nat.lt_mul_div_succ _ pos
  rw [show offset / t + ((offset + len - 1) / t - offset / t + 1) = (offset + len - 1) / t + 1 by omega]
  omega

/-- Blocks that serve `f` are assembled to its values. -/
theorem assemble_of_serves {size : Nat} (pos : 0 < t) {f : Nat → β}
    (serves : ∀ b, b * t < size → Serves t size line f b) (some_len : 0 < len)
    (inside : offset + len ≤ size) :
    assemble t line offset len = some ((List.range' offset len).map f) := by
  have last_le : (offset + len - 1) / t * t ≤ offset + len - 1 := Nat.div_mul_le_self _ t
  have part (b : Nat) (mem : b ∈ List.range' (offset / t) ((offset + len - 1) / t - offset / t + 1)) :
      blockPart t offset len b (line b) = some ((List.range' (max offset (b * t))
        (min (offset + len) ((b + 1) * t) - max offset (b * t))).map f) := by
    obtain ⟨⟨from_first, to_last⟩, below, reached⟩ := mem_blocks pos some_len mem
    have next : (b + 1) * t = b * t + t := by ring
    have served := serves b (by omega)
    have whole (inner : b < (offset + len - 1) / t) : (line b).length = t := by
      have := Nat.mul_le_mul_right t (show b + 1 ≤ (offset + len - 1) / t from inner)
      exact served.full (by omega)
    have far (same : b = (offset + len - 1) / t) : offset + len - b * t ≤ (line b).length := by
      have last_lt : offset + len - 1 < ((offset + len - 1) / t + 1) * t := by
        rw [Nat.mul_comm]
        exact Nat.lt_mul_div_succ _ pos
      have here : (b + 1) * t = ((offset + len - 1) / t + 1) * t := congrArg (fun n => (n + 1) * t) same
      have there := served.value (offset + len - 1 - b * t) (by omega) (by omega)
      have long := (List.getElem?_eq_some_iff.mp there).1
      omega
    rw [blockPart_eq pos some_len from_first to_last whole far, slice_of_values (f := f) (b * t)
      (by omega) fun i small => served.value i (by omega) (by omega)]
    congr 3 <;> omega
  rw [assemble, mapM_of_some part, Option.map_some, parts_flatten f (Nat.div_mul_le_self offset t),
    range_covered pos some_len]

/-- A range within one block. -/
theorem assemble_single (line : Nat → List β) (one : offset / t = (offset + len - 1) / t) :
    assemble t line offset len = slice (line (offset / t)) (offset - offset / t * t)
      (min (offset - offset / t * t + len) (line (offset / t)).length) := by
  have below := Nat.div_mul_le_self offset t
  have part : blockPart t offset len (offset / t) (line (offset / t)) =
      slice (line (offset / t)) (offset - offset / t * t)
        (min (offset - offset / t * t + len) (line (offset / t)).length) := by
    rw [blockPart, if_pos rfl, if_pos one,
      show offset - offset / t * t + len = offset + len - offset / t * t by omega]
  rw [assemble, ← one, Nat.sub_self, List.range'_one]
  simp only [List.mapM_cons, List.mapM_nil, part]
  cases slice (line (offset / t)) (offset - offset / t * t)
    (min (offset - offset / t * t + len) (line (offset / t)).length) with
  | none => rfl
  | some d => simp

/-- A range is assembled as soon as its first block reaches where it begins. -/
theorem assemble_of_begun (line : Nat → List β) (len : Nat)
    (begun : offset - offset / t * t ≤ (line (offset / t)).length) :
    ∃ d, assemble t line offset len = some d := by
  have part (b : Nat) : ∃ p, blockPart t offset len b (line b) = some p := by
    have inside : (if b = offset / t then offset - b * t else 0) ≤
        (if b = (offset + len - 1) / t then min (offset + len - b * t) (line b).length
          else (line b).length) := by
      have start : (if b = offset / t then offset - b * t else 0) ≤ (line b).length := by
        split
        · rename_i same
          rw [same]
          exact begun
        · exact Nat.zero_le _
      have before : (if b = offset / t then offset - b * t else 0) ≤ offset + len - b * t := by
        split <;> omega
      by_cases final : b = (offset + len - 1) / t
      · rw [if_pos final]
        exact le_min before start
      · rw [if_neg final]
        exact start
    have short : (if b = (offset + len - 1) / t then min (offset + len - b * t) (line b).length
        else (line b).length) ≤ (line b).length := by
      split
      · exact min_le_right _ _
      · exact le_refl _
    rw [blockPart, slice, if_pos ⟨inside, short⟩]
    exact ⟨_, rfl⟩
  choose p parts using part
  rw [assemble, mapM_of_some fun b _ => parts b]
  exact ⟨_, rfl⟩

/-- The length of what is assembled from whole blocks and a last one that reaches far enough. -/
theorem length_assemble (pos : 0 < t) (some_len : 0 < len)
    (whole : ∀ b, offset / t ≤ b → b < (offset + len - 1) / t → (line b).length = t)
    (far : offset + len - (offset + len - 1) / t * t ≤ (line ((offset + len - 1) / t)).length) :
    ∃ d, assemble t line offset len = some d ∧ d.length = len := by
  have part (b : Nat) (mem : b ∈ List.range' (offset / t) ((offset + len - 1) / t - offset / t + 1)) :
      ∃ p, blockPart t offset len b (line b) = some p ∧
        p.length = min (offset + len) ((b + 1) * t) - max offset (b * t) := by
    obtain ⟨⟨from_first, to_last⟩, below, reached⟩ := mem_blocks pos some_len mem
    have next : (b + 1) * t = b * t + t := by ring
    have long (same : b = (offset + len - 1) / t) : offset + len - b * t ≤ (line b).length := by
      rw [same]
      exact far
    have ends : min (offset + len) ((b + 1) * t) - b * t ≤ (line b).length := by
      rcases Nat.lt_or_eq_of_le to_last with inner | final
      · rw [whole b from_first inner]
        omega
      · exact (Nat.sub_le_sub_right (min_le_left _ _) _).trans (long final)
    rw [blockPart_eq pos some_len from_first to_last (whole b from_first) long, slice,
      if_pos ⟨by omega, ends⟩]
    exact ⟨_, rfl, by simp; omega⟩
  have some_part (b : Nat) : ∃ p, b ∈ List.range' (offset / t) ((offset + len - 1) / t - offset / t + 1) →
      blockPart t offset len b (line b) = some p ∧
        p.length = min (offset + len) ((b + 1) * t) - max offset (b * t) := by
    by_cases mem : b ∈ List.range' (offset / t) ((offset + len - 1) / t - offset / t + 1)
    · obtain ⟨p, h⟩ := part b mem
      exact ⟨p, fun _ => h⟩
    · exact ⟨[], fun h => absurd h mem⟩
  choose p parts using some_part
  refine ⟨_, by rw [assemble, mapM_of_some fun b mem => (parts b mem).1, Option.map_some], ?_⟩
  -- the lengths are those of the parts of any function, and they add up to the range
  have sizes := congrArg List.length (parts_flatten (fun _ => ()) (Nat.div_mul_le_self offset t)
    (offset + len) ((offset + len - 1) / t - offset / t + 1))
  rw [range_covered pos some_len] at sizes
  simp only [List.length_flatten, List.map_map, List.length_map, List.length_range'] at sizes ⊢
  refine (congrArg List.sum (List.map_congr_left fun b mem => ?_)).trans sizes
  simp [(parts b mem).2]

/-- Only blocks that serve `f` are assembled to its values. -/
theorem serves_of_assemble {size : Nat} (pos : 0 < t) {f : Nat → β}
    (right : ∀ offset len, 0 < len → offset + len ≤ size → assemble t line offset len = some ((List.range' offset len).map f))
    {b : Nat} : Serves t size line f b := by
  -- a range of one position shows the value there
  have value (b i : Nat) (small : i < t) (inside : b * t + i < size) :
      (line b)[i]? = some (f (b * t + i)) := by
    have block : (b * t + i) / t = b := by
      rw [Nat.mul_comm, Nat.mul_add_div pos, Nat.div_eq_of_lt small, Nat.add_zero]
    have one := right (b * t + i) 1 (by omega) (by omega)
    rw [assemble, Nat.add_sub_cancel, block] at one
    simp only [Nat.sub_self, Nat.zero_add, List.range'_one, List.mapM_cons, List.mapM_nil,
      blockPart, block, Nat.add_sub_cancel, if_true] at one
    rw [Nat.add_sub_cancel_left, show b * t + i + 1 - b * t = i + 1 by omega, slice] at one
    split at one
    · simp only [Option.pure_def, Option.bind_eq_bind, Option.bind_some, Option.map_some,
        Option.some.injEq, List.flatten_singleton, List.map_singleton] at one
      have head := congrArg (fun l => l[0]?) one
      exact (by simpa [List.getElem?_drop, List.getElem?_take] using head : _ ∧ _).2
    · simp at one
  refine ⟨value b, fun more => ?_⟩
  -- a range that reaches one position into the next block shows the length
  have next : (b + 1) * t = b * t + t := by ring
  have first : b * t / t = b := Nat.mul_div_cancel b pos
  have last : (b * t + (t + 1) - 1) / t = b + 1 := by
    rw [show b * t + (t + 1) - 1 = (b + 1) * t by omega, Nat.mul_div_cancel _ pos]
  have two := right (b * t) (t + 1) (by omega) (by omega)
  have head := value (b + 1) 0 pos (by omega)
  obtain ⟨long, -⟩ := List.getElem?_eq_some_iff.mp head
  rw [assemble, first, last] at two
  simp only [show b + 1 - b + 1 = 2 by omega, List.range'_succ, List.range'_zero, List.mapM_cons,
    List.mapM_nil, blockPart, first, last, if_true, Nat.sub_self,
    show ¬b = b + 1 by omega, show ¬b + 1 = b by omega, if_false] at two
  rw [show b * t + (t + 1) - (b + 1) * t = 1 by omega, min_eq_left (by omega : 1 ≤ (line (b + 1)).length),
    slice, slice, if_pos ⟨Nat.zero_le _, le_refl _⟩, if_pos ⟨Nat.zero_le _, long⟩] at two
  simp only [Option.pure_def, Option.bind_eq_bind, Option.bind_some, Option.map_some,
    Option.some.injEq, List.take_length, List.drop_zero] at two
  have lengths := congrArg List.length two
  simp at lengths
  omega

end GlideFS.Lib
