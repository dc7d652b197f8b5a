import Mathlib.Data.List.Basic

/-! # Loops that can fail

A loop over a list whose body may give up with an error is `List.foldlM` in `Except`.
What one turn preserves, the whole loop does.
-/

namespace GlideFS.Lib

variable {ε α β σ : Type}

variable {f : α → Except ε β}

theorem bind_eq_ok {x : Except ε α} {r : β} : x >>= f = .ok r ↔ ∃ a, x = .ok a ∧ f a = .ok r := by
  cases x with
  | error e => simp [bind, Except.bind]
  | ok a => simp [bind, Except.bind]

theorem map_eq_ok {x : Except ε α} {f : α → β} {r : β} :
    f <$> x = .ok r ↔ ∃ a, x = .ok a ∧ f a = r := by
  cases x with
  | error e => simp [Functor.map, Except.map]
  | ok a => simp [Functor.map, Except.map]

/-- How a computation ends: with a value that satisfies `Q` or with an error that satisfies `E`. -/
def Ends (E : ε → Prop) (Q : α → Prop) : Except ε α → Prop
  | .ok a => Q a
  | .error e => E e

section

variable {E : ε → Prop} {P : α → Prop} {Q : β → Prop}

variable {x : Except ε α}

theorem Ends.mono {P' : α → Prop} (h : Ends E P x) (weaker : ∀ a, P a → P' a) : Ends E P' x := by
  cases x with
  | error e => exact h
  | ok a => exact weaker a h

theorem Ends.bind {f : α → Except ε β} (first : Ends E P x) (rest : ∀ a, P a → Ends E Q (f a)) :
    Ends E Q (x >>= f) := by
  cases x with
  | error e => exact first
  | ok a => exact rest a first

theorem Ends.map {f : α → β} (first : Ends E P x) (rest : ∀ a, P a → Q (f a)) :
    Ends E Q (x.map f) := by
  cases x with
  | error e => exact first
  | ok a => exact rest a first

theorem Ends.foldlM {f : σ → α → Except ε σ} {I : List α → σ → Prop} {l : List α} {s : σ}
    (start : I [] s) (turn : ∀ done a todo s, l = done ++ a :: todo → I done s →
      Ends E (I (done ++ [a])) (f s a)) : Ends E (I l) (l.foldlM f s) := by
  suffices rest : ∀ (todo done : List α) (s : σ), l = done ++ todo → I done s →
      Ends E (I l) (todo.foldlM f s) from rest l [] s rfl start
  intro todo
  induction todo with
  | nil =>
    intro done s split holds
    rw [split, List.append_nil]
    exact holds
  | cons a todo ih =>
    intro done s split holds
    rw [List.foldlM_cons]
    apply (turn done a todo s split holds).bind
    intro t next
    exact ih (done ++ [a]) t (by simp [split]) next

theorem Ends.mapM {f : α → Except ε β} {R : α → β → Prop} {l : List α}
    (each : ∀ a ∈ l, Ends E (R a) (f a)) : Ends E (List.Forall₂ R l) (l.mapM f) := by
  induction l with
  | nil => exact .nil
  | cons a l ih =>
    rw [List.mapM_cons]
    apply (each a List.mem_cons_self).bind
    intro b one
    apply (ih fun c mem => each c (List.mem_cons_of_mem a mem)).bind
    intro bs rest
    exact .cons one rest

end

theorem ok_of_mapM {l : List α} {r : List β} (ran : l.mapM f = .ok r) :
    ∀ a ∈ l, ∃ b, f a = .ok b := by
  induction l generalizing r with
  | nil => simp
  | cons a l ih =>
    rw [List.mapM_cons] at ran
    obtain ⟨b, first, ran⟩ := bind_eq_ok.mp ran
    obtain ⟨rest, later, -⟩ := bind_eq_ok.mp ran
    simpa using ⟨⟨b, first⟩, ih later⟩

/-- A loop only depends on what its turns return. -/
theorem mapM_ok_of {g : α → Except ε β} {l : List α} {r : List β} (ran : l.mapM f = .ok r)
    (same : ∀ a ∈ l, ∀ b, f a = .ok b → g a = .ok b) : l.mapM g = .ok r := by
  induction l generalizing r with
  | nil => exact ran
  | cons a l ih =>
    rw [List.mapM_cons] at ran ⊢
    obtain ⟨b, first, ran⟩ := bind_eq_ok.mp ran
    obtain ⟨rest, later, ran⟩ := bind_eq_ok.mp ran
    rw [same a (by simp) b first, ih later fun a member => same a (by simp [member])]
    exact ran

end GlideFS.Lib
