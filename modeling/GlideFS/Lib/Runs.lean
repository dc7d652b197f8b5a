import Mathlib.Data.List.Basic

/-! # Runs of a partial step function

A system is a step function that may refuse an action in a state. `Reach`
collects the states of the runs whose every step meets a condition on the state
before it; the trivial condition gives all runs. Invariants are proved once by
`Reach.invariant`, and concrete runs are evaluated with `exec`.
-/

namespace GlideFS.Lib

variable {σ α : Type}

/-- States reached from `s` by steps that all meet `allowed` where they are taken. -/
inductive Reach (step : σ → α → Option σ) (allowed : σ → α → Prop) (s : σ) : σ → Prop where
  | refl : Reach step allowed s s
  | step {t u : σ} {a : α} :
      Reach step allowed s t → allowed t a → step t a = some u → Reach step allowed s u

/-- The condition that leaves no run out. -/
def anyStep (_ : σ) (_ : α) : Prop := True

namespace Reach

variable {step : σ → α → Option σ} {allowed : σ → α → Prop} {s t u : σ}

theorem invariant {I : σ → Prop} (start : I s)
    (keep : ∀ t a u, I t → allowed t a → step t a = some u → I u)
    (run : Reach step allowed s t) : I t := by
  induction run with
  | refl => exact start
  | step _ ok taken ih => exact keep _ _ _ ih ok taken

theorem trans (first : Reach step allowed s t) (second : Reach step allowed t u) :
    Reach step allowed s u := by
  induction second with
  | refl => exact first
  | step _ ok taken ih => exact .step ih ok taken

theorem weaken {wider : σ → α → Prop} (run : Reach step allowed s t)
    (more : ∀ t a, allowed t a → wider t a) : Reach step wider s t := by
  induction run with
  | refl => exact .refl
  | step _ ok taken ih => exact .step ih (more _ _ ok) taken

end Reach

/-- Takes the actions one after another, stopping at the first refusal. -/
def exec (step : σ → α → Option σ) : σ → List α → Option σ
  | s, [] => some s
  | s, a :: rest => (step s a).bind fun t => exec step t rest

/-- As `exec`, stopping also at the first step that does not meet the condition. -/
def execWhile (step : σ → α → Option σ) (allowed : σ → α → Prop)
    [∀ s a, Decidable (allowed s a)] : σ → List α → Option σ
  | s, [] => some s
  | s, a :: rest =>
      if allowed s a then (step s a).bind fun t => execWhile step allowed t rest else none

/-- The end of a run that is evaluated only as far as a test of it needs. -/
theorem exists_of_any {x : Option σ} {test : σ → Bool} (holds : x.any test = true) :
    ∃ t, x = some t ∧ test t = true := by
  cases x with
  | none => cases holds
  | some t => exact ⟨t, rfl, holds⟩

variable {step : σ → α → Option σ} {allowed : σ → α → Prop} {as : List α}

theorem reach_execWhile [∀ s a, Decidable (allowed s a)] {s t : σ}
    (h : execWhile step allowed s as = some t) : Reach step allowed s t := by
  induction as generalizing s with
  | nil =>
    cases h
    exact .refl
  | cons a rest ih =>
    simp only [execWhile] at h
    split at h
    · rename_i ok
      obtain ⟨u, taken, more⟩ := Option.bind_eq_some_iff.mp h
      exact Reach.trans (.step .refl ok taken) (ih more)
    · cases h

theorem exec_append (s : σ) (as bs : List α) :
    exec step s (as ++ bs) = (exec step s as).bind fun t => exec step t bs := by
  induction as generalizing s with
  | nil => rfl
  | cons a rest ih =>
    simp only [List.cons_append, exec]
    cases step s a with
    | none => rfl
    | some t => exact ih t

/-- The actions lead from one state to another, each meeting the condition where it is taken. -/
def Steps (step : σ → α → Option σ) (allowed : σ → α → Prop) : σ → List α → σ → Prop
  | s, [], t => s = t
  | s, a :: rest, t => allowed s a ∧ ∃ u, step s a = some u ∧ Steps step allowed u rest t

theorem reach_steps {s t : σ} (h : Steps step allowed s as t) : Reach step allowed s t := by
  induction as generalizing s with
  | nil =>
    cases h
    exact .refl
  | cons a rest ih =>
    obtain ⟨ok, u, taken, more⟩ := h
    exact Reach.trans (.step .refl ok taken) (ih more)

/-- A run of actions that meet the condition in any state. -/
theorem steps_exec_of {s t : σ} (h : exec step s as = some t) (ok : ∀ a ∈ as, ∀ u, allowed u a) :
    Steps step allowed s as t := by
  induction as generalizing s with
  | nil => exact Option.some.inj h
  | cons a rest ih =>
    obtain ⟨u, taken, more⟩ := Option.bind_eq_some_iff.mp h
    exact ⟨ok a List.mem_cons_self s, u, taken, ih more fun b later => ok b (.tail a later)⟩

theorem steps_append {s t u : σ} {bs : List α} (first : Steps step allowed s as t)
    (second : Steps step allowed t bs u) : Steps step allowed s (as ++ bs) u := by
  induction as generalizing s with
  | nil =>
    cases first
    exact second
  | cons a rest ih =>
    obtain ⟨ok, v, taken, more⟩ := first
    exact ⟨ok, v, taken, ih more⟩

theorem reach_exec_of {s t : σ} (h : exec step s as = some t) (ok : ∀ a ∈ as, ∀ u, allowed u a) :
    Reach step allowed s t :=
  reach_steps (steps_exec_of h ok)

theorem reach_exec {s t : σ} (h : exec step s as = some t) : Reach step anyStep s t :=
  reach_exec_of h fun _ _ _ => trivial

/-- An entry of an updated table is the new one, or was there before. -/
theorem update_eq_some {ι β : Type} [DecidableEq ι] {f : ι → Option β} {i j : ι} {x : Option β}
    {y : β} (h : Function.update f i x j = some y) :
    j = i ∧ x = some y ∨ j ≠ i ∧ f j = some y := by
  by_cases same : j = i
  · subst same
    rw [Function.update_self] at h
    exact .inl ⟨rfl, h⟩
  · rw [Function.update_of_ne same] at h
    exact .inr ⟨same, h⟩

/-- A fold keeps what each of its steps keeps. -/
theorem foldl_field {σ ι β : Type} {f : σ → ι → σ} (field : σ → β)
    (each : ∀ s i, field (f s i) = field s) (s : σ) (is : List ι) :
    field (is.foldl f s) = field s := by
  induction is generalizing s with
  | nil => rfl
  | cons i rest ih => exact (ih (f s i)).trans (each s i)

end GlideFS.Lib
