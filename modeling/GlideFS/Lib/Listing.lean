import Mathlib.Data.Char
import Mathlib.Data.List.DropRight
import Mathlib.Data.List.Lex

/-! # Keys of an object store

A key is a path, written as its names with a slash between them. Names are not empty and hold
no slash, so the names can be read off the text again. Listings are in the order of the text, so
that all keys below one name stand together, from the name with a slash up to the name with the
next character after the slash.
-/

namespace GlideFS.Lib

/-- A path strictly below another. -/
def Below {ν : Type} (top path : List ν) : Prop := top <+: path ∧ top ≠ path

/-- The names of a path can be told apart in its text. -/
def ValidNames (names : List (List Char)) : Prop := ∀ n ∈ names, n ≠ [] ∧ '/' ∉ n

theorem ValidNames.append {xs ys : List (List Char)} (first : ValidNames xs)
    (second : ValidNames ys) : ValidNames (xs ++ ys) := by
  intro n mem
  rcases List.mem_append.mp mem with mem | mem
  · exact first n mem
  · exact second n mem

def render (names : List (List Char)) : List Char := ['/'].intercalate names

@[simp] theorem render_nil : render [] = [] := rfl

@[simp] theorem render_singleton (n : List Char) : render [n] = n := by simp [render]

theorem render_cons {n : List Char} {names : List (List Char)} (more : names ≠ []) :
    render (n :: names) = n ++ '/' :: render names := by
  simp [render, List.intercalate_cons_of_ne_nil more]

theorem render_append {xs ys : List (List Char)} (first : xs ≠ []) (second : ys ≠ []) :
    render (xs ++ ys) = render xs ++ '/' :: render ys := by
  induction xs with
  | nil => exact absurd rfl first
  | cons m xs ih =>
    by_cases last : xs = []
    · subst last
      rw [List.singleton_append, render_cons second, render_singleton]
    · rw [List.cons_append, render_cons (by simp [last]), ih last, render_cons last]
      simp

theorem render_concat {names : List (List Char)} (n : List Char) (some : names ≠ []) :
    render (names ++ [n]) = render names ++ '/' :: n := by
  rw [render_append some (by simp), render_singleton]

theorem splitOn_render {names : List (List Char)} (valid : ValidNames names) (some : names ≠ []) :
    (render names).splitOn '/' = names :=
  List.splitOn_intercalate '/' (fun n mem => (valid n mem).2) some

theorem render_eq_nil {names : List (List Char)} (valid : ValidNames names) :
    render names = [] ↔ names = [] := by
  constructor
  · intro empty
    cases names with
    | nil => rfl
    | cons n names =>
      have split := splitOn_render valid (by simp)
      rw [empty, List.splitOn_nil] at split
      injection split with head
      exact absurd head.symm (valid n (by simp)).1
  · rintro rfl
    rfl

theorem render_injective {xs ys : List (List Char)} (first : ValidNames xs)
    (second : ValidNames ys) (same : render xs = render ys) : xs = ys := by
  by_cases empty : xs = []
  · subst empty
    exact ((render_eq_nil second).mp same.symm).symm
  · have nonempty : ys ≠ [] := by
      intro none
      rw [none] at same
      exact empty ((render_eq_nil first).mp same)
    rw [← splitOn_render first empty, same, splitOn_render second nonempty]

/-- Text that goes on after a directory's slash is that of a path below the directory. -/
theorem below_of_text {dir path : List (List Char)} (first : ValidNames dir)
    (second : ValidNames path) (some : dir ≠ [])
    (text : (render dir ++ ['/']).isPrefixOf (render path) = true) : Below dir path := by
  have starts : render dir ++ ['/'] <+: render path := by simpa using text
  obtain ⟨rest, whole⟩ := starts
  have nonempty : path ≠ [] := by
    rintro rfl
    simp at whole
  have split : path = dir ++ rest.splitOn '/' := by
    rw [← splitOn_render second nonempty, ← whole, List.append_assoc, List.singleton_append,
      List.splitOn_append_cons_self, splitOn_render first some]
  constructor
  · exact ⟨_, split.symm⟩
  · intro same
    rw [← same] at split
    exact List.splitOn_ne_nil '/' rest (List.append_right_eq_self.mp split.symm)

/-- The names of a text that are not empty. -/
def names (text : List Char) : List (List Char) := (text.splitOn '/').filter (· ≠ [])

/-- A text that is a path as it stands. -/
def Canonical (text : List Char) : Prop := ∀ n ∈ text.splitOn '/', n ≠ []

theorem slash_notMem_splitOn {text n : List Char} (mem : n ∈ text.splitOn '/') : '/' ∉ n := by
  induction text generalizing n with
  | nil => simp_all
  | cons c text ih =>
    rw [List.splitOn_eq_splitOnP] at mem ih
    rw [List.splitOnP_cons_eq_if_modifyHead] at mem
    split at mem
    · rcases List.mem_cons.mp mem with rfl | later
      · simp
      · exact ih later
    · rename_i other
      cases rest : text.splitOnP (· == '/') with
      | nil => simp [rest] at mem
      | cons first later =>
        rw [rest] at mem ih
        rcases List.mem_cons.mp mem with rfl | below
        · have tail := ih List.mem_cons_self
          intro slash
          rcases List.mem_cons.mp slash with rfl | inside
          · exact other rfl
          · exact tail inside
        · exact ih (List.mem_cons_of_mem _ below)

theorem validNames_names (text : List Char) : ValidNames (names text) := by
  intro n mem
  rw [names, List.mem_filter] at mem
  exact ⟨by simpa using mem.2, slash_notMem_splitOn mem.1⟩

theorem names_append (a b : List Char) : names (a ++ '/' :: b) = names a ++ names b := by
  simp [names, List.splitOn_append_cons_self]

theorem names_render {path : List (List Char)} (valid : ValidNames path) (some : path ≠ []) :
    names (render path) = path := by
  rw [names, splitOn_render valid some, List.filter_eq_self]
  intro n mem
  simpa using (valid n mem).1

/-- A name without the separator is read off at the first separator. -/
theorem append_sep_inj {sep : Char} {m n a b : List Char} (first : sep ∉ m) (second : sep ∉ n) :
    m ++ sep :: a = n ++ sep :: b ↔ m = n ∧ a = b := by
  constructor
  · intro same
    induction m generalizing n with
    | nil =>
      cases n with
      | nil => simpa using same
      | cons d n =>
        injection same with head
        exact absurd (head ▸ List.mem_cons_self) second
    | cons c m ih =>
      cases n with
      | nil =>
        injection same with head
        exact absurd (head ▸ List.mem_cons_self) first
      | cons d n =>
        rw [List.cons_append, List.cons_append, List.cons.injEq] at same
        have rest := ih (fun mem => first (List.mem_cons_of_mem _ mem))
          (fun mem => second (List.mem_cons_of_mem _ mem)) same.2
        exact ⟨by rw [same.1, rest.1], rest.2⟩
  · rintro ⟨rfl, rfl⟩
    rfl

theorem dropPrefix_eq_some {front text rest : List Char} :
    text.dropPrefix? front = some rest ↔ text = front ++ rest := by
  rw [List.dropPrefix?_eq_some_iff]
  constructor
  · rintro ⟨p, rfl, same⟩
    rw [eq_of_beq same]
  · intro whole
    exact ⟨front, whole, beq_self_eq_true _⟩

/-! ## The order of keys -/

/-- What lies between a text and a continuation of it is a continuation too. -/
theorem prefix_of_between {front key rest : List Char} (since : ¬key < front)
    (upto : ¬front ++ rest < key) : front <+: key := by
  induction front generalizing key with
  | nil => exact List.nil_prefix
  | cons d front ih =>
    cases key with
    | nil => exact absurd (List.nil_lt_cons _ _) since
    | cons c key =>
      simp only [List.cons_append, List.cons_lt_cons_iff, not_or, not_and] at since upto
      have same : c = d := le_antisymm (not_lt.mp upto.1) (not_lt.mp since.1)
      subst same
      exact List.cons_prefix_cons.mpr ⟨rfl, ih (since.2 rfl) (upto.2 rfl)⟩

theorem lt_append (front : List Char) {rest : List Char} (more : rest ≠ []) :
    front < front ++ rest := by
  induction front with
  | nil =>
    cases rest with
    | nil => exact absurd rfl more
    | cons c rest => exact List.nil_lt_cons c rest
  | cons c front ih => exact List.cons_lt_cons_iff.mpr (.inr ⟨rfl, ih⟩)

end GlideFS.Lib
