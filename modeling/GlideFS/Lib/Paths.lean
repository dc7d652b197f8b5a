import Mathlib.Data.List.Basic

/-! # Paths through directories and symbolic links

Files are known by their real location, a list of names from the top. A path is
resolved from a directory component by component: a symbolic link is replaced by its
target, the last one only if asked to, and only so many links are followed.
-/

namespace GlideFS.Lib

variable {ν β : Type}

inductive Component (ν : Type) where
  | current
  | parent
  | name (n : ν)
  deriving DecidableEq

inductive Node (ν β : Type) where
  | dir
  | file (content : β)
  | link (absolute : Bool) (target : List (Component ν))
  deriving DecidableEq

/-- What is at each location. -/
def Files (ν β : Type) : Type := List ν → Option (Node ν β)

/-- Goes along a path; `jump` goes on where a link leads. -/
def walk (fs : Files ν β) (follow : Bool) (jump : List ν → List (Component ν) → Option (List ν)) :
    List ν → List (Component ν) → Option (List ν)
  | dir, [] => some dir
  | dir, .current :: rest => walk fs follow jump dir rest
  | dir, .parent :: rest => walk fs follow jump dir.dropLast rest
  | dir, .name n :: rest =>
      match fs (dir ++ [n]) with
      | none => none
      | some .dir => walk fs follow jump (dir ++ [n]) rest
      | some (.file _) => if rest.isEmpty then some (dir ++ [n]) else none
      | some (.link absolute target) =>
          if rest.isEmpty && !follow then some (dir ++ [n])
          else jump (if absolute then [] else dir) (target ++ rest)

/-- The real location of a path that starts at a directory, with at most so many links followed. -/
def resolve (fs : Files ν β) (follow : Bool) : Nat → List ν → List (Component ν) → Option (List ν)
  | 0 => walk fs follow fun _ _ => none
  | links + 1 => walk fs follow (resolve fs follow links)

/-- Files of which some are gone. -/
def Shrunk (fs less : Files ν β) : Prop := ∀ p, less p = fs p ∨ less p = none

theorem Shrunk.refl (fs : Files ν β) : Shrunk fs fs := fun _ => .inl rfl

variable {fs less : Files ν β} {follow : Bool}
  {jump : List ν → List (Component ν) → Option (List ν)} {dir t : List ν}
  {path : List (Component ν)}

theorem Shrunk.trans {gs hs : Files ν β} (first : Shrunk fs gs) (second : Shrunk gs hs) :
    Shrunk fs hs := by
  intro p
  rcases second p with same | gone
  · rw [same]
    exact first p
  · exact .inr gone

theorem walk_of_shrunk (shrunk : Shrunk fs less)
    {jump' : List ν → List (Component ν) → Option (List ν)}
    (jumps : ∀ dir path t, jump' dir path = some t → jump dir path = some t)
    (h : walk less follow jump' dir path = some t) : walk fs follow jump dir path = some t := by
  induction path generalizing dir with
  | nil => exact h
  | cons c rest ih =>
    cases c with
    | current => exact ih h
    | parent => exact ih h
    | name n =>
      rw [walk] at h ⊢
      rcases shrunk (dir ++ [n]) with same | gone
      · rw [same] at h
        cases here : fs (dir ++ [n]) with
        | none => simp [here] at h
        | some node =>
          cases node with
          | dir => exact ih (by simpa [here] using h)
          | file content => simpa [here] using h
          | link absolute target =>
            simp only [here] at h ⊢
            split at h
            · rename_i last
              rw [if_pos last]
              exact h
            · rename_i last
              rw [if_neg last]
              exact jumps _ _ _ h
      · simp [gone] at h

/-- Fewer files do not lead a path elsewhere. -/
theorem resolve_of_shrunk (shrunk : Shrunk fs less) {links : Nat}
    (h : resolve less follow links dir path = some t) :
    resolve fs follow links dir path = some t := by
  induction links generalizing dir path t with
  | zero => exact walk_of_shrunk shrunk (fun _ _ _ none => none) h
  | succ links ih => exact walk_of_shrunk shrunk (fun _ _ _ there => ih there) h

theorem walk_append {j k : List ν → List (Component ν) → Option (List ν)}
    {rest : List (Component ν)} {E : List ν → List ν → Prop} (more : rest ≠ [])
    (ends : ∀ d t, walk fs follow j d rest = some t → E d t)
    (jumps : ∀ dir path t, j dir (path ++ rest) = some t → ∃ d, k dir path = some d ∧ E d t)
    (h : walk fs follow j dir (path ++ rest) = some t) :
    ∃ d, walk fs true k dir path = some d ∧ E d t := by
  induction path generalizing dir with
  | nil => exact ⟨dir, rfl, ends dir t h⟩
  | cons c path ih =>
    cases c with
    | current => exact ih h
    | parent => exact ih h
    | name m =>
      rw [List.cons_append, walk] at h
      rw [walk]
      cases here : fs (dir ++ [m]) with
      | none => simp [here] at h
      | some node =>
        cases node with
        | dir => exact ih (by simpa [here] using h)
        | file content => simp [here, more] at h
        | link absolute target =>
          simp only [Bool.not_true, Bool.and_false, Bool.false_eq_true, if_false]
          apply jumps
          simpa [here, more] using h

/-- A path goes on from where its first part leads. -/
theorem resolve_append {links : Nat} {rest : List (Component ν)} (more : rest ≠ [])
    (h : resolve fs follow links dir (path ++ rest) = some t) :
    ∃ d, resolve fs true links dir path = some d ∧ ∃ n, resolve fs follow n d rest = some t := by
  induction links generalizing dir path t with
  | zero =>
    refine walk_append (j := fun _ _ => none) (k := fun _ _ => none)
      (E := fun d t => ∃ n, resolve fs follow n d rest = some t) more
      (fun _ _ there => ⟨0, there⟩) (fun _ _ _ refused => ?_) h
    cases refused
  | succ links ih =>
    exact walk_append (j := resolve fs follow links) (k := resolve fs true links)
      (E := fun d t => ∃ n, resolve fs follow n d rest = some t) more
      (fun _ _ there => ⟨links + 1, there⟩) (fun _ _ _ there => ih there) h

theorem walk_one {n : ν} {d : List ν} (h : walk fs false jump d [.name n] = some t) :
    t = d ++ [n] := by
  rw [walk] at h
  cases here : fs (d ++ [n]) with
  | none => simp [here] at h
  | some node => cases node <;> simpa [here, walk, eq_comm] using h

/-- A name is looked up in the directory that the path before it leads to. -/
theorem resolve_name {links : Nat} {n : ν}
    (h : resolve fs false links dir (path ++ [.name n]) = some t) :
    ∃ d, resolve fs true links dir path = some d ∧ t = d ++ [n] := by
  obtain ⟨d, first, m, last⟩ := resolve_append (List.cons_ne_nil _ _) h
  refine ⟨d, first, ?_⟩
  cases m <;> exact walk_one last

/-! ## Paths without links -/

/-- The names on a path. -/
def namesOn (path : List (Component ν)) : List ν :=
  path.filterMap fun
    | .name n => some n
    | _ => none

def IsLink (fs : Files ν β) (p : List ν) : Prop := ∃ absolute target, fs p = some (.link absolute target)

theorem Shrunk.isLink (shrunk : Shrunk fs less) {p : List ν} (h : IsLink less p) : IsLink fs p := by
  obtain ⟨absolute, target, here⟩ := h
  rcases shrunk p with same | gone
  · exact ⟨absolute, target, same ▸ here⟩
  · cases gone.symm.trans here

/-- A path that never goes up and meets no link stays below where it starts. -/
theorem walk_below {d : List ν} (up : .parent ∉ path)
    (plain : ∀ q, q <+: (if follow then path else path.dropLast) → ¬IsLink fs (d ++ namesOn q))
    (h : walk fs follow jump d path = some t) : d <+: t := by
  induction path generalizing d with
  | nil =>
    cases h
    exact List.prefix_rfl
  | cons c rest ih =>
    have later : .parent ∉ rest := fun there => up (List.mem_cons_of_mem c there)
    have longer (more : rest ≠ []) (q : List (Component ν))
        (first : q <+: (if follow then rest else rest.dropLast)) :
        c :: q <+: (if follow then c :: rest else (c :: rest).dropLast) := by
      cases follow with
      | true => exact List.cons_prefix_cons.mpr ⟨rfl, first⟩
      | false =>
        rw [if_neg Bool.false_ne_true, List.dropLast_cons_of_ne_nil more]
        exact List.cons_prefix_cons.mpr ⟨rfl, first⟩
    cases c with
    | parent => exact absurd List.mem_cons_self up
    | current =>
      rw [walk] at h
      cases rest with
      | nil =>
        cases h
        exact List.prefix_rfl
      | cons c' rest =>
        exact ih later (fun q first => plain (.current :: q) (longer (List.cons_ne_nil _ _) q first)) h
    | name n =>
      rw [walk] at h
      cases here : fs (d ++ [n]) with
      | none => simp [here] at h
      | some node =>
        cases node with
        | dir =>
          simp only [here] at h
          refine (List.prefix_append d [n]).trans ?_
          cases rest with
          | nil =>
            cases h
            exact List.prefix_rfl
          | cons c' rest =>
            refine ih later (fun q first link => ?_) h
            refine plain (.name n :: q) (longer (List.cons_ne_nil _ _) q first) ?_
            simpa [namesOn] using link
        | file content =>
          simp only [here] at h
          split at h
          · cases h
            exact List.prefix_append d [n]
          · cases h
        | link absolute target =>
          simp only [here] at h
          split at h
          · cases h
            exact List.prefix_append d [n]
          · rename_i further
            refine absurd ⟨absolute, target, here⟩ (plain [.name n] ?_)
            cases follow with
            | true => exact List.cons_prefix_cons.mpr ⟨rfl, List.nil_prefix⟩
            | false =>
              have more : rest ≠ [] := by
                rintro rfl
                exact further rfl
              rw [if_neg Bool.false_ne_true, List.dropLast_cons_of_ne_nil more]
              exact List.cons_prefix_cons.mpr ⟨rfl, List.nil_prefix⟩

theorem resolve_below {links : Nat} {d : List ν} (up : .parent ∉ path)
    (plain : ∀ q, q <+: (if follow then path else path.dropLast) → ¬IsLink fs (d ++ namesOn q))
    (h : resolve fs follow links d path = some t) : d <+: t := by
  cases links <;> exact walk_below up plain h

/-- A location that can be listed. -/
def isDir (fs : Files ν β) (p : List ν) : Bool :=
  match fs p with
  | some (.file _) | some (.link _ _) => false
  | _ => true

/-- Takes away what is at a location, unless it stays. -/
def unlink [DecidableEq ν] (fs : Files ν β) (target : List ν) (stays : List ν → Bool) : Files ν β :=
  fun p => if p = target ∧ stays p = false then none else fs p

/-- Takes away what is at a location and below it, except what stays. -/
def prune [DecidableEq ν] (fs : Files ν β) (top : List ν) (stays : List ν → Bool) : Files ν β :=
  fun p => if top <+: p ∧ stays p = false then none else fs p

theorem shrunk_unlink [DecidableEq ν] (fs : Files ν β) (target : List ν) (stays : List ν → Bool) :
    Shrunk fs (unlink fs target stays) := by
  intro p
  rw [unlink]
  split
  · exact .inr rfl
  · exact .inl rfl

theorem unlink_outside [DecidableEq ν] {root target p : List ν} {stays : List ν → Bool}
    (inside : root <+: target) (outside : ¬root <+: p) : unlink fs target stays p = fs p := by
  rw [unlink, if_neg]
  rintro ⟨rfl, -⟩
  exact outside inside

theorem shrunk_prune [DecidableEq ν] (fs : Files ν β) (top : List ν) (stays : List ν → Bool) :
    Shrunk fs (prune fs top stays) := by
  intro p
  rw [prune]
  split
  · exact .inr rfl
  · exact .inl rfl

theorem prune_outside [DecidableEq ν] {root top p : List ν} {stays : List ν → Bool}
    (inside : root <+: top) (outside : ¬root <+: p) : prune fs top stays p = fs p := by
  rw [prune, if_neg fun both => outside (inside.trans both.1)]

end GlideFS.Lib
