import Mathlib.Data.List.Basic
import Mathlib.Order.Lattice

/-! # Maps that are iterated in the order of their keys -/

namespace GlideFS.Lib

variable {κ β γ : Type}

/-- The entries in ascending order of their keys. -/
@[ext] structure SortedMap (κ β : Type) [LinearOrder κ] where
  entries : List (κ × β)
  sorted : (entries.map Prod.fst).Pairwise (· < ·)

theorem keys_mapIdx (f : ℕ → β → γ) (l : List (κ × β)) :
    (l.mapIdx fun i e => (e.1, f i e.2)).map Prod.fst = l.map Prod.fst := by
  apply List.ext_getElem <;> simp

variable [LinearOrder κ]

def insertEntry (k : κ) (v : β) : List (κ × β) → List (κ × β)
  | [] => [(k, v)]
  | e :: rest =>
      if k < e.1 then (k, v) :: e :: rest
      else if k = e.1 then (k, v) :: rest
      else e :: insertEntry k v rest

variable {l : List (κ × β)}

theorem mem_insertEntry {k : κ} {v : β} {x : κ × β} (mem : x ∈ insertEntry k v l) :
    x = (k, v) ∨ x ∈ l := by
  induction l with
  | nil => simpa [insertEntry] using mem
  | cons e rest ih =>
    unfold insertEntry at mem
    split at mem
    · simpa using mem
    · split at mem
      · rcases List.mem_cons.mp mem with here | later
        · exact .inl here
        · exact .inr (List.mem_cons_of_mem _ later)
      · rcases List.mem_cons.mp mem with here | later
        · exact .inr (here ▸ List.mem_cons_self)
        · exact (ih later).imp_right (List.mem_cons_of_mem _)

theorem mem_keys_insertEntry {k x : κ} {v : β} (mem : x ∈ (insertEntry k v l).map Prod.fst) :
    x = k ∨ x ∈ l.map Prod.fst := by
  obtain ⟨e, there, rfl⟩ := List.mem_map.mp mem
  rcases mem_insertEntry there with rfl | mem
  · exact .inl rfl
  · exact .inr (List.mem_map_of_mem mem)

theorem sorted_insertEntry (k : κ) (v : β) (sorted : (l.map Prod.fst).Pairwise (· < ·)) :
    ((insertEntry k v l).map Prod.fst).Pairwise (· < ·) := by
  induction l with
  | nil => simp [insertEntry]
  | cons e rest ih =>
    obtain ⟨first, later⟩ := List.pairwise_cons.mp sorted
    unfold insertEntry
    split
    · rename_i less
      apply List.Pairwise.cons _ sorted
      intro x mem
      rcases List.mem_cons.mp mem with rfl | mem
      · exact less
      · exact less.trans (first x mem)
    · split
      · rename_i same
        subst same
        exact sorted
      · rename_i notLess other
        apply List.Pairwise.cons _ (ih later)
        intro x mem
        rcases mem_keys_insertEntry mem with rfl | mem
        · exact lt_of_le_of_ne (not_lt.mp notLess) (Ne.symm other)
        · exact first x mem

theorem length_insertEntry_le (k : κ) (v : β) (l : List (κ × β)) :
    (insertEntry k v l).length ≤ l.length + 1 := by
  induction l with
  | nil => simp [insertEntry]
  | cons e rest ih =>
    unfold insertEntry
    split
    · simp
    · split
      · simp
      · simpa using ih

theorem insertEntry_last {k : κ} (v : β) (last : ∀ x ∈ l.map Prod.fst, x < k) :
    insertEntry k v l = l ++ [(k, v)] := by
  induction l with
  | nil => rfl
  | cons e rest ih =>
    have less : e.1 < k := last e.1 List.mem_cons_self
    rw [insertEntry, if_neg (not_lt.mpr less.le), if_neg less.ne',
      ih fun x mem => last x (List.mem_cons_of_mem _ mem), List.cons_append]

namespace SortedMap

def empty : SortedMap κ β := ⟨[], .nil⟩

def insert (m : SortedMap κ β) (k : κ) (v : β) : SortedMap κ β :=
  ⟨insertEntry k v m.entries, sorted_insertEntry k v m.sorted⟩

def keys (m : SortedMap κ β) : List κ := m.entries.map Prod.fst

def get (m : SortedMap κ β) (k : κ) : Option β := m.entries.lookup k

theorem get_eq_none {m : SortedMap κ β} {k : κ} : m.get k = none ↔ k ∉ m.keys := by
  simp only [get, keys, List.lookup_eq_none_iff, List.mem_map, not_exists, not_and]
  constructor
  · intro other e mem same
    simpa [same] using other e mem
  · intro other e mem
    simpa using Ne.symm (other e mem)

theorem sorted_filter (p : κ × β → Bool) {l : List (κ × β)}
    (sorted : (l.map Prod.fst).Pairwise (· < ·)) :
    ((l.filter p).map Prod.fst).Pairwise (· < ·) :=
  sorted.sublist (List.filter_sublist.map Prod.fst)

def erase (m : SortedMap κ β) (k : κ) : SortedMap κ β :=
  ⟨m.entries.filter (·.1 ≠ k), sorted_filter _ m.sorted⟩

@[simp] theorem mem_keys_erase {m : SortedMap κ β} {k x : κ} :
    x ∈ (m.erase k).keys ↔ x ∈ m.keys ∧ x ≠ k := by
  simp only [erase, keys, List.mem_map, List.mem_filter, decide_eq_true_eq]
  constructor
  · rintro ⟨e, ⟨mem, other⟩, rfl⟩
    exact ⟨⟨e, mem, rfl⟩, other⟩
  · rintro ⟨⟨e, mem, rfl⟩, other⟩
    exact ⟨e, ⟨mem, other⟩, rfl⟩

/-- The values in order, each with its place. -/
def mapIdx (m : SortedMap κ β) (f : ℕ → β → γ) : SortedMap κ γ where
  entries := m.entries.mapIdx fun i e => (e.1, f i e.2)
  sorted := (keys_mapIdx f m.entries).symm ▸ m.sorted

end SortedMap

end GlideFS.Lib
