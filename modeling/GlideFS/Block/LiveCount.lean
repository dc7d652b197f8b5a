import GlideFS.Block.VolumeManifest
import Mathlib.Data.List.Dedup
import Mathlib.Data.List.Sort

/-! # Live-block counts in a manifest

Every chunk may have a count of its live blocks, the offsets whose newest entry has
data. A manifest written before counts existed has none, and `stored_bytes` is
given only when all are known. In the stored form the counts follow the chunk
entries in the same order, with the largest 32-bit number for an unknown one.
-/

namespace GlideFS.Block

theorem mem_of_lookup {β : Type} {l : List (Nat × β)} {c : Nat} {v : β}
    (h : l.lookup c = some v) : (c, v) ∈ l := by
  obtain ⟨before, after, rfl, -⟩ := List.lookup_eq_some_iff.mp h
  simp

namespace VolumeManifest

variable {PackId : Type}

/-- Chunk indexes are 32 bits wide. -/
@[irreducible] def chunkKeys : Nat := 2 ^ 32

/-- The chunk map in the order of its keys. -/
def chunkEntries (m : VolumeManifest PackId) : List (Nat × ChunkEntry PackId) :=
  (List.range chunkKeys).filterMap fun c => (m.chunks c).map (Prod.mk c)

/-- Non-zero blocks times the block size; unknown while any chunk's count is. -/
def storedBytes (blockSize : Nat) (m : VolumeManifest PackId) : Option Nat :=
  (m.chunkEntries.foldlM
    (fun (blocks : Nat) (q : Nat × ChunkEntry PackId) => q.2.liveBlocks.map (blocks + ·)) 0).map
      (· * blockSize)

theorem mem_chunkEntries {m : VolumeManifest PackId} {c : Nat} {e : ChunkEntry PackId} :
    (c, e) ∈ m.chunkEntries ↔ c < chunkKeys ∧ m.chunks c = some e := by
  simp only [chunkEntries, List.mem_filterMap, List.mem_range, Option.map_eq_some_iff, Prod.mk.injEq]
  constructor
  · rintro ⟨c', small, e', here, rfl, rfl⟩
    exact ⟨small, here⟩
  · rintro ⟨small, here⟩
    exact ⟨c, small, e, here, rfl, rfl⟩

theorem chunkEntries_sorted (m : VolumeManifest PackId) :
    (m.chunkEntries.map Prod.fst).Pairwise (· < ·) := by
  rw [chunkEntries, List.map_filterMap, List.pairwise_filterMap]
  apply List.pairwise_lt_range.imp
  intro a b less x hx y hy
  simp only [Option.map_map, Option.map_eq_some_iff, Function.comp] at hx hy
  obtain ⟨_, -, rfl⟩ := hx
  obtain ⟨_, -, rfl⟩ := hy
  exact less

theorem chunkEntries_distinct (m : VolumeManifest PackId) :
    (m.chunkEntries.map Prod.fst).Nodup :=
  m.chunkEntries_sorted.imp fun less => Nat.ne_of_lt less

/-- A sum is given only over counts that are all known. -/
theorem known_of_storedBytes {m : VolumeManifest PackId} {blockSize n : Nat}
    (h : m.storedBytes blockSize = some n) {c : Nat} {e : ChunkEntry PackId} (small : c < chunkKeys)
    (here : m.chunks c = some e) : e.liveBlocks ≠ none := by
  obtain ⟨blocks, summed, -⟩ := Option.map_eq_some_iff.mp h
  have each (l : List (Nat × ChunkEntry PackId)) (start total : Nat)
      (summed : l.foldlM (fun (blocks : Nat) (q : Nat × ChunkEntry PackId) =>
        q.2.liveBlocks.map (blocks + ·)) start = some total) :
      ∀ q ∈ l, q.2.liveBlocks ≠ none := by
    induction l generalizing start with
    | nil => simp
    | cons q rest ih =>
      rw [List.foldlM_cons] at summed
      obtain ⟨next, counted, summed⟩ := Option.bind_eq_some_iff.mp summed
      intro q' mem
      rcases List.mem_cons.mp mem with rfl | later
      · intro unknown
        simp [unknown] at counted
      · exact ih next summed q' later
  exact each m.chunkEntries 0 blocks summed (c, e) (mem_chunkEntries.mpr ⟨small, here⟩)

end VolumeManifest

/-! ## The stored form -/

/-- `live_blocks == None` on disk. -/
def liveUnknown : Nat := 2 ^ 32 - 1

/-- The chunk entries of a manifest object and, if its flag is set, the counts behind them. -/
structure StoredManifest (PackId : Type) where
  entries : List (Nat × List PackId)
  counts : Option (List Nat)
  keys : ∀ q ∈ entries, q.1 < VolumeManifest.chunkKeys

variable {PackId : Type}

/-- `serialize`: fails on a chunk whose number of packs does not fit 16 bits. -/
def VolumeManifest.serialize (m : VolumeManifest PackId) : Option (StoredManifest PackId) :=
  if m.chunkEntries.all fun q => q.2.packs.length ≤ 65535 then
    some
      { entries := m.chunkEntries.map fun q => (q.1, q.2.packs)
        counts := some (m.chunkEntries.map fun q => q.2.liveBlocks.getD liveUnknown)
        keys := by
          intro q mem
          obtain ⟨q', there, rfl⟩ := List.mem_map.mp mem
          exact (VolumeManifest.mem_chunkEntries.mp there).1 }
  else none

/-- `deserialize`: a later entry of a chunk replaces an earlier one, and the counts are read in
    the order of the chunk map. -/
def StoredManifest.deserialize (st : StoredManifest PackId) : Option (VolumeManifest PackId) :=
  let listed (c : Nat) : Option (List PackId) := st.entries.reverse.lookup c
  match st.counts with
  | none => some ⟨fun c => (listed c).map fun packs => ⟨packs, none⟩⟩
  | some counts =>
      if counts.length < st.entries.length then none
      else
        let keys := (st.entries.map Prod.fst).dedup.insertionSort (· ≤ ·)
        some ⟨fun c => (listed c).map fun packs =>
          ⟨packs, ((keys.zip counts).lookup c).filter (· ≠ liveUnknown)⟩⟩

/-- A loaded manifest has 32-bit chunk indexes. -/
theorem key_of_deserialize {st : StoredManifest PackId} {m : VolumeManifest PackId}
    (h : st.deserialize = some m) {c : Nat} {e : ChunkEntry PackId} (here : m.chunks c = some e) :
    c < VolumeManifest.chunkKeys := by
  have listed : ∃ packs, st.entries.reverse.lookup c = some packs := by
    simp only [StoredManifest.deserialize] at h
    split at h
    · cases h
      obtain ⟨packs, listed, -⟩ := Option.map_eq_some_iff.mp here
      exact ⟨packs, listed⟩
    · obtain ⟨-, h⟩ := Option.ite_none_left_eq_some.mp h
      cases h
      obtain ⟨packs, listed, -⟩ := Option.map_eq_some_iff.mp here
      exact ⟨packs, listed⟩
  obtain ⟨packs, listed⟩ := listed
  exact st.keys (c, packs) (List.mem_reverse.mp (mem_of_lookup listed))

/-- A manifest that is stored and loaded again lists the same packs, and what it knows of their
    counts it knew before. -/
theorem deserialize_serialize {m : VolumeManifest PackId} {st : StoredManifest PackId}
    (h : m.serialize = some st) : ∃ m', st.deserialize = some m' ∧ ∀ c e', m'.chunks c = some e' →
      ∃ e, m.chunks c = some e ∧ e'.packs = e.packs ∧
        ∀ n, e'.liveBlocks = some n → e.liveBlocks = some n := by
  obtain ⟨-, h⟩ := Option.ite_none_right_eq_some.mp h
  cases h
  have entry {c : Nat} {β : Type} {f : ChunkEntry PackId → β} {v : β}
      (mem : (c, v) ∈ m.chunkEntries.map fun q => (q.1, f q.2)) :
      ∃ e, m.chunks c = some e ∧ v = f e := by
    obtain ⟨⟨c', e⟩, there, same⟩ := List.mem_map.mp mem
    cases same
    exact ⟨e, (VolumeManifest.mem_chunkEntries.mp there).2, rfl⟩
  have keys : ((m.chunkEntries.map fun q => (q.1, q.2.packs)).map Prod.fst).dedup.insertionSort
      (· ≤ ·) = m.chunkEntries.map Prod.fst := by
    rw [List.map_map, show Prod.fst ∘ (fun q : Nat × ChunkEntry PackId => (q.1, q.2.packs)) = Prod.fst
      from rfl, m.chunkEntries_distinct.dedup]
    exact List.Pairwise.insertionSort_eq (m.chunkEntries_sorted.imp fun less => Nat.le_of_lt less)
  have loaded (bound) : StoredManifest.deserialize
      { entries := m.chunkEntries.map fun q => (q.1, q.2.packs)
        counts := some (m.chunkEntries.map fun q => q.2.liveBlocks.getD liveUnknown)
        keys := bound } = some ⟨fun c => ((m.chunkEntries.map fun q => (q.1, q.2.packs)).reverse.lookup c).map fun packs =>
        ⟨packs, ((m.chunkEntries.map fun q => (q.1, q.2.liveBlocks.getD liveUnknown)).lookup c).filter
          (· ≠ liveUnknown)⟩⟩ := by
    simp only [StoredManifest.deserialize, keys, List.length_map, lt_irrefl, if_false, List.zip_map']
  refine ⟨_, loaded _, fun c e' here => ?_⟩
  obtain ⟨packs, listed, rfl⟩ := Option.map_eq_some_iff.mp here
  obtain ⟨e, at_c, rfl⟩ := entry (List.mem_reverse.mp (mem_of_lookup listed))
  refine ⟨e, at_c, rfl, fun n known => ?_⟩
  obtain ⟨counted, other⟩ := Option.filter_eq_some_iff.mp known
  obtain ⟨e₁, at_c', rfl⟩ := entry (f := fun e => e.liveBlocks.getD liveUnknown) (mem_of_lookup counted)
  rw [at_c] at at_c'
  cases at_c'
  cases count : e.liveBlocks with
  | none => simp [count] at other
  | some n => rfl

end GlideFS.Block
