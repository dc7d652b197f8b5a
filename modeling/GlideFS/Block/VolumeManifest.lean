import GlideFS.Block.Pack
import Mathlib.Data.List.AList
import Mathlib.Data.List.Induction

/-! # The volume manifest

The manifest lists, for every chunk, the packs written for it, oldest first. A
block resolves to the entry of the newest pack that has its chunk offset; a block
no pack has is a block of zeros. The flush path sees the same packs through a
merged index, built oldest first so that newer entries replace older ones.
-/

namespace GlideFS.Block

/-- Device, block and chunk sizes as the configuration check admits them. -/
structure Geometry where
  size : Nat
  blockSize : Nat
  chunkSize : Nat
  blockSize_pos : 0 < blockSize
  chunkSize_pos : 0 < chunkSize
  blockSize_dvd : blockSize ∣ chunkSize
  chunks_fit : size ≤ chunkSize * 2 ^ 32

namespace Geometry

/-- A block that starts inside the device. -/
def InRange (g : Geometry) (b : Nat) : Prop := b * g.blockSize < g.size

instance (g : Geometry) (b : Nat) : Decidable (g.InRange b) :=
  inferInstanceAs (Decidable (b * g.blockSize < g.size))

def blocksPerChunk (g : Geometry) : Nat := g.chunkSize / g.blockSize

def chunkIdxForBlock (g : Geometry) (b : Nat) : Nat := b * g.blockSize / g.chunkSize % 2 ^ 32

def blockOffsetInChunk (g : Geometry) (b : Nat) : Nat := b % g.blocksPerChunk

theorem chunkSize_eq (g : Geometry) : g.chunkSize = g.blocksPerChunk * g.blockSize :=
  (Nat.div_mul_cancel g.blockSize_dvd).symm

/-- A block whose chunk has an index, on a device of any size. -/
def Addressable (g : Geometry) (b : Nat) : Prop := b * g.blockSize < g.chunkSize * 2 ^ 32

theorem InRange.addressable {g : Geometry} {b : Nat} (h : g.InRange b) : g.Addressable b :=
  lt_of_lt_of_le h g.chunks_fit

/-- The chunk index of an addressable block is not cut off by its 32 bits. -/
theorem chunkIdxForBlock_eq {g : Geometry} {b : Nat} (h : g.Addressable b) :
    g.chunkIdxForBlock b = b / g.blocksPerChunk := by
  have small : b * g.blockSize / g.chunkSize < 2 ^ 32 := Nat.div_lt_of_lt_mul h
  rw [chunkIdxForBlock, Nat.mod_eq_of_lt small, chunkSize_eq,
    Nat.mul_div_mul_right _ _ g.blockSize_pos]

/-- Chunk index and offset name a block. -/
theorem block_eq_of_chunk {g : Geometry} {a b : Nat} (ha : g.Addressable a) (hb : g.Addressable b)
    (chunk : g.chunkIdxForBlock a = g.chunkIdxForBlock b)
    (offset : g.blockOffsetInChunk a = g.blockOffsetInChunk b) : a = b := by
  rw [chunkIdxForBlock_eq ha, chunkIdxForBlock_eq hb] at chunk
  simp only [blockOffsetInChunk] at offset
  rw [← Nat.div_add_mod a g.blocksPerChunk, ← Nat.div_add_mod b g.blocksPerChunk, chunk, offset]

/-- One GiB in blocks of 4 KiB and chunks of 128 MiB, the sizes of a small export. -/
def gib4k : Geometry where
  size := 1073741824
  blockSize := 4096
  chunkSize := 134217728
  blockSize_pos := by decide
  chunkSize_pos := by decide
  blockSize_dvd := by decide
  chunks_fit := by decide

end Geometry

structure ChunkEntry (PackId : Type) where
  packs : List PackId
  liveBlocks : Option Nat

/-- The chunks that were written, each with its packs, oldest first. -/
structure VolumeManifest (PackId : Type) where
  chunks : Nat → Option (ChunkEntry PackId)

namespace VolumeManifest

variable {PackId : Type}

/-- The manifest of a new volume. -/
def new : VolumeManifest PackId := ⟨fun _ => none⟩

def chunkPackIds (m : VolumeManifest PackId) (c : Nat) : List PackId :=
  ((m.chunks c).map ChunkEntry.packs).getD []

def appendPack (m : VolumeManifest PackId) (c : Nat) (id : PackId) (live : Option Nat) :
    VolumeManifest PackId where
  chunks c' := if c' = c then some ⟨m.chunkPackIds c ++ [id], live⟩ else m.chunks c'

@[simp] theorem chunkPackIds_appendPack (m : VolumeManifest PackId) (c c' : Nat) (id : PackId)
    (live : Option Nat) : (m.appendPack c id live).chunkPackIds c' =
      if c' = c then m.chunkPackIds c ++ [id] else m.chunkPackIds c' := by
  simp only [chunkPackIds, appendPack]
  split <;> simp

def setChunk (m : VolumeManifest PackId) (c : Nat) (entry : Option (ChunkEntry PackId)) :
    VolumeManifest PackId := ⟨Function.update m.chunks c entry⟩

@[simp] theorem setChunk_self (m : VolumeManifest PackId) (c : Nat)
    (entry : Option (ChunkEntry PackId)) : (m.setChunk c entry).chunks c = entry := by
  simp [setChunk]

@[simp] theorem setChunk_other {m : VolumeManifest PackId} {c c' : Nat}
    {entry : Option (ChunkEntry PackId)} (other : c' ≠ c) :
    (m.setChunk c entry).chunks c' = m.chunks c' := by
  simp [setChunk, other]

variable [DecidableEq PackId]

/-- `replace_packs_cas`: the packs a compaction has read give way to `new`, those appended
    since stay. It is refused when the list does not begin with `old` any more. -/
def replacePacksCas (m : VolumeManifest PackId) (c : Nat) (old new : List PackId) :
    Option (VolumeManifest PackId) :=
  (m.chunks c).bind fun entry =>
    if entry.packs.take old.length = old then
      let merged := new ++ entry.packs.drop old.length
      some (m.setChunk c (if merged.isEmpty then none else some { entry with packs := merged }))
    else none

/-- Records a count that was computed from `packs`, if the chunk has none and still lists
    them. -/
def setLiveBlocksIfUnknown (m : VolumeManifest PackId) (c : Nat) (packs : List PackId)
    (live : Nat) : VolumeManifest PackId :=
  match m.chunks c with
  | some ⟨listed, none⟩ => if listed = packs then m.setChunk c (some ⟨listed, some live⟩) else m
  | _ => m

/-- What a successful replacement does to the list of its chunk. -/
structure Replaced (m m' : VolumeManifest PackId) (c : Nat) (old new tail : List PackId) : Prop where
  before : m.chunkPackIds c = old ++ tail
  after : m'.chunkPackIds c = new ++ tail
  count : ∀ e, m'.chunks c = some e → ∃ e₀, m.chunks c = some e₀ ∧ e.liveBlocks = e₀.liveBlocks
  others : ∀ c' ≠ c, m'.chunks c' = m.chunks c'

theorem replacePacksCas_replaced {m m' : VolumeManifest PackId} {c : Nat} {old new : List PackId}
    (h : m.replacePacksCas c old new = some m') : ∃ tail, Replaced m m' c old new tail := by
  obtain ⟨entry, here, h⟩ := Option.bind_eq_some_iff.mp h
  obtain ⟨begins, h⟩ := Option.ite_none_right_eq_some.mp h
  cases h
  have split : entry.packs = old ++ entry.packs.drop old.length := by
    conv_lhs => rw [← List.take_append_drop old.length entry.packs, begins]
  refine ⟨entry.packs.drop old.length, ⟨?_, ?_, ?_, fun c' other => by simp [other]⟩⟩
  · simp [chunkPackIds, here, ← split]
  · by_cases gone : new ++ entry.packs.drop old.length = []
    · simp [chunkPackIds, gone]
    · simp [chunkPackIds, gone]
  · intro e at_e
    simp only [setChunk_self] at at_e
    split at at_e
    · cases at_e
    · cases at_e
      exact ⟨entry, here, rfl⟩

end VolumeManifest

section Resolution

variable {D Hash PackId : Type} [Zero D] [DecidableEq Hash] {C : Codec D Hash PackId}

/-- The entry of the first listed pack that has the offset, or `none` when an index
    that might have it cannot be loaded. -/
def locateIn (s : PackStore C) (c off : Nat) : List PackId → Option (Option (PackBlock Hash))
  | [] => some none
  | id :: older =>
      match s.get c id with
      | none => none
      | some p =>
          match p.find off with
          | some e => some (some e)
          | none => locateIn s c off older

/-- Newest-first lookup of a block in a manifest. -/
def locateBlock (g : Geometry) (s : PackStore C) (m : VolumeManifest PackId) (b : Nat) :
    Option (Option (PackBlock Hash)) :=
  locateIn s (g.chunkIdxForBlock b) (g.blockOffsetInChunk b)
    (m.chunkPackIds (g.chunkIdxForBlock b)).reverse

/-- What a read of a block resolves to through a manifest. -/
def resolveBlock (g : Geometry) (s : PackStore C) (m : VolumeManifest PackId) (b : Nat) :
    Option D :=
  match locateBlock g s m b with
  | none => none
  | some none => some 0
  | some (some e) => C.fetchBlock e

/-- Every pack the manifest lists is in the store. -/
def Backed (s : PackStore C) (m : VolumeManifest PackId) : Prop :=
  ∀ c, ∀ id ∈ m.chunkPackIds c, (s.get c id).isSome

/-- The merged view of a chunk's packs: chunk offset to hash and compressed length. -/
abbrev ExistingBlocks (Hash : Type) := AList fun _ : Nat => Hash × Nat

def insertEntries (map : ExistingBlocks Hash) (es : List (PackBlock Hash)) : ExistingBlocks Hash :=
  es.foldl (fun map e => map.insert e.chunkOffset (e.hash, e.compressed.length)) map

/-- Merges the packs oldest first; a missing index is an error. -/
def loadExisting (s : PackStore C) (c : Nat) (ids : List PackId) : Option (ExistingBlocks Hash) :=
  ids.foldlM (fun map id => (s.get c id).map fun p => insertEntries map p.blocks) ∅

/-- Hash and length of an index entry. -/
def PackBlock.indexed (e : PackBlock Hash) : Hash × Nat := (e.hash, e.compressed.length)

/-- Entries at distinct offsets replace what the map had there. -/
theorem lookup_insertAll {β : Type} (value : PackBlock Hash → β) {es : List (PackBlock Hash)}
    (distinct : (es.map PackBlock.chunkOffset).Nodup) (map : AList fun _ : Nat => β) (off : Nat) :
    (es.foldl (fun map e => map.insert e.chunkOffset (value e)) map).lookup off =
      ((es.find? fun e => e.chunkOffset == off).map value).or (map.lookup off) := by
  induction es generalizing map with
  | nil => rfl
  | cons e rest ih =>
    obtain ⟨fresh, distinct⟩ := List.nodup_cons.mp distinct
    rw [List.foldl_cons, ih distinct, List.find?_cons]
    by_cases here : e.chunkOffset = off
    · have gone : rest.find? (fun e => e.chunkOffset == off) = none := by
        rw [List.find?_eq_none]
        intro e' mem same
        exact fresh (List.mem_map.mpr ⟨e', mem, (by simpa using same : _ = off).trans here.symm⟩)
      simp [gone, here, AList.lookup_insert]
    · have other : (e.chunkOffset == off) = false := by simpa using here
      rw [AList.lookup_insert_ne (Ne.symm here), other]

theorem lookup_insertEntries {es : List (PackBlock Hash)}
    (distinct : (es.map PackBlock.chunkOffset).Nodup) (map : ExistingBlocks Hash) (off : Nat) :
    (insertEntries map es).lookup off =
      ((es.find? fun e => e.chunkOffset == off).map PackBlock.indexed).or (map.lookup off) :=
  lookup_insertAll PackBlock.indexed distinct map off

/-- What a lookup over loaded packs returns: nothing, or a sound entry at that offset. -/
structure Found (C : Codec D Hash PackId) (off : Nat) (r : Option (PackBlock Hash)) : Prop where
  sound : ∀ e, r = some e → e.Sound C
  offset : ∀ e, r = some e → e.chunkOffset = off

variable {s s' : PackStore C} {ids : List PackId} {r : Option (PackBlock Hash)}
  {m : VolumeManifest PackId}

theorem locateIn_found {c off : Nat} (h : locateIn s c off ids = some r) : Found C off r := by
  induction ids with
  | nil =>
    cases h
    exact ⟨nofun, nofun⟩
  | cons id older ih =>
    simp only [locateIn] at h
    split at h
    · cases h
    · rename_i p _
      split at h
      · rename_i e found
        cases h
        obtain ⟨mem, off⟩ := Pack.find_some found
        exact ⟨fun _ h => (by cases h; exact p.sound _ mem), fun _ h => (by cases h; exact off)⟩
      · exact ih h

/-- A loaded newest pack answers for its own offsets and passes on the others. -/
theorem locateIn_cons {c : Nat} {id : PackId} {p : Pack C} (get : s.get c id = some p) (off : Nat)
    (older : List PackId) :
    locateIn s c off (id :: older) =
      ((p.find off).map some).or (locateIn s c off older) := by
  simp only [locateIn, get]
  cases p.find off <;> rfl

/-- Older packs are asked when the newer ones are all loaded and have no entry. -/
theorem locateIn_append (s : PackStore C) (c off : Nat) (newer older : List PackId) :
    locateIn s c off (newer ++ older) = (locateIn s c off newer).bind fun found =>
      (found.map some).or (locateIn s c off older) := by
  induction newer with
  | nil => simp [locateIn]
  | cons id rest ih =>
    simp only [List.cons_append, locateIn]
    cases s.get c id with
    | none => rfl
    | some p =>
      cases found : p.find off with
      | none => simpa [found] using ih
      | some e => simp [found]

/-- The merged index and the newest-first lookup see the same entry at every offset. -/
theorem lookup_loadExisting {c : Nat} (present : ∀ id ∈ ids, (s.get c id).isSome) :
    ∃ ex, loadExisting s c ids = some ex ∧ ∀ off, ∃ r, locateIn s c off ids.reverse = some r ∧
      ex.lookup off = r.map PackBlock.indexed := by
  induction ids using List.reverseRecOn with
  | nil => exact ⟨∅, rfl, fun off => ⟨none, rfl, AList.lookup_empty off⟩⟩
  | append_singleton ids id ih =>
    obtain ⟨ex, loaded, agree⟩ := ih fun i mem => present i (by simp [mem])
    obtain ⟨p, get⟩ := Option.isSome_iff_exists.mp (present id (by simp))
    refine ⟨insertEntries ex p.blocks, ?_, fun off => ?_⟩
    · rw [loadExisting, List.foldlM_append]
      rw [loadExisting] at loaded
      simp [loaded, get]
    · obtain ⟨r, located, same⟩ := agree off
      rw [lookup_insertEntries p.distinct, same, List.reverse_append, List.reverse_singleton,
        List.singleton_append, locateIn_cons get]
      change ∃ r', _ ∧ Option.or ((p.find off).map PackBlock.indexed) _ = _
      cases p.find off with
      | some e => exact ⟨some e, rfl, rfl⟩
      | none => exact ⟨r, located, rfl⟩

/-- A merged view shows what the newest-first lookup finds. -/
theorem loadExisting_lookup {c : Nat} {ex : ExistingBlocks Hash}
    (h : loadExisting s c ids = some ex) (off : Nat) :
    ∃ r, locateIn s c off ids.reverse = some r ∧ ex.lookup off = r.map PackBlock.indexed := by
  have present : ∀ id ∈ ids, (s.get c id).isSome := by
    induction ids using List.reverseRecOn generalizing ex with
    | nil => simp
    | append_singleton ids id ih =>
      rw [loadExisting, List.foldlM_append] at h
      obtain ⟨older, before, h⟩ := Option.bind_eq_some_iff.mp h
      simp only [List.foldlM_cons, List.foldlM_nil] at h
      obtain ⟨_, h, -⟩ := Option.bind_eq_some_iff.mp h
      obtain ⟨p, get, -⟩ := Option.map_eq_some_iff.mp h
      intro i mem
      rcases List.mem_append.mp mem with old | new
      · exact ih before i old
      · simp [List.mem_singleton.mp new, get]
  obtain ⟨ex', loaded, agree⟩ := lookup_loadExisting present
  cases h.symm.trans loaded
  exact agree off

/-- A store that still holds every pack of an earlier one. -/
def PackStore.Extends (s s' : PackStore C) : Prop :=
  ∀ c id p, s.get c id = some p → s'.get c id = some p

theorem locateIn_extends (more : s.Extends s') {c off : Nat} (h : locateIn s c off ids = some r) :
    locateIn s' c off ids = some r := by
  induction ids with
  | nil => exact h
  | cons id older ih =>
    simp only [locateIn] at h ⊢
    split at h
    · cases h
    · rename_i p get
      simp only [more _ _ _ get]
      split at h
      · exact h
      · exact ih h

theorem Backed.extends (h : Backed s m) (more : s.Extends s') : Backed s' m := by
  intro c id mem
  obtain ⟨p, get⟩ := Option.isSome_iff_exists.mp (h c id mem)
  rw [more _ _ _ get]
  rfl

theorem Backed.located (h : Backed s m) (g : Geometry) (b : Nat) :
    ∃ r, locateBlock g s m b = some r := by
  obtain ⟨_, _, agree⟩ := lookup_loadExisting (h (g.chunkIdxForBlock b))
  obtain ⟨r, located, _⟩ := agree (g.blockOffsetInChunk b)
  exact ⟨r, located⟩

/-- A block resolves to `d` exactly when the hash the merged index has for it is that
    of `d`, an absent entry standing for zeros. -/
theorem resolveBlock_iff {g : Geometry} {b : Nat} (located : locateBlock g s m b = some r) (d : D) :
    resolveBlock g s m b = some d ↔
      (r.map PackBlock.hash).getD C.zeroBlockHash = C.blake3 d := by
  have found := locateIn_found located
  rw [resolveBlock, located]
  cases r with
  | none =>
    simp only [Option.map_none, Option.getD_none, Option.some.injEq, Codec.zeroBlockHash]
    exact ⟨fun h => by rw [h], fun h => C.blake3_injective h⟩
  | some e =>
    obtain ⟨d', fetched, hash⟩ := found.sound e rfl
    simp only [fetched, Option.map_some, Option.getD_some, Option.some.injEq, ← hash]
    exact ⟨fun h => by rw [h], fun h => C.blake3_injective h⟩

theorem Backed.resolves (h : Backed s m) (g : Geometry) (b : Nat) :
    ∃ d, resolveBlock g s m b = some d := by
  obtain ⟨r, located⟩ := h.located g b
  cases r with
  | none => exact ⟨0, by rw [resolveBlock, located]⟩
  | some e =>
    obtain ⟨d, fetched, _⟩ := (locateIn_found located).sound e rfl
    exact ⟨d, by rw [resolveBlock, located]; exact fetched⟩

theorem Backed.resolve_extends (h : Backed s m) (more : s.Extends s') (g : Geometry) (b : Nat) :
    resolveBlock g s' m b = resolveBlock g s m b := by
  obtain ⟨r, located⟩ := h.located g b
  have located' : locateBlock g s' m b = some r := locateIn_extends more located
  rw [resolveBlock, resolveBlock, located, located']

end Resolution

end GlideFS.Block
