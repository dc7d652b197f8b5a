import GlideFS.Block.VolumeManifest
import GlideFS.Lib.Runs
import Mathlib.Data.List.Dedup

/-! # The body of a flush

A flush reads the blocks of its snapshot, hashes and compresses them, and packs
per chunk those whose content the chunk's packs do not resolve to already. A pack
whose id the chunk lists is not uploaded again. Uploaded packs are appended to
the in-memory manifest; every block of the snapshot may then be evicted.
-/

namespace GlideFS.WriteCache

open Block Lib

section Compute

variable {D Hash PackId : Type} [Zero D] [DecidableEq D] [DecidableEq Hash]

/-- The blocks of one flush with the bytes it read for them. -/
structure Snapshot (g : Geometry) (D : Type) where
  blocks : List (Nat × D)
  distinct : (blocks.map Prod.fst).Nodup
  inRange : ∀ p ∈ blocks, g.InRange p.1

/-- Unique compressed contents, and the hash of every block. -/
structure FlushBatch (Hash : Type) where
  toUpload : List (Hash × List UInt8)
  computed : List (Nat × Hash)

/-- Zero blocks are recognised before hashing and carry no data. -/
def computeBlock (C : Codec D Hash PackId) (level : Int) (d : D) : Hash × Option (List UInt8) :=
  if d = 0 then (C.zeroBlockHash, none) else (C.blake3 d, some (C.compressBlock d level))

/-- Adds one block to the batch; a content seen before is not added twice. -/
def FlushBatch.add (C : Codec D Hash PackId) (level : Int) (batch : FlushBatch Hash)
    (p : Nat × D) : FlushBatch Hash :=
  match computeBlock C level p.2 with
  | (h, none) => { batch with computed := batch.computed ++ [(p.1, h)] }
  | (h, some data) =>
      { toUpload :=
          if (batch.toUpload.lookup h).isSome then batch.toUpload else batch.toUpload ++ [(h, data)]
        computed := batch.computed ++ [(p.1, h)] }

def computeFlushBatch (C : Codec D Hash PackId) (level : Int) (blocks : List (Nat × D)) :
    FlushBatch Hash :=
  blocks.foldl (FlushBatch.add C level) ⟨[], []⟩

/-- Whether reads find this content at the offset already. -/
def dominated (C : Codec D Hash PackId) (existing : ExistingBlocks Hash) (off : Nat) (h : Hash) :
    Bool :=
  match existing.lookup off with
  | some (h', _) => h' = h
  | none => h = C.zeroBlockHash

/-- The pack entry of a block: a tombstone for zeros, else the batch's bytes for its hash. -/
def packEntry (C : Codec D Hash PackId) (batch : FlushBatch Hash) (off : Nat) (h : Hash) :
    Option (PackBlock Hash) :=
  if h = C.zeroBlockHash then some ⟨h, off, []⟩
  else (batch.toUpload.lookup h).map fun data => ⟨h, off, data⟩

/-- The entries of the chunk's new pack. -/
def blocksForPack (C : Codec D Hash PackId) (g : Geometry) (existing : ExistingBlocks Hash)
    (batch : FlushBatch Hash) : List (PackBlock Hash) :=
  batch.computed.filterMap fun (b, h) =>
    if dominated C existing (g.blockOffsetInChunk b) h then none
    else packEntry C batch (g.blockOffsetInChunk b) h

/-- The blocks to evict: those reads resolve already and those in the new pack. -/
def packedIndices (C : Codec D Hash PackId) (g : Geometry) (existing : ExistingBlocks Hash)
    (batch : FlushBatch Hash) : List Nat :=
  batch.computed.filterMap fun (b, h) =>
    if dominated C existing (g.blockOffsetInChunk b) h then some b
    else (packEntry C batch (g.blockOffsetInChunk b) h).map fun _ => b

/-- Live blocks after the new entries are applied over the merged view. -/
def liveBlocksAfter (existing : ExistingBlocks Hash) (new : List (Nat × Bool)) : Nat :=
  let live := (existing.entries.filter fun e => 0 < e.2.2).length
  let was (off : Nat) : Bool := (existing.lookup off).any fun e => 0 < e.2
  (new.foldl (fun (n : Int) (off, now) => n + now.toNat - (was off).toNat) live).toNat

/-- What the flush packs for a block of content `d` that is not deduplicated. -/
def packBlock (C : Codec D Hash PackId) (level : Int) (off : Nat) (d : D) : PackBlock Hash :=
  ⟨C.blake3 d, off, if d = 0 then [] else C.compressBlock d level⟩

theorem packBlock_fetch (C : Codec D Hash PackId) (level : Int) (off : Nat) (d : D) :
    C.fetchBlock (packBlock C level off d) = some d := by
  by_cases zero : d = 0
  · simp [Codec.fetchBlock, packBlock, zero]
  · have long : (C.compressBlock d level).length ≠ 0 := by
      simpa using C.compress_nonempty d level
    simp [Codec.fetchBlock, packBlock, zero, C.decompress_compress, C.compress_nonempty]

theorem packBlock_sound (C : Codec D Hash PackId) (level : Int) (off : Nat) (d : D) :
    (packBlock C level off d).Sound C :=
  ⟨d, packBlock_fetch C level off d, rfl⟩

/-- Every uploaded content is the compression of a nonzero block under its own hash. -/
def FlushBatch.Faithful (C : Codec D Hash PackId) (level : Int) (batch : FlushBatch Hash) : Prop :=
  ∀ q ∈ batch.toUpload, ∃ d, d ≠ 0 ∧ q = (C.blake3 d, C.compressBlock d level)

variable {C : Codec D Hash PackId} {level : Int} {batch : FlushBatch Hash} {blocks : List (Nat × D)}

theorem add_faithful (h : batch.Faithful C level) (p : Nat × D) :
    (batch.add C level p).Faithful C level := by
  intro q mem
  by_cases zero : p.2 = 0
  · simp only [FlushBatch.add, computeBlock, zero, if_true] at mem
    exact h q mem
  · simp only [FlushBatch.add, computeBlock, zero, if_false] at mem
    split at mem
    · exact h q mem
    · rcases List.mem_append.mp mem with old | new
      · exact h q old
      · exact ⟨p.2, zero, List.mem_singleton.mp new⟩

/-- A faithful batch has one content per hash, so it finds the block's own bytes. -/
theorem FlushBatch.Faithful.lookup (h : batch.Faithful C level) {d : D}
    (present : (batch.toUpload.lookup (C.blake3 d)).isSome) :
    batch.toUpload.lookup (C.blake3 d) = some (C.compressBlock d level) := by
  obtain ⟨data, found⟩ := Option.isSome_iff_exists.mp present
  obtain ⟨before, after, split, _⟩ := List.lookup_eq_some_iff.mp found
  obtain ⟨d', _, same⟩ := h (C.blake3 d, data) (by simp [split])
  obtain ⟨hash, bytes⟩ := Prod.mk.inj same
  rw [found, bytes, C.blake3_injective hash]

theorem add_computed (C : Codec D Hash PackId) (level : Int) (batch : FlushBatch Hash)
    (p : Nat × D) :
    (batch.add C level p).computed = batch.computed ++ [(p.1, C.blake3 p.2)] := by
  by_cases zero : p.2 = 0
  · simp only [FlushBatch.add, computeBlock, zero, if_true, Codec.zeroBlockHash]
  · simp only [FlushBatch.add, computeBlock, zero, if_false]

theorem add_keeps {h : Hash} (present : (batch.toUpload.lookup h).isSome) (p : Nat × D) :
    ((batch.add C level p).toUpload.lookup h).isSome := by
  by_cases zero : p.2 = 0
  · simpa only [FlushBatch.add, computeBlock, zero, if_true] using present
  · simp only [FlushBatch.add, computeBlock, zero, if_false]
    split
    · exact present
    · simp [List.lookup_append, present]

theorem add_present {p : Nat × D} (nonzero : p.2 ≠ 0) :
    ((batch.add C level p).toUpload.lookup (C.blake3 p.2)).isSome := by
  simp only [FlushBatch.add, computeBlock, nonzero, if_false]
  split
  · assumption
  · simp [List.lookup_append]

/-- What a batch knows about the blocks it was computed from. -/
structure FlushBatch.Computes (C : Codec D Hash PackId) (level : Int) (blocks : List (Nat × D))
    (batch : FlushBatch Hash) : Prop where
  faithful : batch.Faithful C level
  computed : batch.computed = blocks.map fun p => (p.1, C.blake3 p.2)
  present : ∀ p ∈ blocks, p.2 ≠ 0 → (batch.toUpload.lookup (C.blake3 p.2)).isSome

theorem computeFlushBatch_computes (C : Codec D Hash PackId) (level : Int)
    (blocks : List (Nat × D)) :
    (computeFlushBatch C level blocks).Computes C level blocks := by
  induction blocks using List.reverseRecOn with
  | nil => exact ⟨fun _ mem => absurd mem List.not_mem_nil, rfl, fun _ mem => absurd mem List.not_mem_nil⟩
  | append_singleton blocks p ih =>
    rw [computeFlushBatch, List.foldl_append]
    refine ⟨add_faithful ih.faithful p, ?_, fun q mem nonzero => ?_⟩
    · exact (add_computed C level _ p).trans (by rw [← computeFlushBatch, ih.computed]; simp)
    · rcases List.mem_append.mp mem with old | new
      · exact add_keeps (ih.present q old nonzero) p
      · obtain rfl := List.mem_singleton.mp new
        exact add_present nonzero

/-- The batch always has the bytes of a block it computed, so no block is dropped. -/
theorem packEntry_computed (h : batch.Computes C level blocks) (off : Nat) {p : Nat × D}
    (mem : p ∈ blocks) :
    packEntry C batch off (C.blake3 p.2) = some (packBlock C level off p.2) := by
  by_cases zero : p.2 = 0
  · simp [packEntry, packBlock, zero, Codec.zeroBlockHash]
  · have other : C.blake3 p.2 ≠ C.zeroBlockHash := fun same => zero (C.blake3_injective same)
    simp [packEntry, packBlock, zero, other, h.faithful.lookup (h.present p mem zero)]

theorem packedIndices_computed (h : batch.Computes C level blocks) (g : Geometry)
    (existing : ExistingBlocks Hash) : packedIndices C g existing batch = blocks.map Prod.fst := by
  rw [packedIndices, h.computed, List.filterMap_map, ← List.filterMap_eq_map]
  apply List.filterMap_congr
  intro p mem
  simp only [Function.comp, packEntry_computed h _ mem, Option.map_some, ite_self]

theorem blocksForPack_computed (h : batch.Computes C level blocks) (g : Geometry)
    (existing : ExistingBlocks Hash) :
    blocksForPack C g existing batch =
      (blocks.filter fun p => !dominated C existing (g.blockOffsetInChunk p.1) (C.blake3 p.2)).map
        fun p => packBlock C level (g.blockOffsetInChunk p.1) p.2 := by
  rw [blocksForPack, h.computed, List.filterMap_map, ← List.filterMap_eq_map,
    ← List.filterMap_eq_filter, List.filterMap_filterMap]
  apply List.filterMap_congr
  intro p mem
  cases seen : dominated C existing (g.blockOffsetInChunk p.1) (C.blake3 p.2) with
  | true => simp [Function.comp, seen, Option.guard]
  | false => simp [Function.comp, seen, Option.guard, packEntry_computed h _ mem]

end Compute

namespace Snapshot

variable {D : Type} {g : Geometry}

def chunks (snap : Snapshot g D) : List Nat :=
  (snap.blocks.map fun p => g.chunkIdxForBlock p.1).dedup

def inChunk (snap : Snapshot g D) (c : Nat) : List (Nat × D) :=
  snap.blocks.filter fun p => g.chunkIdxForBlock p.1 == c

variable {snap : Snapshot g D}

theorem mem_inChunk {c : Nat} {p : Nat × D} :
    p ∈ snap.inChunk c ↔ p ∈ snap.blocks ∧ g.chunkIdxForBlock p.1 = c := by
  simp [inChunk]

theorem mem_chunks {c : Nat} : c ∈ snap.chunks ↔ ∃ p ∈ snap.blocks, g.chunkIdxForBlock p.1 = c := by
  rw [chunks, List.mem_dedup, List.mem_map]

theorem eq_of_fst {p q : Nat × D} (hp : p ∈ snap.blocks) (hq : q ∈ snap.blocks) (same : p.1 = q.1) :
    p = q :=
  List.inj_on_of_nodup_map snap.distinct hp hq same

/-- In one chunk the offset names the block. -/
theorem eq_of_offset {c : Nat} {p q : Nat × D} (hp : p ∈ snap.inChunk c) (hq : q ∈ snap.inChunk c)
    (same : g.blockOffsetInChunk p.1 = g.blockOffsetInChunk q.1) : p = q := by
  obtain ⟨hp, cp⟩ := mem_inChunk.mp hp
  obtain ⟨hq, cq⟩ := mem_inChunk.mp hq
  exact eq_of_fst hp hq
    (Geometry.block_eq_of_chunk (snap.inRange p hp).addressable (snap.inRange q hq).addressable
      (cp.trans cq.symm) same)

end Snapshot

section Plan

variable {D Hash PackId : Type} [Zero D] [DecidableEq D] [DecidableEq Hash] [DecidableEq PackId]
  {C : Codec D Hash PackId} {g : Geometry}

/-- What the flush does for one chunk. -/
structure ChunkPlan (C : Codec D Hash PackId) where
  chunkIdx : Nat
  flushed : List Nat
  pack : Pack C
  liveBlocks : Nat

/-- The entries of a chunk's pack have distinct offsets and sound contents. -/
def packFor (C : Codec D Hash PackId) (level : Int) (existing : ExistingBlocks Hash)
    (snap : Snapshot g D) (c : Nat) : Pack C where
  blocks := blocksForPack C g existing (computeFlushBatch C level (snap.inChunk c))
  distinct := by
    rw [blocksForPack_computed (computeFlushBatch_computes C level _), List.map_map]
    refine (List.Nodup.filter _ ?_).map_on fun p hp q hq same => ?_
    · exact (List.Nodup.of_map _ snap.distinct).filter _
    · exact Snapshot.eq_of_offset (List.mem_of_mem_filter hp) (List.mem_of_mem_filter hq) same
  sound := by
    rw [blocksForPack_computed (computeFlushBatch_computes C level _)]
    intro e mem
    obtain ⟨p, _, rfl⟩ := List.mem_map.mp mem
    exact packBlock_sound C level _ p.2

def planChunk (s : PackStore C) (m : VolumeManifest PackId) (level : Int) (snap : Snapshot g D)
    (c : Nat) : Option (ChunkPlan C) :=
  (loadExisting s c (m.chunkPackIds c)).map fun existing =>
    let batch := computeFlushBatch C level (snap.inChunk c)
    let pack := packFor C level existing snap c
    { chunkIdx := c
      flushed := packedIndices C g existing batch
      pack
      liveBlocks := liveBlocksAfter existing
        (pack.blocks.map fun e => (e.chunkOffset, decide (e.hash ≠ C.zeroBlockHash))) }

/-- The whole flush, chunk by chunk; a pack index that cannot be loaded fails it. -/
def planFlush (s : PackStore C) (m : VolumeManifest PackId) (level : Int) (snap : Snapshot g D) :
    Option (List (ChunkPlan C)) :=
  snap.chunks.mapM (planChunk s m level snap)

/-- An empty pack is not written, and neither is one the chunk lists already. -/
def ChunkPlan.uploads (m : VolumeManifest PackId) (p : ChunkPlan C) : Bool :=
  !p.pack.blocks.isEmpty && !(m.chunkPackIds p.chunkIdx).contains p.pack.packId

/-- The plans whose packs are uploaded and staged for the manifest. -/
def staged (m : VolumeManifest PackId) (plans : List (ChunkPlan C)) : List (ChunkPlan C) :=
  plans.filter (ChunkPlan.uploads m)

def uploadPacks (s : PackStore C) (packs : List (ChunkPlan C)) : PackStore C :=
  packs.foldl (fun s p => s.streamChunkPack p.chunkIdx p.pack) s

def appendStaged (m : VolumeManifest PackId) (packs : List (ChunkPlan C)) :
    VolumeManifest PackId :=
  packs.foldl (fun m p => m.appendPack p.chunkIdx p.pack.packId (some p.liveBlocks)) m

/-- The blocks `flush_dirty_body` evicts. -/
def flushedBlocks (plans : List (ChunkPlan C)) : List Nat := plans.flatMap ChunkPlan.flushed

/-- The packs are in the store and nothing it had is lost. -/
structure Uploaded (s s' : PackStore C) (packs : List (ChunkPlan C)) : Prop where
  keeps : s.Extends s'
  has : ∀ p ∈ packs, s'.get p.chunkIdx p.pack.packId = some p.pack

variable {s : PackStore C} {packs : List (ChunkPlan C)} {m : VolumeManifest PackId}

/-- One more pack is uploaded. -/
theorem Uploaded.streamChunkPack {s' : PackStore C} (h : Uploaded s s' packs) (p : ChunkPlan C) :
    Uploaded s (s'.streamChunkPack p.chunkIdx p.pack) (p :: packs) where
  keeps c id q get := PackStore.streamChunkPack_keeps (h.keeps c id q get)
  has q mem := by
    cases mem with
    | head => exact s'.streamChunkPack_self p.chunkIdx p.pack
    | tail _ mem => exact PackStore.streamChunkPack_keeps (h.has q mem)

theorem uploadPacks_uploaded (s : PackStore C) (packs : List (ChunkPlan C)) :
    Uploaded s (uploadPacks s packs) packs := by
  induction packs using List.reverseRecOn with
  | nil => exact ⟨fun _ _ _ get => get, fun _ mem => absurd mem List.not_mem_nil⟩
  | append_singleton packs p ih =>
    rw [uploadPacks, List.foldl_append]
    have one := ih.streamChunkPack p
    exact ⟨one.keeps, fun q mem => one.has q (by simpa [or_comm] using mem)⟩

theorem appendStaged_chunks_other {c : Nat} (absent : c ∉ packs.map ChunkPlan.chunkIdx) :
    (appendStaged m packs).chunks c = m.chunks c := by
  induction packs generalizing m with
  | nil => rfl
  | cons p rest ih =>
    obtain ⟨here, absent⟩ := not_or.mp (mt List.mem_cons.mpr absent)
    exact (ih absent).trans (by simp [VolumeManifest.appendPack, here])

theorem appendStaged_chunks_mem (distinct : (packs.map ChunkPlan.chunkIdx).Nodup) {p : ChunkPlan C}
    (mem : p ∈ packs) :
    (appendStaged m packs).chunks p.chunkIdx =
      some ⟨m.chunkPackIds p.chunkIdx ++ [p.pack.packId], some p.liveBlocks⟩ := by
  induction packs generalizing m with
  | nil => exact absurd mem List.not_mem_nil
  | cons q rest ih =>
    obtain ⟨fresh, distinct⟩ := List.nodup_cons.mp distinct
    cases mem with
    | head => exact (appendStaged_chunks_other fresh).trans (by simp [VolumeManifest.appendPack])
    | tail _ mem =>
      have other : p.chunkIdx ≠ q.chunkIdx := fun same =>
        fresh (List.mem_map.mpr ⟨p, mem, same⟩)
      exact (ih distinct mem).trans (by simp [other])

theorem appendStaged_other {c : Nat} (absent : c ∉ packs.map ChunkPlan.chunkIdx) :
    (appendStaged m packs).chunkPackIds c = m.chunkPackIds c := by
  rw [VolumeManifest.chunkPackIds, VolumeManifest.chunkPackIds, appendStaged_chunks_other absent]

theorem appendStaged_mem (distinct : (packs.map ChunkPlan.chunkIdx).Nodup) {p : ChunkPlan C}
    (mem : p ∈ packs) :
    (appendStaged m packs).chunkPackIds p.chunkIdx =
      m.chunkPackIds p.chunkIdx ++ [p.pack.packId] := by
  rw [VolumeManifest.chunkPackIds, appendStaged_chunks_mem distinct mem]
  rfl

theorem mem_appendStaged {c : Nat} {id : PackId} (mem : id ∈ (appendStaged m packs).chunkPackIds c) :
    id ∈ m.chunkPackIds c ∨ ∃ p ∈ packs, p.chunkIdx = c ∧ p.pack.packId = id := by
  induction packs generalizing m with
  | nil => exact Or.inl mem
  | cons p rest ih =>
    rcases ih (m := m.appendPack p.chunkIdx p.pack.packId (some p.liveBlocks)) mem with
      old | ⟨q, later, found⟩
    · rw [VolumeManifest.chunkPackIds_appendPack] at old
      split at old
      · rename_i here
        subst here
        cases List.mem_append.mp old with
        | inl old => exact Or.inl old
        | inr new => exact Or.inr ⟨p, List.mem_cons_self, rfl, (List.mem_singleton.mp new).symm⟩
      · exact Or.inl old
    · exact Or.inr ⟨q, List.mem_cons_of_mem p later, found⟩

theorem backed_staged {s' : PackStore C} (h : Backed s m) (up : Uploaded s s' packs) :
    Backed s' (appendStaged m packs) := by
  intro c id mem
  rcases mem_appendStaged mem with old | ⟨p, staged, rfl, rfl⟩
  · exact h.extends up.keeps c id old
  · rw [up.has p staged]
    rfl

/-- The entries of the snapshot's blocks in chunk `c` that reads do not resolve to yet. -/
def changedBlocks (s : PackStore C) (m : VolumeManifest PackId) (level : Int)
    (snap : Snapshot g D) (c : Nat) : List (PackBlock Hash) :=
  ((snap.inChunk c).filter fun p => resolveBlock g s m p.1 ≠ some p.2).map
    fun p => packBlock C level (g.blockOffsetInChunk p.1) p.2

/-- A chunk plan says what to evict and what to pack. -/
structure ChunkPlan.Plans (s : PackStore C) (m : VolumeManifest PackId) (level : Int)
    (snap : Snapshot g D) (plan : ChunkPlan C) : Prop where
  flushed : plan.flushed = (snap.inChunk plan.chunkIdx).map Prod.fst
  packed : plan.pack.blocks = changedBlocks s m level snap plan.chunkIdx

/-- Deduplication skips exactly the blocks reads already resolve to their content. -/
theorem dominated_iff {existing : ExistingBlocks Hash} {b : Nat} {r : Option (PackBlock Hash)}
    (located : locateBlock g s m b = some r)
    (lookup : existing.lookup (g.blockOffsetInChunk b) = r.map PackBlock.indexed) (d : D) :
    dominated C existing (g.blockOffsetInChunk b) (C.blake3 d) = true ↔
      resolveBlock g s m b = some d := by
  rw [resolveBlock_iff located, dominated, lookup]
  cases r with
  | none => simp [eq_comm]
  | some e => simp [PackBlock.indexed]

theorem planChunk_spec {level : Int} {snap : Snapshot g D} {c : Nat} {plan : ChunkPlan C}
    (h : planChunk s m level snap c = some plan) :
    plan.chunkIdx = c ∧ plan.Plans s m level snap := by
  obtain ⟨existing, loaded, rfl⟩ := Option.map_eq_some_iff.mp h
  refine ⟨rfl, ?_, ?_⟩
  · exact packedIndices_computed (computeFlushBatch_computes C level _) g existing
  · refine (blocksForPack_computed (computeFlushBatch_computes C level _) g existing).trans ?_
    rw [changedBlocks]
    congr 1
    apply List.filter_congr
    intro p mem
    obtain ⟨_, rfl⟩ := Snapshot.mem_inChunk.mp mem
    obtain ⟨r, located, lookup⟩ := loadExisting_lookup loaded (g.blockOffsetInChunk p.1)
    have same := dominated_iff (C := C) located lookup p.2
    cases seen : dominated C existing (g.blockOffsetInChunk p.1) (C.blake3 p.2) with
    | true => simp [same.mp seen]
    | false =>
      have unresolved : resolveBlock g s m p.1 ≠ some p.2 := fun h => by
        simp [same.mpr h] at seen
      simp [unresolved]

theorem planChunk_plans (h : Backed s m) (level : Int) (snap : Snapshot g D) (c : Nat) :
    ∃ plan, planChunk s m level snap c = some plan ∧ plan.chunkIdx = c ∧
      plan.Plans s m level snap := by
  obtain ⟨existing, loaded, -⟩ := lookup_loadExisting (h c)
  obtain ⟨plan, planned⟩ : ∃ plan, planChunk s m level snap c = some plan :=
    ⟨_, by rw [planChunk, loaded]; rfl⟩
  exact ⟨plan, planned, planChunk_spec planned⟩

namespace ChunkPlan.Plans

variable {s : PackStore C} {m : VolumeManifest PackId} {level : Int} {snap : Snapshot g D}
  {plan : ChunkPlan C}

theorem mem_packed (h : plan.Plans s m level snap) {e : PackBlock Hash} :
    e ∈ plan.pack.blocks ↔ ∃ p ∈ snap.blocks, g.chunkIdxForBlock p.1 = plan.chunkIdx ∧
      resolveBlock g s m p.1 ≠ some p.2 ∧
        packBlock C level (g.blockOffsetInChunk p.1) p.2 = e := by
  rw [h.packed, changedBlocks]
  simp only [List.mem_map, List.mem_filter, Snapshot.mem_inChunk, decide_eq_true_eq, and_assoc]

/-- The pack has the blocks reads do not resolve yet at their own offsets. -/
theorem find_changed (h : plan.Plans s m level snap) {p : Nat × D} (hp : p ∈ snap.blocks)
    (idx : plan.chunkIdx = g.chunkIdxForBlock p.1)
    (changed : resolveBlock g s m p.1 ≠ some p.2) :
    plan.pack.find (g.blockOffsetInChunk p.1) =
      some (packBlock C level (g.blockOffsetInChunk p.1) p.2) :=
  Pack.find_of_mem (h.mem_packed.mpr ⟨p, hp, idx.symm, changed, rfl⟩)

/-- What the pack has for a block of the snapshot is the block's content. -/
theorem fetch_of_find (h : plan.Plans s m level snap) {p : Nat × D} (hp : p ∈ snap.blocks)
    (idx : plan.chunkIdx = g.chunkIdxForBlock p.1) {e : PackBlock Hash}
    (found : plan.pack.find (g.blockOffsetInChunk p.1) = some e) : C.fetchBlock e = some p.2 := by
  obtain ⟨mem, off⟩ := Pack.find_some found
  obtain ⟨q, hq, chunk, -, rfl⟩ := h.mem_packed.mp mem
  have same : q = p := Snapshot.eq_of_offset (c := plan.chunkIdx)
    (Snapshot.mem_inChunk.mpr ⟨hq, chunk⟩) (Snapshot.mem_inChunk.mpr ⟨hp, idx.symm⟩) off
  rw [same]
  exact packBlock_fetch C level _ p.2

end ChunkPlan.Plans

/-- One plan for every chunk of the snapshot. -/
structure Planned (s : PackStore C) (m : VolumeManifest PackId) (level : Int)
    (snap : Snapshot g D) (plans : List (ChunkPlan C)) : Prop where
  chunks : plans.map ChunkPlan.chunkIdx = snap.chunks
  plans : ∀ plan ∈ plans, plan.Plans s m level snap

/-- Over packs that are all in the store a flush always finds its plan. -/
theorem planFlush_planned (h : Backed s m) (level : Int) (snap : Snapshot g D) :
    ∃ plans, planFlush s m level snap = some plans ∧ Planned s m level snap plans := by
  have each (cs : List Nat) : ∃ plans, cs.mapM (planChunk s m level snap) = some plans ∧
      plans.map ChunkPlan.chunkIdx = cs ∧ ∀ plan ∈ plans, plan.Plans s m level snap := by
    induction cs with
    | nil => exact ⟨[], rfl, rfl, fun _ mem => absurd mem List.not_mem_nil⟩
    | cons c rest ih =>
      obtain ⟨plans, taken, chunks, spec⟩ := ih
      obtain ⟨plan, here, idx, planSpec⟩ := planChunk_plans h level snap c
      refine ⟨plan :: plans, by simp [List.mapM_cons, here, taken], by simp [idx, chunks], ?_⟩
      intro q mem
      cases mem with
      | head => exact planSpec
      | tail _ mem => exact spec q mem
  obtain ⟨plans, taken, chunks, spec⟩ := each snap.chunks
  exact ⟨plans, taken, chunks, spec⟩

namespace Planned

variable {s : PackStore C} {m : VolumeManifest PackId} {level : Int} {snap : Snapshot g D}
  {plans : List (ChunkPlan C)}

theorem distinct (h : Planned s m level snap plans) :
    ((staged m plans).map ChunkPlan.chunkIdx).Nodup := by
  refine List.Nodup.sublist (List.Sublist.map _ List.filter_sublist) ?_
  rw [h.chunks]
  exact List.nodup_dedup _

/-- The plan of a block's chunk. -/
theorem plan_of_mem (h : Planned s m level snap plans) {p : Nat × D} (mem : p ∈ snap.blocks) :
    ∃ plan ∈ plans, plan.chunkIdx = g.chunkIdxForBlock p.1 := by
  have here : g.chunkIdxForBlock p.1 ∈ plans.map ChunkPlan.chunkIdx := by
    rw [h.chunks]
    exact Snapshot.mem_chunks.mpr ⟨p, mem, rfl⟩
  exact List.mem_map.mp here

/-- All blocks of the snapshot are evicted, and no others. -/
theorem mem_flushedBlocks (h : Planned s m level snap plans) {b : Nat} :
    b ∈ flushedBlocks plans ↔ b ∈ snap.blocks.map Prod.fst := by
  constructor
  · intro mem
    obtain ⟨plan, hp, mem⟩ := List.mem_flatMap.mp mem
    rw [(h.plans plan hp).flushed] at mem
    obtain ⟨p, hp, rfl⟩ := List.mem_map.mp mem
    exact List.mem_map.mpr ⟨p, (Snapshot.mem_inChunk.mp hp).1, rfl⟩
  · intro mem
    obtain ⟨p, hp, rfl⟩ := List.mem_map.mp mem
    obtain ⟨plan, hplan, idx⟩ := h.plan_of_mem hp
    refine List.mem_flatMap.mpr ⟨plan, hplan, ?_⟩
    rw [(h.plans plan hplan).flushed, idx]
    exact List.mem_map.mpr ⟨p, Snapshot.mem_inChunk.mpr ⟨hp, rfl⟩, rfl⟩

/-- The pack has no entry for any other block. -/
theorem find_unchanged (h : Planned s m level snap plans) {plan : ChunkPlan C} (mem : plan ∈ plans)
    {b : Nat} (known : g.Addressable b) (idx : plan.chunkIdx = g.chunkIdxForBlock b)
    (same : ∀ p ∈ snap.blocks, p.1 = b → resolveBlock g s m b = some p.2) :
    plan.pack.find (g.blockOffsetInChunk b) = none := by
  rw [Pack.find_none]
  intro e he off
  obtain ⟨p, hp, chunk, changed, rfl⟩ := (h.plans plan mem).mem_packed.mp he
  have block : p.1 = b :=
    Geometry.block_eq_of_chunk (snap.inRange p hp).addressable known (chunk.trans idx) off
  exact changed (block ▸ same p hp block)

end Planned

end Plan

end GlideFS.WriteCache
