import GlideFS.WriteCache.FlushBody

/-! # What reads resolve to after a flush

After a flush the manifest should resolve every evicted block to the bytes the
flush read, and every other block as before. The second part always holds. The
first holds exactly when no chunk's new pack was in its list already: such a pack
is not appended again, so a block that returns to an earlier content keeps
resolving to the newer pack in between.
-/

namespace GlideFS.WriteCache

open Block Lib

variable {D Hash PackId : Type} [Zero D] [DecidableEq D] [DecidableEq Hash] [DecidableEq PackId]
  {C : Codec D Hash PackId} {g : Geometry}

section Resolve

variable {s s' : PackStore C} {m : VolumeManifest PackId} {level : Int} {snap : Snapshot g D}
  {plans : List (ChunkPlan C)}

variable {packs : List (ChunkPlan C)} {plan : ChunkPlan C}

/-- A chunk without a staged pack resolves as before. -/
theorem resolve_unstaged (backed : Backed s m) (up : Uploaded s s' packs) {b : Nat}
    (absent : g.chunkIdxForBlock b ∉ packs.map ChunkPlan.chunkIdx) :
    resolveBlock g s' (appendStaged m packs) b = resolveBlock g s m b := by
  have list : locateBlock g s' (appendStaged m packs) b = locateBlock g s' m b := by
    rw [locateBlock, locateBlock, appendStaged_other absent]
  rw [resolveBlock, list]
  exact backed.resolve_extends up.keeps g b

/-- A stored pack that is appended answers for its offsets and hides nothing else. -/
theorem locate_appended (distinct : (packs.map ChunkPlan.chunkIdx).Nodup) (mem : plan ∈ packs)
    (has : s.get plan.chunkIdx plan.pack.packId = some plan.pack) {b : Nat}
    (idx : plan.chunkIdx = g.chunkIdxForBlock b) :
    locateBlock g s (appendStaged m packs) b =
      ((plan.pack.find (g.blockOffsetInChunk b)).map some).or (locateBlock g s m b) := by
  rw [locateBlock, locateBlock, ← idx, appendStaged_mem distinct mem, List.reverse_append,
    List.reverse_singleton, List.singleton_append, locateIn_cons has]

/-- The same in the store the packs were uploaded to, with the old lookup as it was before. -/
theorem locate_staged (backed : Backed s m) (up : Uploaded s s' packs)
    (distinct : (packs.map ChunkPlan.chunkIdx).Nodup) (mem : plan ∈ packs) {b : Nat}
    (idx : plan.chunkIdx = g.chunkIdxForBlock b) :
    locateBlock g s' (appendStaged m packs) b =
      ((plan.pack.find (g.blockOffsetInChunk b)).map some).or (locateBlock g s m b) := by
  obtain ⟨r, located⟩ := backed.located g b
  have older : locateBlock g s' m b = some r := locateIn_extends up.keeps located
  rw [locate_appended distinct mem (up.has plan mem) idx, older, located]

/-- Blocks outside the flush, and those reads resolved already, resolve as before. -/
theorem resolve_unchanged (backed : Backed s m) (planned : Planned s m level snap plans)
    (up : Uploaded s s' (staged m plans)) {b : Nat} (known : g.Addressable b)
    (same : ∀ p ∈ snap.blocks, p.1 = b → resolveBlock g s m b = some p.2) :
    resolveBlock g s' (appendStaged m (staged m plans)) b =
      resolveBlock g s m b := by
  by_cases here : g.chunkIdxForBlock b ∈ (staged m plans).map ChunkPlan.chunkIdx
  · obtain ⟨plan, mem, idx⟩ := List.mem_map.mp here
    have missing := planned.find_unchanged (List.mem_of_mem_filter mem) known idx same
    have located := locate_staged backed up planned.distinct mem idx
    rw [missing] at located
    rw [resolveBlock, located, resolveBlock]
    rfl
  · exact resolve_unstaged backed up here

/-- A block of a staged pack resolves to what the flush read. -/
theorem resolve_packed (backed : Backed s m) (planned : Planned s m level snap plans)
    (up : Uploaded s s' (staged m plans)) (mem : plan ∈ staged m plans) {p : Nat × D}
    (hp : p ∈ snap.blocks) (idx : plan.chunkIdx = g.chunkIdxForBlock p.1)
    (changed : resolveBlock g s m p.1 ≠ some p.2) :
    resolveBlock g s' (appendStaged m (staged m plans)) p.1 =
      some p.2 := by
  have located := locate_staged backed up planned.distinct mem idx
  have plans := planned.plans plan (List.mem_of_mem_filter mem)
  rw [plans.find_changed hp idx changed] at located
  rw [resolveBlock, located]
  exact packBlock_fetch C level _ p.2

/-- No chunk's new pack is one the chunk lists already. -/
def NoStalePackSkip (s : PackStore C) (m : VolumeManifest PackId) (level : Int)
    (snap : Snapshot g D) : Prop :=
  ∀ c, changedBlocks s m level snap c = [] ∨
    C.contentPackId (changedBlocks s m level snap c) ∉ m.chunkPackIds c

theorem uploads_iff (planned : Planned s m level snap plans) (mem : plan ∈ plans) :
    plan.uploads m = true ↔
      changedBlocks s m level snap plan.chunkIdx ≠ [] ∧
        C.contentPackId (changedBlocks s m level snap plan.chunkIdx) ∉
          m.chunkPackIds plan.chunkIdx := by
  rw [← (planned.plans plan mem).packed]
  simp [ChunkPlan.uploads, Pack.packId]

theorem changed_ne_nil {p : Nat × D} (hp : p ∈ snap.blocks)
    (changed : resolveBlock g s m p.1 ≠ some p.2) :
    changedBlocks s m level snap (g.chunkIdxForBlock p.1) ≠ [] := by
  refine List.ne_nil_of_mem (List.mem_map.mpr ⟨p, List.mem_filter.mpr ⟨?_, ?_⟩, rfl⟩)
  · exact Snapshot.mem_inChunk.mpr ⟨hp, rfl⟩
  · simpa using changed

/-- Without a skipped pack every block of the flush resolves to what was read. -/
theorem resolve_flushed (backed : Backed s m) (planned : Planned s m level snap plans)
    (up : Uploaded s s' (staged m plans))
    (fresh : NoStalePackSkip s m level snap) {p : Nat × D} (hp : p ∈ snap.blocks) :
    resolveBlock g s' (appendStaged m (staged m plans)) p.1 =
      some p.2 := by
  by_cases already : resolveBlock g s m p.1 = some p.2
  · rw [resolve_unchanged backed planned up (snap.inRange p hp).addressable, already]
    intro q hq same
    rw [already, Snapshot.eq_of_fst hq hp same]
  · obtain ⟨plan, mem, idx⟩ := planned.plan_of_mem hp
    have new : plan.uploads m = true := by
      rw [uploads_iff planned mem, idx]
      exact ⟨changed_ne_nil hp already, (fresh _).resolve_left (changed_ne_nil hp already)⟩
    exact resolve_packed backed planned up (List.mem_filter.mpr ⟨mem, new⟩) hp idx already

/-- A skipped pack leaves its blocks at their old content. -/
theorem fresh_of_resolve_flushed (backed : Backed s m) (planned : Planned s m level snap plans)
    (up : Uploaded s s' (staged m plans))
    (all : ∀ p ∈ snap.blocks,
      resolveBlock g s' (appendStaged m (staged m plans)) p.1 =
        some p.2) : NoStalePackSkip s m level snap := by
  intro c
  by_contra stale
  obtain ⟨some_changed, listed⟩ := not_or.mp stale
  obtain ⟨e, he⟩ := List.exists_mem_of_ne_nil _ some_changed
  obtain ⟨p, hp, rfl⟩ := List.mem_map.mp he
  obtain ⟨hp, changed⟩ := List.mem_filter.mp hp
  obtain ⟨hp, chunk⟩ := Snapshot.mem_inChunk.mp hp
  have absent : g.chunkIdxForBlock p.1 ∉ (staged m plans).map ChunkPlan.chunkIdx := by
    intro here
    obtain ⟨plan, mem, idx⟩ := List.mem_map.mp here
    obtain ⟨mem, uploads⟩ := List.mem_filter.mp mem
    rw [uploads_iff planned mem, idx, chunk] at uploads
    exact listed uploads.2
  have same := (resolve_unstaged backed up absent).symm.trans (all p hp)
  exact of_decide_eq_true changed same

end Resolve

/-- The in-memory manifest of an export over its pack store. -/
structure Volume (C : Codec D Hash PackId) where
  store : PackStore C
  manifest : VolumeManifest PackId
  backed : Backed store manifest

namespace Volume

/-- A new volume, with nothing stored. -/
def new : Volume C := ⟨.empty, .new, fun _ _ mem => absurd mem List.not_mem_nil⟩

def resolve (v : Volume C) (g : Geometry) (b : Nat) : Option D :=
  resolveBlock g v.store v.manifest b

end Volume

/-- A flush that succeeds: the volume after it and the blocks it evicts. -/
def flushDirtyBody (v : Volume C) (f : Int × Snapshot g D) : Option (Volume C × List Nat) :=
  (planFlush v.store v.manifest f.1 f.2).map fun plans =>
    (⟨uploadPacks v.store (staged v.manifest plans),
      appendStaged v.manifest (staged v.manifest plans),
      backed_staged v.backed (uploadPacks_uploaded _ _)⟩,
      flushedBlocks plans)

/-- The volume after a flush. -/
def flush (v : Volume C) (f : Int × Snapshot g D) : Option (Volume C) :=
  (flushDirtyBody v f).map Prod.fst

/-- Evicted blocks resolve to what the flush read, blocks outside it as before. -/
def FlushResolves (v : Volume C) (snap : Snapshot g D) (u : Volume C) (evicted : List Nat) :
    Prop :=
  (∀ p ∈ snap.blocks, p.1 ∈ evicted → u.resolve g p.1 = some p.2) ∧
    ∀ b, g.InRange b → b ∉ snap.blocks.map Prod.fst → u.resolve g b = v.resolve g b

/-- A flush leaves reads with what it read exactly when it finds none of its new packs listed
    already. The volume is any that flushes can make: all listed packs are stored. -/
theorem flushes_resolve_iff {v u : Volume C} (f : Int × Snapshot g D) {evicted : List Nat}
    (done : flushDirtyBody v f = some (u, evicted)) :
    FlushResolves v f.2 u evicted ↔ NoStalePackSkip v.store v.manifest f.1 f.2 := by
  obtain ⟨plans, planned, spec⟩ := planFlush_planned v.backed f.1 f.2
  rw [flushDirtyBody, planned] at done
  cases done
  constructor
  · intro h
    refine fresh_of_resolve_flushed v.backed spec (uploadPacks_uploaded _ _) fun p hp => h.1 p hp ?_
    exact spec.mem_flushedBlocks.mpr (List.mem_map.mpr ⟨p, hp, rfl⟩)
  · intro fresh
    refine ⟨fun p hp _ => resolve_flushed v.backed spec (uploadPacks_uploaded _ _) fresh hp, fun b range outside => ?_⟩
    refine resolve_unchanged v.backed spec (uploadPacks_uploaded _ _) range.addressable
      fun p hp same => ?_
    exact absurd (List.mem_map.mpr ⟨p, hp, same⟩) outside

/-- A flush of block 0 filled with one byte. -/
def flushZeroth (v : UInt8) : Int × Snapshot .gib4k (BlockData 4096) :=
  (3, { blocks := [(0, .fill 4096 v)]
        distinct := List.nodup_singleton _
        inRange := by simp [Geometry.InRange, Geometry.gib4k] })

/-- The first flush of a new volume finds no pack listed. -/
theorem first_flush_resolves :
    ∃ u : Volume (Codec.plain 4096), ∃ evicted,
      flushDirtyBody Volume.new (flushZeroth 1) = some (u, evicted) ∧
        FlushResolves Volume.new (flushZeroth 1).2 u evicted :=
  ⟨_, _, rfl, (flushes_resolve_iff (flushZeroth 1) rfl).mpr fun _ => .inr List.not_mem_nil⟩

private theorem zeroth_back_to_ones :
    ((exec flush (Volume.new (C := .plain 4096)) [flushZeroth 1, flushZeroth 2]).bind fun t =>
      (flushDirtyBody t (flushZeroth 1)).map fun r => (r.2, r.1.resolve .gib4k 0)) =
        some ([0], some (.fill 4096 2)) := by
  decide +kernel

/-- Block 0 is flushed as ones, as twos and as ones again: the third flush evicts it and
    reads still resolve it to twos. -/
theorem flush_back_to_ones_stale :
    ∃ t u : Volume (Codec.plain 4096), ∃ evicted,
      Reach (flush (g := .gib4k)) anyStep Volume.new t ∧
        flushDirtyBody t (flushZeroth 1) = some (u, evicted) ∧
          ¬FlushResolves t (flushZeroth 1).2 u evicted := by
  obtain ⟨t, run, rest⟩ := Option.bind_eq_some_iff.mp zeroth_back_to_ones
  obtain ⟨⟨u, evicted⟩, done, result⟩ := Option.map_eq_some_iff.mp rest
  obtain ⟨rfl, resolved⟩ := Prod.mk.inj result
  refine ⟨t, u, [0], reach_exec run, done, fun h => ?_⟩
  have ones := h.1 (0, .fill 4096 1) (List.mem_singleton.mpr rfl) (List.mem_singleton.mpr rfl)
  exact absurd (resolved.symm.trans ones) (by decide +kernel)

end GlideFS.WriteCache
