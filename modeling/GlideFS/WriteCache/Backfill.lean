import GlideFS.Block.PackIndex

/-! # The decision to backfill

A partial write to a block that is not present first asks the index cache whether any
pack of the chunk has the block. `backfill_and_write` asks once for each pack;
`backfill_blocks_in_range` asks twice, and takes a block it was not told of in the
first answer for absent if the second one finds the index.
-/

namespace GlideFS.WriteCache.Backfill

open Block

variable {PackId Hash : Type}

/-- The loop of `backfill_and_write`; `hit n` is whether its call number `n` of `get_entries`
    finds the index. A pack without one may have the block. -/
def foundForWrite (index : PackId → PackIndex Hash) (hit : Nat → Bool) (off : Nat) :
    Nat → List PackId → Bool
  | _, [] => false
  | n, id :: older =>
      if hit n then
        if (index id).entries.any fun e => e.chunkOffset == off then true
        else foundForWrite index hit off (n + 1) older
      else true

/-- The loop of `backfill_blocks_in_range`; `looked n` is whether its call number `n` of
    `lookup_block` finds the index, `hit n` the same for the `get_entries` after it. -/
def foundInRange (index : PackId → PackIndex Hash) (looked hit : Nat → Bool) (off : Nat) :
    Nat → List PackId → Bool
  | _, [] => false
  | n, id :: older =>
      if looked n && ((index id).lookup off).isSome then true
      else if hit n then foundInRange index looked hit off (n + 1) older
      else true

/-- `has_s3_data` in `backfill_and_write`. -/
def hasS3DataForWrite (index : PackId → PackIndex Hash) (hit : Nat → Bool) (g : Geometry)
    (m : VolumeManifest PackId) (b : Nat) : Bool :=
  foundForWrite index hit (g.blockOffsetInChunk b) 0 (m.chunkPackIds (g.chunkIdxForBlock b)).reverse

/-- `has_s3_data` in `backfill_blocks_in_range`. -/
def hasS3DataInRange (index : PackId → PackIndex Hash) (looked hit : Nat → Bool) (g : Geometry)
    (m : VolumeManifest PackId) (b : Nat) : Bool :=
  foundInRange index looked hit (g.blockOffsetInChunk b) 0
    (m.chunkPackIds (g.chunkIdxForBlock b)).reverse

/-- No pack of the chunk has an entry for the block. -/
def NothingStored (index : PackId → PackIndex Hash) (g : Geometry) (m : VolumeManifest PackId)
    (b : Nat) : Prop :=
  ∀ id ∈ m.chunkPackIds (g.chunkIdxForBlock b), (index id).lookup (g.blockOffsetInChunk b) = none

/-- A pack has the block, no first probe finds it there and every second probe finds the index:
    the probes of one pack saw the cache before and after it was filled. -/
def FilledBetween (index : PackId → PackIndex Hash) (looked hit : Nat → Bool) (g : Geometry)
    (m : VolumeManifest PackId) (b : Nat) : Prop :=
  (∃ id ∈ m.chunkPackIds (g.chunkIdxForBlock b),
    (index id).lookup (g.blockOffsetInChunk b) ≠ none) ∧
  ∀ p ∈ (m.chunkPackIds (g.chunkIdxForBlock b)).reverse.zipIdx, hit p.2 = true ∧
    (looked p.2 = true → (index p.1).lookup (g.blockOffsetInChunk b) = none)

theorem foundForWrite_false {index : PackId → PackIndex Hash} {hit : Nat → Bool} {off n : Nat}
    {ids : List PackId} (h : foundForWrite index hit off n ids = false) :
    ∀ id ∈ ids, (index id).lookup off = none := by
  induction ids generalizing n with
  | nil => simp
  | cons id older ih =>
    simp only [foundForWrite] at h
    split at h
    · split at h
      · cases h
      · rename_i lacks
        intro p mem
        rcases List.mem_cons.mp mem with rfl | mem
        · simpa [PackIndex.lookup] using lacks
        · exact ih h p mem
    · cases h

theorem foundInRange_false {index : PackId → PackIndex Hash} {looked hit : Nat → Bool} {off n : Nat}
    {ids : List PackId} : foundInRange index looked hit off n ids = false ↔
      ∀ p ∈ ids.zipIdx n, hit p.2 = true ∧ (looked p.2 = true → (index p.1).lookup off = none) := by
  induction ids generalizing n with
  | nil => simp [foundInRange]
  | cons id older ih =>
    rw [List.zipIdx_cons, List.forall_mem_cons, ← ih]
    by_cases seen : looked n = true ∧ ((index id).lookup off).isSome
    · simp only [foundInRange, seen, Bool.and_self, if_true]
      obtain ⟨e, has⟩ := Option.isSome_iff_exists.mp seen.2
      simp [has]
    · have lacks : looked n = true → (index id).lookup off = none := by simpa using seen
      have unseen : (looked n && ((index id).lookup off).isSome) = false := by simpa using lacks
      simp only [foundInRange, unseen, Bool.false_eq_true, if_false]
      cases hit n with
      | true => simpa using fun _ => lacks
      | false => simp

/-- `backfill_and_write` skips the backfill only of blocks that no pack has, whatever its probes
    meet; so does `backfill_blocks_in_range` unless the index was filled between its probes. -/
theorem skipped_only_if_nothing_stored (index : PackId → PackIndex Hash) (probes looked hit : Nat → Bool)
    (g : Geometry) (m : VolumeManifest PackId) (b : Nat) :
    (hasS3DataForWrite index probes g m b = false → NothingStored index g m b) ∧
    ((hasS3DataInRange index looked hit g m b = false → NothingStored index g m b) ↔
      ¬FilledBetween index looked hit g m b) := by
  constructor
  · intro skipped id mem
    exact foundForWrite_false skipped id (List.mem_reverse.mpr mem)
  · rw [hasS3DataInRange, foundInRange_false]
    constructor
    · rintro only ⟨⟨id, mem, has⟩, filled⟩
      exact has (only filled id mem)
    · intro never filled id mem
      by_contra has
      exact never ⟨⟨id, mem, has⟩, filled⟩

/-- The index of the only pack comes into the cache between the two probes: the pack has the
    block and the backfill is skipped. -/
theorem backfill_skipped_over_data :
    hasS3DataInRange (fun _ : Nat => (⟨[⟨7, 0, 16, 100⟩], List.pairwise_singleton _ _⟩ : PackIndex Nat))
        (fun _ => false) (fun _ => true) .gib4k ⟨fun c => if c = 0 then some ⟨[1], none⟩ else none⟩ 0
      = false ∧
    ¬NothingStored (fun _ : Nat => (⟨[⟨7, 0, 16, 100⟩], List.pairwise_singleton _ _⟩ : PackIndex Nat))
        .gib4k ⟨fun c => if c = 0 then some ⟨[1], none⟩ else none⟩ 0 := by
  constructor
  · rfl
  · intro nothing
    have none_found := nothing 1 (by decide)
    cases none_found

end GlideFS.WriteCache.Backfill
