import GlideFS.WriteCache.Compact
import Mathlib.Data.Set.Card

/-! # Live blocks of a chunk

A chunk's count is computed from the merged view of its packs: the backfill counts
the entries with data, a flush adjusts that number by the entries of the pack it is
about to append. Both are the number of offsets whose newest entry has data.
-/

namespace GlideFS.WriteCache

open Block Lib

variable {D Hash PackId : Type} [Zero D] [DecidableEq D] [DecidableEq Hash] [DecidableEq PackId]
  {C : Codec D Hash PackId}

/-! ## Counting over a merged view -/

/-- The offsets a merged view has data for. -/
def liveOffsets (ex : ExistingBlocks Hash) : Finset Nat :=
  ((ex.entries.filter fun e => 0 < e.2.2).map Sigma.fst).toFinset

variable {ex : ExistingBlocks Hash} {new : List (Nat × Bool)} {s : PackStore C} {ids : List PackId}

theorem mem_liveOffsets {off : Nat} :
    off ∈ liveOffsets ex ↔ ∃ v, ex.lookup off = some v ∧ 0 < v.2 := by
  simp only [liveOffsets, List.mem_toFinset, List.mem_map, List.mem_filter, decide_eq_true_eq]
  constructor
  · rintro ⟨⟨_, v⟩, ⟨listed, data⟩, rfl⟩
    exact ⟨v, AList.mem_lookup_iff.mpr listed, data⟩
  · rintro ⟨v, found, data⟩
    exact ⟨⟨off, v⟩, ⟨AList.mem_lookup_iff.mp found, data⟩, rfl⟩

theorem card_liveOffsets (ex : ExistingBlocks Hash) :
    (liveOffsets ex).card = (ex.entries.filter fun e => 0 < e.2.2).length := by
  have distinct : ((ex.entries.filter fun e => 0 < e.2.2).map Sigma.fst).Nodup :=
    ex.nodupKeys.sublist List.filter_sublist
  rw [liveOffsets, List.toFinset_card_of_nodup distinct, List.length_map]

/-- The offsets with data once the entries of a new pack lie over the view. -/
def liveAfter (ex : ExistingBlocks Hash) (new : List (Nat × Bool)) : Finset Nat :=
  new.foldl (fun live p => if p.2 then insert p.1 live else live.erase p.1) (liveOffsets ex)

theorem liveAfter_append (ex : ExistingBlocks Hash) (new : List (Nat × Bool)) (p : Nat × Bool) :
    liveAfter ex (new ++ [p]) =
      if p.2 then insert p.1 (liveAfter ex new) else (liveAfter ex new).erase p.1 := by
  simp [liveAfter]

theorem mem_liveAfter_of_notMem {off : Nat} (fresh : off ∉ new.map Prod.fst) :
    off ∈ liveAfter ex new ↔ off ∈ liveOffsets ex := by
  induction new using List.reverseRecOn with
  | nil => rfl
  | append_singleton new p ih =>
    simp only [List.map_append, List.mem_append, List.map_singleton, List.mem_singleton,
      not_or] at fresh
    rw [liveAfter_append]
    split
    · simp [fresh.2, ih fresh.1]
    · simp [fresh.2, ih fresh.1]

theorem mem_liveAfter_of_mem (distinct : (new.map Prod.fst).Nodup) {off : Nat} {now : Bool}
    (mem : (off, now) ∈ new) : off ∈ liveAfter ex new ↔ now = true := by
  induction new using List.reverseRecOn with
  | nil => exact absurd mem List.not_mem_nil
  | append_singleton new p ih =>
    rw [List.map_append, List.nodup_append] at distinct
    obtain ⟨distinct, -, apart⟩ := distinct
    rw [liveAfter_append]
    rcases List.mem_append.mp mem with earlier | last
    · have other : off ≠ p.1 :=
        apart off (List.mem_map_of_mem (f := Prod.fst) earlier) p.1 (by simp)
      split
      · simp [other, ih distinct earlier]
      · simp [other, ih distinct earlier]
    · cases List.mem_singleton.mp last
      cases now <;> simp

/-- The running count is the number of offsets with data. -/
theorem liveBlocksAfter_card (distinct : (new.map Prod.fst).Nodup) :
    liveBlocksAfter ex new = (liveAfter ex new).card := by
  have was (off : Nat) :
      ((ex.lookup off).any fun e => decide (0 < e.2)) = decide (off ∈ liveOffsets ex) := by
    rw [Bool.eq_iff_iff, Option.any_eq_true, decide_eq_true_iff, mem_liveOffsets]
    simp
  have running : new.foldl (fun (n : Int) (p : Nat × Bool) =>
      n + p.2.toNat - ((ex.lookup p.1).any fun e => decide (0 < e.2)).toNat)
        ((ex.entries.filter fun e => 0 < e.2.2).length : Int) = (liveAfter ex new).card := by
    induction new using List.reverseRecOn with
    | nil => exact congrArg Nat.cast (card_liveOffsets ex).symm
    | append_singleton new p ih =>
      rw [List.map_append, List.nodup_append] at distinct
      obtain ⟨distinct, -, apart⟩ := distinct
      have fresh : p.1 ∉ new.map Prod.fst := fun mem => apart p.1 mem p.1 (by simp) rfl
      rw [List.foldl_append, ih distinct, liveAfter_append]
      simp only [List.foldl_cons, List.foldl_nil, was, ← mem_liveAfter_of_notMem fresh]
      -- an entry moves the count only where it changes whether its offset has data
      cases now : p.2 with
      | true =>
        by_cases live : p.1 ∈ liveAfter ex new
        · simp [live]
        · simp [live]
      | false =>
        by_cases live : p.1 ∈ liveAfter ex new
        · have some_live := Finset.card_pos.mpr ⟨_, live⟩
          simp [live, Finset.card_erase_of_mem]
          omega
        · simp [live]
  rw [liveBlocksAfter]
  exact (congrArg Int.toNat running).trans (Int.toNat_natCast _)

/-! ## Counting over packs -/

/-- The newest entry of the offset over the listed packs has data. -/
def Live (s : PackStore C) (c : Nat) (ids : List PackId) (off : Nat) : Prop :=
  ∃ e, locateIn s c off ids.reverse = some (some e) ∧ 0 < e.compressed.length

/-- The packs can be searched, and so many offsets have data as their newest entry. -/
structure Counts (s : PackStore C) (c : Nat) (ids : List PackId) (n : Nat) : Prop where
  loads : ∀ off, ∃ r, locateIn s c off ids.reverse = some r
  count : n = {off | Live s c ids off}.ncard

/-- Whatever is uploaded from now on, both lists are searched with the same results. -/
def Alike (s : PackStore C) (c : Nat) (ids ids' : List PackId) : Prop :=
  ∀ s' : PackStore C, s.Extends s' → ∀ off,
    locateIn s' c off ids.reverse = locateIn s' c off ids'.reverse

theorem extends_refl (s : PackStore C) : s.Extends s := fun _ _ _ get => get

namespace Alike

variable {s s' : PackStore C} {c : Nat} {ids ids' ids'' : List PackId}

theorem refl (s : PackStore C) (c : Nat) (ids : List PackId) : Alike s c ids ids := by
  intro _ _ _
  rfl

theorem trans (h : Alike s c ids ids') (h' : Alike s c ids' ids'') : Alike s c ids ids'' := by
  intro s' more off
  exact (h s' more off).trans (h' s' more off)

theorem «extends» (h : Alike s c ids ids') (more : s.Extends s') : Alike s' c ids ids' := by
  intro t grown off
  exact h t (fun _ _ _ get => grown _ _ _ (more _ _ _ get)) off

theorem live (h : Alike s c ids ids') : Live s c ids' = Live s c ids := by
  funext off
  rw [Live, Live, h s (extends_refl s) off]

end Alike

/-- Packs that can be searched are searched alike in a larger store. -/
theorem locateIn_grown {s' : PackStore C} {c : Nat} (more : s.Extends s')
    (loads : ∀ off, ∃ r, locateIn s c off ids.reverse = some r) (off : Nat) :
    locateIn s' c off ids.reverse = locateIn s c off ids.reverse := by
  obtain ⟨r, found⟩ := loads off
  rw [found, locateIn_extends more found]

theorem live_grown {s' : PackStore C} {c : Nat} (more : s.Extends s')
    (loads : ∀ off, ∃ r, locateIn s c off ids.reverse = some r) : Live s' c ids = Live s c ids := by
  funext off
  rw [Live, Live, locateIn_grown more loads]

namespace Counts

variable {s s' : PackStore C} {c n : Nat} {ids ids' : List PackId}

theorem «extends» (h : Counts s c ids n) (more : s.Extends s') : Counts s' c ids n where
  loads off := by
    rw [locateIn_grown more h.loads]
    exact h.loads off
  count := by
    rw [live_grown more h.loads]
    exact h.count

theorem alike (h : Counts s c ids n) (same : Alike s c ids ids') : Counts s c ids' n where
  loads off := by
    rw [← same s (extends_refl s)]
    exact h.loads off
  count := by
    rw [same.live]
    exact h.count

end Counts

theorem mem_liveOffsets_load {c : Nat} (h : loadExisting s c ids = some ex) {off : Nat} :
    off ∈ liveOffsets ex ↔ Live s c ids off := by
  obtain ⟨r, located, lookup⟩ := loadExisting_lookup h off
  rw [mem_liveOffsets, Live, located, lookup]
  cases r with
  | none => simp
  | some e => simp [PackBlock.indexed]

/-- The backfill's count is the one of the packs it was computed from. -/
theorem counts_loadExisting {c : Nat} (h : loadExisting s c ids = some ex) :
    Counts s c ids (liveBlocksAfter ex []) where
  loads off := by
    obtain ⟨r, located, -⟩ := loadExisting_lookup h off
    exact ⟨r, located⟩
  count := by
    have same : {off | Live s c ids off} = ↑(liveOffsets ex) := by
      ext off
      exact (mem_liveOffsets_load h).symm
    rw [same, Set.ncard_coe_finset]
    have distinct : (([] : List (Nat × Bool)).map Prod.fst).Nodup := List.nodup_nil
    exact liveBlocksAfter_card distinct

/-! ## The count of a flush -/

/-- The offset has data once the new pack lies over the listed ones. -/
def LiveUnder (s : PackStore C) (c : Nat) (ids : List PackId) (pack : Pack C) (off : Nat) : Prop :=
  match pack.find off with
  | some e => 0 < e.compressed.length
  | none => Live s c ids off

/-- A flush's count is right for its pack over the listed ones. -/
structure ChunkPlan.Fits (s : PackStore C) (ids : List PackId) (plan : ChunkPlan C) : Prop where
  loads : ∀ off, ∃ r, locateIn s plan.chunkIdx off ids.reverse = some r
  count : plan.liveBlocks = {off | LiveUnder s plan.chunkIdx ids plan.pack off}.ncard

namespace ChunkPlan.Fits

variable {s s' : PackStore C} {ids ids' : List PackId} {plan : ChunkPlan C}

theorem «extends» (h : plan.Fits s ids) (more : s.Extends s') : plan.Fits s' ids where
  loads off := by
    rw [locateIn_grown more h.loads]
    exact h.loads off
  count := by
    have same : LiveUnder s' plan.chunkIdx ids plan.pack = LiveUnder s plan.chunkIdx ids plan.pack := by
      funext off
      rw [LiveUnder, LiveUnder, live_grown more h.loads]
    rw [same]
    exact h.count

theorem alike (h : plan.Fits s ids) (same : Alike s plan.chunkIdx ids ids') : plan.Fits s ids' where
  loads off := by
    rw [← same s (extends_refl s)]
    exact h.loads off
  count := by
    have same : LiveUnder s plan.chunkIdx ids' plan.pack = LiveUnder s plan.chunkIdx ids plan.pack := by
      funext off
      rw [LiveUnder, LiveUnder, same.live]
    rw [same]
    exact h.count

/-- Appended over the packs it was computed for, the count is the chunk's. -/
theorem counts (h : plan.Fits s ids) (stored : s.get plan.chunkIdx plan.pack.packId = some plan.pack) :
    Counts s plan.chunkIdx (ids ++ [plan.pack.packId]) plan.liveBlocks := by
  have atop (off : Nat) : locateIn s plan.chunkIdx off (ids ++ [plan.pack.packId]).reverse =
      ((plan.pack.find off).map some).or (locateIn s plan.chunkIdx off ids.reverse) := by
    rw [List.reverse_append, List.reverse_singleton, List.singleton_append, locateIn_cons stored]
  constructor
  · intro off
    rw [atop]
    cases plan.pack.find off with
    | none => exact h.loads off
    | some e => exact ⟨some e, rfl⟩
  · have same : LiveUnder s plan.chunkIdx ids plan.pack =
        Live s plan.chunkIdx (ids ++ [plan.pack.packId]) := by
      funext off
      simp only [LiveUnder, Live, atop]
      cases plan.pack.find off with
      | none => rfl
      | some e => simp
    rw [← same]
    exact h.count

end ChunkPlan.Fits

/-- A packed block is live exactly if its hash is not that of zeros. -/
theorem packBlock_live (C : Codec D Hash PackId) (level : Int) (off : Nat) (d : D) :
    (packBlock C level off d).hash ≠ C.zeroBlockHash ↔
      0 < (packBlock C level off d).compressed.length := by
  by_cases zero : d = 0
  · simp [packBlock, zero, Codec.zeroBlockHash]
  · have other : C.blake3 d ≠ C.zeroBlockHash := fun same => zero (C.blake3_injective same)
    simp [packBlock, zero, other, List.length_pos_iff, C.compress_nonempty]

/-- The count a flush computes fits the packs it read. -/
theorem planChunk_fits {g : Geometry} {m : VolumeManifest PackId} {level : Int}
    {snap : Snapshot g D} {c : Nat} {plan : ChunkPlan C}
    (h : planChunk s m level snap c = some plan) :
    plan.chunkIdx = c ∧ plan.Fits s (m.chunkPackIds c) := by
  obtain ⟨ex, loaded, rfl⟩ := Option.map_eq_some_iff.mp h
  refine ⟨rfl, fun off => ?_, ?_⟩
  · obtain ⟨r, located, -⟩ := loadExisting_lookup loaded off
    exact ⟨r, located⟩
  · let pack := packFor C level ex snap c
    let new := pack.blocks.map fun e => (e.chunkOffset, decide (e.hash ≠ C.zeroBlockHash))
    have distinct : (new.map Prod.fst).Nodup := by
      simpa [new, List.map_map, Function.comp_def] using pack.distinct
    have flag (e : PackBlock Hash) (mem : e ∈ pack.blocks) :
        e.hash ≠ C.zeroBlockHash ↔ 0 < e.compressed.length := by
      have built : pack.blocks = _ :=
        blocksForPack_computed (computeFlushBatch_computes C level _) g ex
      rw [built] at mem
      obtain ⟨p, -, rfl⟩ := List.mem_map.mp mem
      exact packBlock_live C level _ p.2
    have same : {off | LiveUnder s c (m.chunkPackIds c) pack off} = ↑(liveAfter ex new) := by
      ext off
      change LiveUnder s c (m.chunkPackIds c) pack off ↔ off ∈ liveAfter ex new
      rw [LiveUnder]
      cases found : pack.find off with
      | none =>
        have fresh : off ∉ new.map Prod.fst := by
          simpa [new, List.map_map] using Pack.find_none.mp found
        rw [mem_liveAfter_of_notMem fresh, mem_liveOffsets_load loaded]
      | some e =>
        obtain ⟨mem, here⟩ := Pack.find_some found
        have listed : (off, decide (e.hash ≠ C.zeroBlockHash)) ∈ new :=
          List.mem_map.mpr ⟨e, mem, by rw [here]⟩
        rw [mem_liveAfter_of_mem distinct listed, decide_eq_true_iff]
        exact (flag e mem).symm
    change liveBlocksAfter ex new = Set.ncard {off | LiveUnder s c (m.chunkPackIds c) pack off}
    rw [same, Set.ncard_coe_finset]
    exact liveBlocksAfter_card distinct

end GlideFS.WriteCache
