import GlideFS.WriteCache.FlushBody
import Mathlib.Data.List.Sort

/-! # Compaction of a chunk

`compact_chunk` merges the packs a chunk listed when it was chosen into one base
pack and puts that in their place. The indexes are merged oldest first, tombstones
are taken over as they are, and every other block is read from its pack, verified
and copied without being compressed again. Flushes go on meanwhile: what they
append stays behind the base pack.
-/

namespace GlideFS.WriteCache

open Block Lib

variable {D Hash PackId : Type} [Zero D] [DecidableEq D] [DecidableEq Hash] [DecidableEq PackId]
  {C : Codec D Hash PackId}

/-! ## The merged index -/

/-- The newest entry of every chunk offset: its pack, its hash and its compressed length. -/
structure MergedIndex (C : Codec D Hash PackId) where
  entries : AList fun _ : Nat => PackId × Hash × Nat
  zero : ∀ off id hash, entries.lookup off = some (id, hash, 0) → hash = C.zeroBlockHash

variable {e : PackBlock Hash} {s : PackStore C} {c : Nat} {m : MergedIndex C} {ids : List PackId}

/-- An entry without data stands for a block of zeros. -/
theorem hash_of_tombstone (h : e.Sound C) (empty : e.compressed.length = 0) :
    e.hash = C.zeroBlockHash := by
  obtain ⟨d, fetched, hash⟩ := h
  simp only [Codec.fetchBlock, empty, if_true, Option.some.injEq] at fetched
  rw [← hash, ← fetched, Codec.zeroBlockHash]

namespace MergedIndex

def empty : MergedIndex C := ⟨∅, fun _ _ _ h => by simp at h⟩

def insert (m : MergedIndex C) (id : PackId) (e : PackBlock Hash) (h : e.Sound C) :
    MergedIndex C where
  entries := m.entries.insert e.chunkOffset (id, e.hash, e.compressed.length)
  zero off id' hash found := by
    by_cases here : off = e.chunkOffset
    · subst here
      rw [AList.lookup_insert] at found
      obtain ⟨-, same, empty⟩ := by simpa using found
      exact same ▸ hash_of_tombstone h (by simpa using empty)
    · rw [AList.lookup_insert_ne here] at found
      exact m.zero off id' hash found

/-- The entries of one pack, over those of older packs. -/
def addPack (m : MergedIndex C) (id : PackId) (p : Pack C) : MergedIndex C :=
  p.blocks.attach.foldl (fun m e => m.insert id e.1 (p.sound e.1 e.2)) m

end MergedIndex

/-- Where a pack stands in the list, its last place if it is listed twice. -/
def idOrder (ids : List PackId) (id : PackId) : Nat := ids.length - 1 - ids.reverse.idxOf id

/-- The indexes arrive in any order and are sorted back. -/
def oldestFirst (ids : List PackId) : List PackId :=
  ids.insertionSort fun a b => idOrder ids a ≤ idOrder ids b

/-- Loads the indexes of a chunk and merges them; a missing one is an error. -/
def mergeIndexes (s : PackStore C) (c : Nat) (ids : List PackId) : Option (MergedIndex C) :=
  (oldestFirst ids).foldlM (fun m id => (s.get c id).map (m.addPack id)) .empty

/-! ## The base pack -/

/-- `get_chunk_block`: the bytes of a block in its pack. -/
def getChunkBlock (s : PackStore C) (c : Nat) (id : PackId) (off length : Nat) :
    Option (List UInt8) :=
  (s.get c id).bind fun p =>
    ((p.find off).map PackBlock.compressed).filter fun bytes => bytes.length = length

/-- A block of the base pack: a tombstone as it is, any other block read and verified. -/
def fetchMerged (s : PackStore C) (c off : Nat) : PackId × Hash × Nat → Option (PackBlock Hash)
  | (id, hash, length) =>
      if length = 0 then some ⟨hash, off, []⟩
      else do
        let bytes ← getChunkBlock s c id off length
        let d ← C.decompressBlock bytes
        if C.blake3 d = hash then some ⟨hash, off, bytes⟩ else none

/-- The blocks of the base pack by their offset. -/
def fetchBlocks (s : PackStore C) (c : Nat) (m : MergedIndex C) : Option (List (PackBlock Hash)) :=
  (m.entries.entries.mapM fun e => fetchMerged s c e.1 e.2).map
    (List.insertionSort fun a b => a.chunkOffset ≤ b.chunkOffset)

theorem fetchMerged_sound {off : Nat} {v : PackId × Hash × Nat}
    (listed : m.entries.lookup off = some v) (h : fetchMerged s c off v = some e) :
    e.Sound C ∧ e.chunkOffset = off := by
  obtain ⟨id, hash, length⟩ := v
  by_cases tombstone : length = 0
  · simp only [fetchMerged, tombstone, if_true, Option.some.injEq] at h
    subst h tombstone
    exact ⟨⟨0, by simp [Codec.fetchBlock], (m.zero off id hash listed).symm⟩, rfl⟩
  · simp only [fetchMerged, tombstone, if_false] at h
    obtain ⟨bytes, read, h⟩ := Option.bind_eq_some_iff.mp h
    obtain ⟨d, opened, h⟩ := Option.bind_eq_some_iff.mp h
    obtain ⟨verified, h⟩ := Option.ite_none_right_eq_some.mp h
    cases h
    have long : bytes.length = length := by
      obtain ⟨p, -, read⟩ := Option.bind_eq_some_iff.mp read
      simpa using (Option.filter_eq_some_iff.mp read).2
    refine ⟨⟨d, ?_, verified⟩, rfl⟩
    simp [Codec.fetchBlock, long, tombstone, opened, verified, Option.filter]

/-- A list mapped without a failure, with each element beside its image. -/
theorem mapM_pairs {α β : Type} {f : α → Option β} {l : List α} {r : List β}
    (h : l.mapM f = some r) :
    ∃ pairs : List (α × β), pairs.map Prod.fst = l ∧ pairs.map Prod.snd = r ∧
      ∀ q ∈ pairs, f q.1 = some q.2 := by
  induction l generalizing r with
  | nil =>
    cases h
    exact ⟨[], rfl, rfl, by simp⟩
  | cons a rest ih =>
    rw [List.mapM_cons] at h
    obtain ⟨b, first, h⟩ := Option.bind_eq_some_iff.mp h
    obtain ⟨bs, later, h⟩ := Option.bind_eq_some_iff.mp h
    cases h
    obtain ⟨pairs, rfl, rfl, each⟩ := ih later
    exact ⟨(a, b) :: pairs, rfl, rfl, by simpa [first] using fun a b => each (a, b)⟩

/-- What `fetchBlocks` returns: one block for every offset of the merged index. -/
structure Fetched (s : PackStore C) (c : Nat) (m : MergedIndex C) (bs : List (PackBlock Hash)) :
    Prop where
  offsets : (bs.map PackBlock.chunkOffset).Perm m.entries.keys
  of_mem : ∀ e ∈ bs, ∃ v, m.entries.lookup e.chunkOffset = some v ∧
    fetchMerged s c e.chunkOffset v = some e

theorem fetchBlocks_fetched {bs : List (PackBlock Hash)} (h : fetchBlocks s c m = some bs) :
    Fetched s c m bs := by
  obtain ⟨raw, fetched, rfl⟩ := Option.map_eq_some_iff.mp h
  obtain ⟨pairs, listed, got, each⟩ := mapM_pairs fetched
  have found : ∀ q ∈ pairs, m.entries.lookup q.1.1 = some q.1.2 ∧ q.2.chunkOffset = q.1.1 := by
    intro q mem
    have here : m.entries.lookup q.1.1 = some q.1.2 :=
      AList.mem_lookup_iff.mpr (listed ▸ List.mem_map_of_mem mem)
    exact ⟨here, (fetchMerged_sound here (each q mem)).2⟩
  have sorted := List.perm_insertionSort (fun a b => a.chunkOffset ≤ b.chunkOffset) raw
  constructor
  · apply (sorted.map _).trans
    apply List.Perm.of_eq
    rw [AList.keys, List.keys, ← listed, ← got, List.map_map, List.map_map]
    exact List.map_congr_left fun q mem => (found q mem).2
  · intro b mem
    obtain ⟨q, there, rfl⟩ := List.mem_map.mp (got ▸ sorted.mem_iff.mp mem)
    obtain ⟨here, off⟩ := found q there
    exact ⟨q.1.2, off ▸ here, off ▸ each q there⟩

/-- The base pack. -/
def basePack {s : PackStore C} {c : Nat} {m : MergedIndex C} {bs : List (PackBlock Hash)}
    (h : Fetched s c m bs) : Pack C where
  blocks := bs
  distinct := h.offsets.nodup_iff.mpr m.entries.nodupKeys
  sound e mem := by
    obtain ⟨v, listed, got⟩ := h.of_mem e mem
    exact (fetchMerged_sound listed got).1

/-- The pack header counts blocks in 16 bits. -/
def maxPackBlocks : Nat := 65535

/-- The base pack of a merged index, `some none` when it has no entry. -/
def packMerged (s : PackStore C) (c : Nat) (m : MergedIndex C) : Option (Option (Pack C)) :=
  if m.entries.keys.isEmpty then some none
  else
    match h : fetchBlocks s c m with
    | none => none
    | some bs =>
        if bs.length ≤ maxPackBlocks then some (some (basePack (fetchBlocks_fetched h))) else none

/-- What one compaction meets in S3: the packs when it loads the indexes, when it reads the
    blocks and when it uploads, none of which changes or goes away meanwhile, and whether its
    calls succeed. -/
structure CompactionCalls (C : Codec D Hash PackId) where
  atIndex : PackStore C
  atFetch : PackStore C
  atUpload : PackStore C
  index_fetch : atIndex.Extends atFetch
  fetch_upload : atFetch.Extends atUpload
  indexOk : Bool
  fetchOk : Bool
  uploadOk : Bool

/-- The base pack of the listed packs, `some none` when none of them has an entry. -/
def CompactionCalls.pack (calls : CompactionCalls C) (c : Nat) (ids : List PackId) :
    Option (Option (Pack C)) :=
  if calls.indexOk then
    (mergeIndexes calls.atIndex c ids).bind fun m =>
      if m.entries.keys.isEmpty || calls.fetchOk then packMerged calls.atFetch c m else none
  else none

/-- `compact_chunk` on the packs the chunk listed, with the manifest it finds at the swap: the
    store and the manifest afterwards. An error leaves the manifest alone. -/
def compactChunk (calls : CompactionCalls C) (c : Nat) (ids : List PackId)
    (m : VolumeManifest PackId) : PackStore C × VolumeManifest PackId :=
  match calls.pack c ids with
  | none => (calls.atUpload, m)
  | some none => (calls.atUpload, (m.replacePacksCas c ids []).getD m)
  | some (some pack) =>
      if calls.uploadOk then
        (calls.atUpload.streamChunkPack c pack, (m.replacePacksCas c ids [pack.packId]).getD m)
      else (calls.atUpload, m)

/-! ## Newest first, before and after -/

/-- The entry a pack has for an offset, with the pack. -/
def entryIn (s : PackStore C) (c off : Nat) (id : PackId) : Option (PackId × PackBlock Hash) :=
  (s.get c id).bind fun p => (p.find off).map (Prod.mk id)

/-- Over loaded packs the newest-first lookup finds the first entry. -/
theorem locateIn_eq_findSome (present : ∀ id ∈ ids, (s.get c id).isSome) (off : Nat) :
    locateIn s c off ids = some ((ids.findSome? (entryIn s c off)).map Prod.snd) := by
  induction ids with
  | nil => rfl
  | cons id older ih =>
    obtain ⟨p, get⟩ := Option.isSome_iff_exists.mp (present id List.mem_cons_self)
    rw [locateIn_cons get, ih fun i mem => present i (List.mem_cons_of_mem id mem),
      List.findSome?_cons]
    cases found : p.find off with
    | none => simp [entryIn, get, found]
    | some e => simp [entryIn, get, found]

/-- A list sorted by the first places in another one is searched alike. -/
theorem findSome?_by_place {α β : Type} [DecidableEq α] {f : α → Option β} {l r : List α}
    (same : ∀ a, a ∈ l ↔ a ∈ r) (sorted : l.Pairwise fun a b => r.idxOf a ≤ r.idxOf b) :
    l.findSome? f = r.findSome? f := by
  cases found : r.findSome? f with
  | none =>
    rw [List.findSome?_eq_none_iff] at found ⊢
    intro a mem
    exact found a ((same a).mp mem)
  | some v =>
    obtain ⟨before, a, after, rfl, here, none_before⟩ := List.findSome?_eq_some_iff.mp found
    have missed : a ∉ before := fun mem => by simp [none_before a mem] at here
    have place : (before ++ a :: after).idxOf a = before.length := by
      rw [List.idxOf_append_of_notMem missed, List.idxOf_cons_self, Nat.add_zero]
    obtain ⟨ahead, b, behind, rfl, first, none_ahead⟩ :
        ∃ ahead b behind, l = ahead ++ b :: behind ∧ (f b).isSome ∧ ∀ x ∈ ahead, f x = none := by
      have some_l : (l.findSome? f).isSome := by
        rw [List.findSome?_isSome_iff]
        exact ⟨a, (same a).mpr (by simp), by simp [here]⟩
      obtain ⟨w, at_l⟩ := Option.isSome_iff_exists.mp some_l
      obtain ⟨ahead, b, behind, split, at_b, none_ahead⟩ := List.findSome?_eq_some_iff.mp at_l
      exact ⟨ahead, b, behind, split, by simp [at_b], none_ahead⟩
    -- the first hit of the sorted list is not placed after the first hit of the other
    have equal : b = a := by
      have mem : a ∈ ahead ++ b :: behind := (same a).mpr (by simp)
      have not_ahead : a ∉ ahead := fun mem => by simp [none_ahead a mem] at here
      have missed_b : b ∉ before := fun mem => by simp [none_before b mem] at first
      rcases List.mem_cons.mp ((List.mem_append.mp mem).resolve_left not_ahead) with same | later
      · exact same.symm
      · have le := (List.pairwise_cons.mp (List.pairwise_append.mp sorted).2.1).1 a later
        by_contra other
        rw [place, List.idxOf_append_of_notMem missed_b, List.idxOf_cons_ne _ (Ne.symm other)] at le
        omega
    subst equal
    rw [List.findSome?_append, List.findSome?_eq_none_iff.mpr none_ahead]
    simp [here]

theorem findSome?_oldestFirst {β : Type} (f : PackId → Option β) (ids : List PackId) :
    (oldestFirst ids).reverse.findSome? f = ids.reverse.findSome? f := by
  have sorted := List.perm_insertionSort (fun a b => idOrder ids a ≤ idOrder ids b) ids
  apply findSome?_by_place
  · intro a
    rw [List.mem_reverse, List.mem_reverse]
    exact sorted.mem_iff
  · rw [List.pairwise_reverse]
    have order := List.pairwise_insertionSort (fun a b => idOrder ids a ≤ idOrder ids b) ids
    apply order.imp_of_mem
    intro a b mem_a mem_b le
    have place (x : PackId) (mem : x ∈ oldestFirst ids) : ids.reverse.idxOf x < ids.length := by
      rw [← List.length_reverse]
      exact List.idxOf_lt_length_iff.mpr (List.mem_reverse.mpr (sorted.mem_iff.mp mem))
    have := place a mem_a
    have := place b mem_b
    simp only [idOrder] at le
    omega

/-- What the merged index keeps of an entry. -/
def indexValue (found : PackId × PackBlock Hash) : PackId × Hash × Nat :=
  (found.1, found.2.hash, found.2.compressed.length)

theorem MergedIndex.lookup_addPack (m : MergedIndex C) (id : PackId) (p : Pack C) (off : Nat) :
    (m.addPack id p).entries.lookup off =
      ((p.find off).map fun e => indexValue (id, e)).or (m.entries.lookup off) := by
  have plain : (m.addPack id p).entries =
      p.blocks.foldl (fun map e => map.insert e.chunkOffset (indexValue (id, e))) m.entries := by
    have each (es : List { e // e ∈ p.blocks }) (m : MergedIndex C) :
        (es.foldl (fun m e => m.insert id e.1 (p.sound e.1 e.2)) m).entries =
          (es.map Subtype.val).foldl
            (fun map e => map.insert e.chunkOffset (indexValue (id, e))) m.entries := by
      induction es generalizing m with
      | nil => rfl
      | cons e rest ih => exact ih (m.insert id e.1 (p.sound e.1 e.2))
    simpa [addPack] using each p.blocks.attach m
  rw [plain]
  exact lookup_insertAll (fun e => indexValue (id, e)) p.distinct m.entries off

/-- A merge that succeeds has loaded every pack, and keeps the newest entry of each offset. -/
structure Merges (s : PackStore C) (c : Nat) (ids : List PackId) (m : MergedIndex C) : Prop where
  present : ∀ id ∈ ids, (s.get c id).isSome
  lookup : ∀ off, m.entries.lookup off =
    (ids.reverse.findSome? (entryIn s c off)).map indexValue

theorem mergeIndexes_merges (h : mergeIndexes s c ids = some m) : Merges s c ids m := by
  have each (l : List PackId) {m : MergedIndex C}
      (h : l.foldlM (fun m id => (s.get c id).map (m.addPack id)) .empty = some m) :
      Merges s c l m := by
    induction l using List.reverseRecOn generalizing m with
    | nil =>
      cases h
      exact ⟨by simp, fun off => by simp [MergedIndex.empty]⟩
    | append_singleton l id ih =>
      rw [List.foldlM_append] at h
      obtain ⟨m₀, older, h⟩ := Option.bind_eq_some_iff.mp h
      simp only [List.foldlM_cons, List.foldlM_nil] at h
      obtain ⟨m', h, rest⟩ := Option.bind_eq_some_iff.mp h
      cases rest
      obtain ⟨p, get, rfl⟩ := Option.map_eq_some_iff.mp h
      have before := ih older
      constructor
      · intro i mem
        rcases List.mem_append.mp mem with old | new
        · exact before.present i old
        · rw [List.mem_singleton.mp new, get]
          rfl
      · intro off
        rw [MergedIndex.lookup_addPack, before.lookup, List.reverse_append,
          List.reverse_singleton, List.singleton_append, List.findSome?_cons]
        cases found : p.find off with
        | none => simp [entryIn, get, found]
        | some e => simp [entryIn, get, found]
  have sorted := List.perm_insertionSort (fun a b => idOrder ids a ≤ idOrder ids b) ids
  have merged := each (oldestFirst ids) h
  constructor
  · intro id mem
    exact merged.present id (sorted.mem_iff.mpr mem)
  · intro off
    rw [merged.lookup, findSome?_oldestFirst]

/-- A block is copied as its pack has it. -/
theorem fetchMerged_same {s' : PackStore C} (more : s.Extends s') {off : Nat}
    {found : PackId × PackBlock Hash} {id : PackId} (located : entryIn s c off id = some found)
    (h : fetchMerged s' c off (indexValue found) = some e) : e = found.2 := by
  obtain ⟨p, get, located⟩ := Option.bind_eq_some_iff.mp located
  obtain ⟨e₀, find, rfl⟩ := Option.map_eq_some_iff.mp located
  obtain ⟨-, here⟩ := Pack.find_some find
  by_cases tombstone : e₀.compressed.length = 0
  · simp only [fetchMerged, indexValue, tombstone, if_true, Option.some.injEq] at h
    have empty : e₀.compressed = [] := List.length_eq_zero_iff.mp tombstone
    simp [← h, ← here, ← empty]
  · simp only [fetchMerged, indexValue, tombstone, if_false] at h
    obtain ⟨bytes, read, h⟩ := Option.bind_eq_some_iff.mp h
    obtain ⟨rfl, -⟩ : e₀.compressed = bytes ∧ _ := by
      simpa [getChunkBlock, more _ _ _ get, find] using read
    obtain ⟨d, -, h⟩ := Option.bind_eq_some_iff.mp h
    obtain ⟨-, h⟩ := Option.ite_none_right_eq_some.mp h
    cases h
    simp [← here]

/-- The base pack has the newest entry of every offset. -/
theorem basePack_find {s' : PackStore C} (more : s.Extends s') (merges : Merges s c ids m)
    {bs : List (PackBlock Hash)} (fetched : Fetched s' c m bs) (off : Nat) :
    (basePack fetched).find off = (ids.reverse.findSome? (entryIn s c off)).map Prod.snd := by
  cases newest : ids.reverse.findSome? (entryIn s c off) with
  | none =>
    rw [Option.map_none, Pack.find_none]
    intro e mem here
    obtain ⟨v, listed, -⟩ := fetched.of_mem e mem
    rw [here, merges.lookup, newest] at listed
    cases listed
  | some found =>
    have listed : m.entries.lookup off = some (indexValue found) := by
      rw [merges.lookup, newest, Option.map_some]
    have key : off ∈ m.entries.keys := AList.mem_keys.mp (AList.lookup_isSome.mp (by simp [listed]))
    obtain ⟨e, mem, rfl⟩ := List.mem_map.mp (fetched.offsets.mem_iff.mpr key)
    obtain ⟨v, listed', got⟩ := fetched.of_mem e mem
    obtain rfl : v = indexValue found := by simpa [listed'] using listed
    obtain ⟨_, id, _, _, located, _⟩ := List.findSome?_eq_some_iff.mp newest
    rw [Option.map_some, ← fetchMerged_same more located got]
    exact Pack.find_of_mem (p := basePack fetched) mem

/-- What the new packs of a compaction are to the ones they replace. -/
structure Stands (s : PackStore C) (c : Nat) (ids new : List PackId) : Prop where
  one : (∃ pack : Pack C, new = [pack.packId]) ∨
    new = [] ∧ ∀ id ∈ ids, ∃ p, s.get c id = some p ∧ p.blocks = []
  same : ∀ off, locateIn s c off new.reverse = locateIn s c off ids.reverse

/-- The base pack, or none for packs without entries, answers for the packs that were merged. -/
theorem stands_packMerged {s₀ s₁ : PackStore C} (grown : s₀.Extends s₁) (more : s₁.Extends s)
    (merges : Merges s₀ c ids m) {new : Option (Pack C)} (h : packMerged s₁ c m = some new)
    (stored : ∀ pack, new = some pack → s.get c pack.packId = some pack) :
    Stands s c ids (new.toList.map Pack.packId) := by
  have old (off : Nat) : locateIn s c off ids.reverse =
      some ((ids.reverse.findSome? (entryIn s₀ c off)).map Prod.snd) :=
    locateIn_extends (fun _ _ _ get => more _ _ _ (grown _ _ _ get))
      (locateIn_eq_findSome (fun id mem => merges.present id (List.mem_reverse.mp mem)) off)
  rw [packMerged] at h
  split at h
  · rename_i empty
    cases h
    have no_entry (off : Nat) : ids.reverse.findSome? (entryIn s₀ c off) = none := by
      have missing : m.entries.lookup off = none := by
        rw [AList.lookup_eq_none, AList.mem_keys, List.isEmpty_iff.mp empty]
        exact List.not_mem_nil
      simpa [merges.lookup] using missing
    constructor
    · refine .inr ⟨rfl, fun id mem => ?_⟩
      obtain ⟨p, get⟩ := Option.isSome_iff_exists.mp (merges.present id mem)
      refine ⟨p, more _ _ _ (grown _ _ _ get), List.eq_nil_iff_forall_not_mem.mpr fun e inside => ?_⟩
      have none := List.findSome?_eq_none_iff.mp (no_entry e.chunkOffset) id
        (List.mem_reverse.mpr mem)
      simp [entryIn, get, Pack.find_of_mem inside] at none
    · intro off
      rw [old, no_entry]
      rfl
  · split at h
    · cases h
    · rename_i bs fetched
      obtain ⟨-, h⟩ := Option.ite_none_right_eq_some.mp h
      cases h
      refine ⟨.inl ⟨_, rfl⟩, fun off => ?_⟩
      have find := basePack_find grown merges (fetchBlocks_fetched fetched) off
      rw [old, ← find, Option.toList_some, List.map_singleton, List.reverse_singleton,
        locateIn_cons (stored _ rfl), locateIn]
      cases (basePack (fetchBlocks_fetched fetched)).find off <;> rfl

/-- Compaction changes no content: it leaves the manifest as it is, or the packs it has read give
    way to one new pack, or to none if they have no entries, and every offset of the chunk is
    found newest first as before, whatever was appended meanwhile. -/
theorem compaction_same_content (calls : CompactionCalls C) (c : Nat) (ids : List PackId)
    (m : VolumeManifest PackId) :
    let r := compactChunk calls c ids m
    r.2 = m ∨ ∃ new tail, r.2.chunkPackIds c = new ++ tail ∧ m.chunkPackIds c = ids ++ tail ∧
      (∀ c' ≠ c, r.2.chunks c' = m.chunks c') ∧
      ((∃ pack : Pack C, new = [pack.packId]) ∨
        new = [] ∧ ∀ id ∈ ids, ∃ p, r.1.get c id = some p ∧ p.blocks = []) ∧
      ∀ off, locateIn r.1 c off (new ++ tail).reverse = locateIn r.1 c off (ids ++ tail).reverse := by
  have swapped {s : PackStore C} {new : List PackId} (stands : Stands s c ids new) :
      (m.replacePacksCas c ids new).getD m = m ∨ ∃ tail,
        VolumeManifest.Replaced m ((m.replacePacksCas c ids new).getD m) c ids new tail ∧
        ∀ off, locateIn s c off (new ++ tail).reverse = locateIn s c off (ids ++ tail).reverse := by
    cases swap : m.replacePacksCas c ids new with
    | none => exact .inl rfl
    | some m' =>
        obtain ⟨tail, replaced⟩ := VolumeManifest.replacePacksCas_replaced swap
        refine .inr ⟨tail, replaced, fun off => ?_⟩
        rw [List.reverse_append, List.reverse_append, locateIn_append, locateIn_append, stands.same]
  have merged {new : Option (Pack C)} (made : calls.pack c ids = some new) :
      ∃ index, Merges calls.atIndex c ids index ∧ packMerged calls.atFetch c index = some new := by
    obtain ⟨-, made⟩ := Option.ite_none_right_eq_some.mp made
    obtain ⟨index, merged, made⟩ := Option.bind_eq_some_iff.mp made
    obtain ⟨-, made⟩ := Option.ite_none_right_eq_some.mp made
    exact ⟨index, mergeIndexes_merges merged, made⟩
  intro r
  cases made : calls.pack c ids with
  | none => exact .inl (by simp [r, compactChunk, made])
  | some base =>
      obtain ⟨index, merges, packed⟩ := merged made
      cases base with
      | none =>
          have stands := stands_packMerged calls.index_fetch calls.fetch_upload merges packed
            nofun
          have shape : r = (calls.atUpload, (m.replacePacksCas c ids []).getD m) := by
            simp [r, compactChunk, made]
          rw [shape]
          rcases swapped stands with same | ⟨tail, replaced, found⟩
          · exact .inl same
          · exact .inr ⟨[], tail, replaced.after, replaced.before, replaced.others, stands.one, found⟩
      | some pack =>
          by_cases ok : calls.uploadOk
          · have grown : calls.atFetch.Extends (calls.atUpload.streamChunkPack c pack) :=
              fun _ _ _ get => PackStore.streamChunkPack_keeps (calls.fetch_upload _ _ _ get)
            have stands := stands_packMerged calls.index_fetch grown merges packed fun _ same => by
              cases same
              exact calls.atUpload.streamChunkPack_self c pack
            have shape : r = (calls.atUpload.streamChunkPack c pack,
                (m.replacePacksCas c ids [pack.packId]).getD m) := by
              simp [r, compactChunk, made, ok]
            rw [shape]
            rcases swapped stands with same | ⟨tail, replaced, found⟩
            · exact .inl same
            · exact .inr ⟨_, tail, replaced.after, replaced.before, replaced.others, stands.one, found⟩
          · exact .inl (by simp [r, compactChunk, made, ok])

/-- A pack without entries, stored for chunk 0. -/
def emptyPackStored : PackStore (.plain 16) :=
  PackStore.empty.streamChunkPack 0 ⟨[], .nil, fun _ mem => absurd mem List.not_mem_nil⟩

/-- Packs without entries are replaced by none: the chunk is dropped. -/
theorem empty_packs_removed :
    let calls : CompactionCalls (.plain 16) := ⟨emptyPackStored, emptyPackStored, emptyPackStored,
      fun _ _ _ get => get, fun _ _ _ get => get, true, true, true⟩
    let m := (VolumeManifest.new.appendPack 0 [] (some 0) : VolumeManifest (List (PackBlock (BlockData 16))))
    let r := compactChunk calls 0 [[]] m
    r.2 ≠ m ∧ ¬∃ pack tail, m.chunkPackIds 0 = [[]] ++ tail ∧ r.2.chunkPackIds 0 = [pack] ++ tail := by
  intro calls m r
  have gone : r.2.chunkPackIds 0 = [] := by decide
  have before : m.chunkPackIds 0 = [[]] := by decide
  refine ⟨fun same => ?_, fun ⟨pack, tail, _, after⟩ => ?_⟩
  · rw [same, before] at gone
    cases gone
  · rw [gone] at after
    cases after

end GlideFS.WriteCache
