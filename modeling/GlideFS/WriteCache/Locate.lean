import GlideFS.Block.PackIndex

/-! # Locating a block

`locate_block` searches the packs of a chunk newest first, in indices kept by a cache
that may forget any of them at any time. Once an index is missing it fetches those it
did not find, puts them into the cache and searches again. The second search takes an
index that the cache does not give back for one without the block.
-/

namespace GlideFS.WriteCache.Locate

open Block

inductive BlockLocation (PackId Hash : Type) where
  | onDisk (data : List UInt8)
  | cached (data : List UInt8)
  | zero
  | needsFetch (packId : PackId) (e : PackIndexEntry Hash)

/-- What one call meets: the indices of the packs, which of its `get_entries` calls find the
    index in the cache, how its index fetches end and what the clean cache holds. The calls
    are numbered within their loop. -/
structure Lookups (PackId Hash E : Type) where
  index : PackId → PackIndex Hash
  first : Nat → Bool
  collect : Nat → Bool
  second : Nat → Bool
  fetchError : Nat → Option E
  cleanCache : Hash → Option (List UInt8)

namespace Lookups

variable {PackId Hash E : Type}

/-- `PackIndexCache::get_entries`, with whether the cache has the pack. -/
def getEntries (w : Lookups PackId Hash E) (hit : Bool) (id : PackId) : Option (PackIndex Hash) :=
  if hit then some (w.index id) else none

/-- The packs whose index the rest of the first loop misses. -/
def uncachedIn (w : Lookups PackId Hash E) (n : Nat) (ids : List PackId) : List PackId :=
  ((ids.zipIdx n).filter fun p => (w.getEntries (w.first p.2) p.1).isNone).map Prod.fst

/-- The first loop: the entry it resolves to and the packs it found no index for. After the
    first of those nothing is resolved any more. -/
def firstPass (w : Lookups PackId Hash E) (off : Nat) :
    Nat → List PackId → Option (PackId × PackIndexEntry Hash) × List PackId
  | _, [] => (none, [])
  | n, id :: older =>
      match w.getEntries (w.first n) id with
      | none => (none, id :: w.uncachedIn (n + 1) older)
      | some index =>
          match index.lookup off with
          | some e => (some (id, e), [])
          | none => firstPass w off (n + 1) older

variable [DecidableEq PackId]

/-- The loop before the fetches: packs that are not listed yet and missing by now. -/
def collectUncached (w : Lookups PackId Hash E) (ids uncached : List PackId) : List PackId :=
  ids.zipIdx.foldl (fun found p =>
    if !found.contains p.1 && (w.getEntries (w.collect p.2) p.1).isNone then found ++ [p.1]
    else found) uncached

/-- The fetches that failed: `failed_pack_ids`, each with its error. -/
def failures (w : Lookups PackId Hash E) (uncached : List PackId) : List (PackId × E) :=
  uncached.zipIdx.filterMap fun p => (w.fetchError p.2).map fun e => (p.1, e)

/-- `last_fetch_error`. -/
def lastFetchError (failed : List (PackId × E)) : Option E := failed.getLast?.map Prod.snd

def secondPass (w : Lookups PackId Hash E) (off : Nat) (failed : List (PackId × E)) :
    Nat → List PackId → Except E (Option (PackId × PackIndexEntry Hash))
  | _, [] => .ok none
  | n, id :: older =>
      match if (failed.map Prod.fst).contains id then lastFetchError failed else none with
      | some e => .error e
      | none =>
          match (w.getEntries (w.second n) id).bind fun index => index.lookup off with
          | some e => .ok (some (id, e))
          | none => secondPass w off failed (n + 1) older

/-- The entry that the two loops resolve to. -/
def resolve (w : Lookups PackId Hash E) (off : Nat) (ids : List PackId) :
    Except E (Option (PackId × PackIndexEntry Hash)) :=
  let (resolved, uncached) := w.firstPass off 0 ids.reverse
  if uncached.isEmpty then .ok resolved
  else
    let failed := w.failures (w.collectUncached ids uncached)
    match w.secondPass off failed 0 ids.reverse with
    | .error e => .error e
    | .ok (some r) => .ok (some r)
    | .ok none =>
        match lastFetchError failed with
        | some e => .error e
        | none => .ok none

/-- Where the bytes of a resolved entry are; a tombstone has none. -/
def place (w : Lookups PackId Hash E) : Option (PackId × PackIndexEntry Hash) → BlockLocation PackId Hash
  | none => .zero
  | some (id, e) =>
      if e.compLength = 0 then .zero
      else
        match w.cleanCache e.hash with
        | some data => .cached data
        | none => .needsFetch id e

/-- `locate_block`, with what `sync_read_local_block` gives for the block. -/
def locateBlock (w : Lookups PackId Hash E) (g : Geometry) (m : VolumeManifest PackId)
    (state : SparseBlockState) (localBlock : Except E (Option (List UInt8))) (b : Nat) :
    Except E (BlockLocation PackId Hash) :=
  match if state = .dirty ∨ state = .syncing then localBlock else .ok none with
  | .error e => .error e
  | .ok (some data) => .ok (.onDisk data)
  | .ok none =>
      (w.resolve (g.blockOffsetInChunk b) (m.chunkPackIds (g.chunkIdxForBlock b))).map w.place

/-- The entry for the offset in the newest pack that has one; `ids` is oldest first. -/
def newest (w : Lookups PackId Hash E) (off : Nat) (ids : List PackId) :
    Option (PackId × PackIndexEntry Hash) :=
  ids.reverse.findSome? fun id => ((w.index id).lookup off).map fun e => (id, e)

/-- The location of the newest entry, or no location where there is nothing to fetch. -/
def IsLocation (w : Lookups PackId Hash E) (off : Nat) (ids : List PackId) :
    BlockLocation PackId Hash → Prop
  | .onDisk _ => False
  | .zero => ∀ r, w.newest off ids = some r → r.2.compLength = 0
  | .cached data => ∃ r, w.newest off ids = some r ∧ r.2.compLength ≠ 0 ∧
      w.cleanCache r.2.hash = some data
  | .needsFetch id e => w.newest off ids = some (id, e)

/-- The gets of the first loop up to the newest pack that has the block all hit, or that pack's get
    in the second loop does. -/
def Kept (w : Lookups PackId Hash E) (off : Nat) (ids : List PackId) : Prop :=
  ∀ newer id older, ids.reverse = newer ++ id :: older →
    (∀ p ∈ newer, (w.index p).lookup off = none) → (w.index id).lookup off ≠ none →
    (∀ k ≤ newer.length, w.first k = true) ∨ w.second newer.length = true

variable {w : Lookups PackId Hash E} {off : Nat} {ids : List PackId}

theorem isLocation_place (r : Option (PackId × PackIndexEntry Hash)) :
    w.IsLocation off ids (w.place r) ↔ w.place r = w.place (w.newest off ids) := by
  have placed (s : Option (PackId × PackIndexEntry Hash)) : w.place s = .zero ↔
      ∀ r, s = some r → r.2.compLength = 0 := by
    cases s with
    | none => simp [place]
    | some r =>
      by_cases empty : r.2.compLength = 0
      · simp [place, empty]
      · cases clean : w.cleanCache r.2.hash <;> simp [place, empty, clean]
  cases r with
  | none => simp only [place, IsLocation, ← placed]; exact eq_comm
  | some r =>
    by_cases empty : r.2.compLength = 0
    · simp only [place, empty, if_true, IsLocation, ← placed]
      exact eq_comm
    · cases newest : w.newest off ids with
      | none => cases clean : w.cleanCache r.2.hash <;> simp [place, empty, clean, IsLocation, newest]
      | some r' =>
        by_cases gone : r'.2.compLength = 0
        · cases clean : w.cleanCache r.2.hash <;>
            simp [place, empty, clean, IsLocation, newest, gone]
          rintro rfl
          exact empty gone
        · cases clean : w.cleanCache r.2.hash <;> cases clean' : w.cleanCache r'.2.hash <;>
            simp [place, empty, clean, clean', IsLocation, newest, gone]
          all_goals grind

theorem newest_eq_none : w.newest off ids = none ↔ ∀ id ∈ ids, (w.index id).lookup off = none := by
  simp [newest, List.findSome?_eq_none_iff]

theorem newest_eq_some {newer older : List PackId} {id : PackId} {e : PackIndexEntry Hash}
    (split : ids.reverse = newer ++ id :: older)
    (lacking : ∀ p ∈ newer, (w.index p).lookup off = none) (has : (w.index id).lookup off = some e) :
    w.newest off ids = some (id, e) := by
  have before : newer.findSome? (fun id => ((w.index id).lookup off).map fun e => (id, e)) = none := by
    simp only [List.findSome?_eq_none_iff, Option.map_eq_none_iff]
    exact lacking
  rw [newest, split, List.findSome?_append, before, List.findSome?_cons, has]
  rfl

/-- The packs split at the newest one that has the block. -/
theorem split_newest {id : PackId} {e : PackIndexEntry Hash} (h : w.newest off ids = some (id, e)) :
    ∃ newer older, ids.reverse = newer ++ id :: older ∧
      (∀ p ∈ newer, (w.index p).lookup off = none) ∧ (w.index id).lookup off = some e := by
  obtain ⟨newer, p, older, split, found, lacking⟩ := List.findSome?_eq_some_iff.mp h
  obtain ⟨e', has, same⟩ := Option.map_eq_some_iff.mp found
  cases same
  refine ⟨newer, older, split, ?_, has⟩
  intro q mem
  simpa using lacking q mem

/-- The first loop over packs without the block ends with them, or misses one of them. -/
theorem firstPass_append {newer : List PackId} (older : List PackId)
    (lacking : ∀ p ∈ newer, (w.index p).lookup off = none) (n : Nat)
    (hits : ∀ k < newer.length, w.first (n + k) = true) :
    w.firstPass off n (newer ++ older) = w.firstPass off (n + newer.length) older := by
  induction newer generalizing n with
  | nil => rfl
  | cons p newer ih =>
    have hit : w.first n = true := hits 0 (by simp)
    simp only [List.cons_append, firstPass, getEntries, hit, if_true,
      lacking p List.mem_cons_self, List.length_cons]
    rw [ih (fun q mem => lacking q (List.mem_cons_of_mem p mem)) (n + 1)]
    · congr 1
      omega
    · intro k small
      have := hits (k + 1) (by simp; omega)
      rwa [show n + 1 + k = n + (k + 1) by omega]

theorem firstPass_missed {n k : Nat} (lacking : ∀ p ∈ ids.take k, (w.index p).lookup off = none)
    (small : k < ids.length) (miss : w.first (n + k) = false) :
    (w.firstPass off n ids).1 = none ∧ (w.firstPass off n ids).2 ≠ [] := by
  induction ids generalizing n k with
  | nil => simp at small
  | cons id older ih =>
    cases hit : w.first n with
    | false => simp [firstPass, getEntries, hit]
    | true =>
      cases k with
      | zero => simp [hit] at miss
      | succ k =>
        have lacks := lacking id (by simp)
        simp only [firstPass, getEntries, hit, if_true, lacks]
        apply ih (k := k)
        · intro p mem
          exact lacking p (by simp [mem])
        · simpa using small
        · rwa [show n + 1 + k = n + (k + 1) by omega]

/-- A first loop that misses no index finds the newest entry. -/
theorem firstPass_newest (n : Nat) (full : (w.firstPass off n ids).2 = []) :
    (w.firstPass off n ids).1 = w.newest off ids.reverse := by
  induction ids generalizing n with
  | nil => rfl
  | cons id older ih =>
    cases hit : w.first n with
    | false => simp [firstPass, getEntries, hit] at full
    | true =>
      rw [newest, List.reverse_reverse, List.findSome?_cons]
      cases has : (w.index id).lookup off with
      | some e => simp [firstPass, getEntries, hit, has]
      | none =>
        simp only [firstPass, getEntries, hit, if_true, has, Option.map_none] at full ⊢
        rw [ih (n + 1) full, newest, List.reverse_reverse]

section

variable {w : Lookups PackId Hash E} {off n : Nat} {failed : List (PackId × E)}
  {ids newer older : List PackId} {id : PackId} {e : PackIndexEntry Hash}
  {r : Option (PackId × PackIndexEntry Hash)}

/-- What the second loop returns at a pack it did not fail to fetch. -/
theorem secondPass_cons (h : w.secondPass off failed n (id :: older) = .ok r) :
    match (w.getEntries (w.second n) id).bind fun index => index.lookup off with
    | some e => r = some (id, e)
    | none => w.secondPass off failed (n + 1) older = .ok r := by
  rw [secondPass] at h
  split at h
  · cases h
  · split at h
    · cases h
      simp_all
    · simp_all

theorem secondPass_append (lacking : ∀ p ∈ newer, (w.index p).lookup off = none)
    (h : w.secondPass off failed n (newer ++ older) = .ok r) :
    w.secondPass off failed (n + newer.length) older = .ok r := by
  induction newer generalizing n with
  | nil => exact h
  | cons p newer ih =>
    have lacks : ((w.getEntries (w.second n) p).bind fun index => index.lookup off) = none := by
      simp only [getEntries]
      split <;> simp [lacking p List.mem_cons_self]
    have next := secondPass_cons h
    rw [lacks] at next
    rw [List.length_cons, Nat.add_comm newer.length, ← Nat.add_assoc]
    exact ih (fun q mem => lacking q (List.mem_cons_of_mem p mem)) next

/-- The second loop returns nothing, or an entry of a pack that it goes through. -/
theorem secondPass_mem (h : w.secondPass off failed n ids = .ok r) :
    r = none ∨ ∃ id ∈ ids, ∃ e, r = some (id, e) ∧ (w.index id).lookup off = some e := by
  induction ids generalizing n with
  | nil =>
    cases h
    exact .inl rfl
  | cons id older ih =>
    have next := secondPass_cons h
    cases got : (w.getEntries (w.second n) id).bind fun index => index.lookup off with
    | some e =>
      rw [got] at next
      obtain ⟨index, kept, has⟩ := Option.bind_eq_some_iff.mp got
      obtain ⟨-, ⟨⟩⟩ := Option.ite_none_right_eq_some.mp kept
      exact .inr ⟨id, List.mem_cons_self, e, next, has⟩
    | none =>
      rw [got] at next
      refine (ih next).imp_right ?_
      rintro ⟨p, mem, found⟩
      exact ⟨p, List.mem_cons_of_mem id mem, found⟩

/-- Without failed fetches the second loop returns something. -/
theorem secondPass_total (w : Lookups PackId Hash E) (off n : Nat) (ids : List PackId) :
    ∃ r, w.secondPass off [] n ids = .ok r := by
  induction ids generalizing n with
  | nil => exact ⟨none, rfl⟩
  | cons id older ih =>
    cases got : (w.getEntries (w.second n) id).bind fun index => index.lookup off with
    | some e => exact ⟨some (id, e), by simp [secondPass, got]⟩
    | none =>
      obtain ⟨r, rest⟩ := ih (n + 1)
      exact ⟨r, by simp [secondPass, got, rest]⟩

/-- What `locate_block` resolves to once an index was missing. -/
theorem resolve_missed (missed : (w.firstPass off 0 ids.reverse).2 ≠ [])
    (h : w.resolve off ids = .ok r) : w.secondPass off
      (w.failures (w.collectUncached ids (w.firstPass off 0 ids.reverse).2)) 0 ids.reverse = .ok r := by
  have some_missing : (w.firstPass off 0 ids.reverse).2.isEmpty = false := by simpa using missed
  simp only [resolve, some_missing, Bool.false_eq_true, if_false] at h
  split at h
  · cases h
  · cases h
    assumption
  · split at h
    · cases h
    · cases h
      assumption

theorem resolve_full (full : (w.firstPass off 0 ids.reverse).2 = []) :
    w.resolve off ids = .ok (w.newest off ids) := by
  have found := firstPass_newest 0 full
  rw [List.reverse_reverse] at found
  simp only [resolve, full, found, List.isEmpty_nil, if_true]

/-- A kept index is found. -/
theorem resolve_newest (kept : w.Kept off ids) (answer : w.resolve off ids = .ok r) :
    r = w.newest off ids := by
  by_cases full : (w.firstPass off 0 ids.reverse).2 = []
  · rw [resolve_full full] at answer
    exact (Except.ok.inj answer).symm
  · have second := resolve_missed full answer
    cases newest : w.newest off ids with
    | none =>
      rcases secondPass_mem second with none | ⟨id, mem, e, -, has⟩
      · exact none
      · rw [newest_eq_none.mp newest id (List.mem_reverse.mp mem)] at has
        cases has
    | some found =>
      obtain ⟨newer, older, split, lacking, has⟩ := split_newest newest
      rcases kept newer found.1 older split lacking (by simp [has]) with hits | hit
      · refine absurd ?_ full
        rw [split, firstPass_append _ lacking 0 fun k small => by
          rw [Nat.zero_add]; exact hits k (by omega), Nat.zero_add]
        simp [firstPass, getEntries, hits newer.length le_rfl, has]
      · rw [split] at second
        have next := secondPass_cons (secondPass_append lacking second)
        simpa [getEntries, hit, has] using next

/-- An index that is missed twice is passed over. -/
theorem kept_of_exact (distinct : ids.Nodup) (fetched : ∀ n, w.fetchError n = none)
    (data : ∀ r, w.newest off ids = some r → r.2.compLength ≠ 0) (cold : ∀ h, w.cleanCache h = none)
    (exact_answer : ∀ r, w.resolve off ids = .ok r → w.IsLocation off ids (w.place r)) :
    w.Kept off ids := by
  intro newer id older split lacking present
  obtain ⟨e, has⟩ := Option.ne_none_iff_exists'.mp present
  by_contra lost
  push Not at lost
  obtain ⟨⟨k, small, miss⟩, gone⟩ := lost
  have newest := newest_eq_some split lacking has
  have missed : (w.firstPass off 0 ids.reverse).2 ≠ [] := by
    apply (firstPass_missed (k := k) ?_ ?_ (by simpa using miss)).2
    · intro p mem
      rw [split, List.take_append_of_le_length small] at mem
      exact lacking p (List.mem_of_mem_take mem)
    · rw [split, List.length_append, List.length_cons]
      omega
  have none_failed (uncached : List PackId) : w.failures uncached = [] := by
    simp [failures, fetched]
  obtain ⟨r, second⟩ := w.secondPass_total off 0 ids.reverse
  have answer : w.resolve off ids = .ok r := by
    have some_missing : (w.firstPass off 0 ids.reverse).2.isEmpty = false := by simpa using missed
    simp only [resolve, some_missing, Bool.false_eq_true, if_false, none_failed, second]
    cases r <;> rfl
  have placed := (isLocation_place r).mp (exact_answer r answer)
  rw [newest] at placed
  rw [split] at second
  have rest := secondPass_cons (secondPass_append lacking second)
  simp only [Nat.zero_add, getEntries, if_neg gone, Option.bind_none] at rest
  rcases secondPass_mem rest with rfl | ⟨p, mem, e', rfl, -⟩
  · simp [place, data _ newest, cold] at placed
  · have apart : p ≠ id := by
      have all := List.nodup_reverse.mpr distinct
      rw [split, List.nodup_append] at all
      rintro rfl
      exact (List.nodup_cons.mp all.2.1).1 mem
    by_cases empty : e'.compLength = 0 <;> simp [place, data _ newest, cold, empty] at placed
    exact apart placed.1

end

end Lookups

section

variable {PackId Hash E : Type} [DecidableEq PackId]

/-- Two packs with an entry for the first block of a chunk, each under its own hash. -/
def twoPacks (first second : Nat → Bool) : Lookups Nat Nat Unit where
  index id := ⟨[⟨id, 0, 16, 100⟩], List.pairwise_singleton _ _⟩
  first := first
  collect _ := true
  second := second
  fetchError _ := none
  cleanCache _ := none

/-- A chunk with pack 1 and, newer, pack 2. -/
def twoPackManifest : VolumeManifest Nat := ⟨fun c => if c = 0 then some ⟨[1, 2], none⟩ else none⟩

end

end GlideFS.WriteCache.Locate
