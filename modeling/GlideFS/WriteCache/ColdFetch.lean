import GlideFS.Block.PackIndex
import GlideFS.Lib.Extents
import GlideFS.Lib.Loops
import Mathlib.Data.List.Dedup

/-! # Cold fetches

`fetch_with_window` takes the blocks that a read needs from their packs: for each
pack one range that begins at the lowest of them, in which it looks for their hashes,
and `fetch_coalesced` for what this did not bring. Additions and subtractions are
checked: one that leaves its type stops the program.
-/

namespace GlideFS.WriteCache.ColdFetch

open Block Lib

/-- A request: the caller's index, the pack and the entry of the block in its index. -/
structure Request (PackId Hash : Type) where
  index : Nat
  packId : PackId
  chunkIdx : Nat
  entry : PackIndexEntry Hash

inductive CacheError where
  | contentStore
  | decompressFailed
  | hashMismatch
deriving DecidableEq

/-- How a fetch ends that returns no map. -/
inductive Halt where
  | panicked
  | failed (e : CacheError)
deriving DecidableEq

variable {D Hash PackId : Type} [Zero D] [DecidableEq Hash] [DecidableEq PackId]

def Request.key (r : Request PackId Hash) : Nat × PackId := (r.chunkIdx, r.packId)

/-- The packs and what a call meets: the index cache, the outcomes of the range requests of the
    window phase and of the fallback, and the order in which a hash map gives its keys. A pack id
    names the same bytes in every chunk. -/
structure Packs (C : Codec D Hash PackId) where
  object : PackId → PackObject C
  cachedIndex : Nat × PackId → Option (PackLayout Hash)
  windowGet : Nat × PackId → Bool
  blockGet : Nat × PackId → Nat → Nat → Bool
  order : List (Nat × PackId) → List (Nat × PackId)
  order_perm : ∀ keys, (order keys).Perm keys.dedup

def addU32 (a b : Nat) : Except Halt Nat :=
  if a + b < 2 ^ 32 then .ok (a + b) else .error .panicked

def subtract (a b : Nat) : Except Halt Nat := if b ≤ a then .ok (a - b) else .error .panicked

/-- `Bytes::slice`. -/
def cut (bytes : List UInt8) (lo hi : Nat) : Except Halt (List UInt8) :=
  if lo ≤ hi ∧ hi ≤ bytes.length then .ok ((bytes.drop lo).take (hi - lo)) else .error .panicked

/-- `out.insert` for each pair. -/
def insertAll (out : Nat → Option D) (found : List (Nat × D)) : Nat → Option D :=
  found.foldl (fun m p => Function.update m p.1 (some p.2)) out

/-- Decompresses a block and compares its hash. -/
def decode (C : Codec D Hash PackId) (expected : Hash) (compressed : List UInt8) : Except Halt D :=
  match C.decompressBlock compressed with
  | none => .error (.failed .decompressFailed)
  | some d => if C.blake3 d = expected then .ok d else .error (.failed .hashMismatch)

namespace Packs

variable {C : Codec D Hash PackId}

/-- `get_chunk_block`, a range of the pack's object. -/
def getChunkBlock (w : Packs C) (arrives : Bool) (key : Nat × PackId) (offset len : Nat) :
    Option (List UInt8) :=
  if arrives then some (((w.object key.2).bytes.drop offset).take len) else none

/-- A block of the window, unless it is cut off, does not decompress or has another hash. -/
def readEntry (C : Codec D Hash PackId) (bytes : List UInt8) (s : Nat) (e : PackIndexEntry Hash) :
    Option D :=
  if bytes.length < s + e.compLength then none
  else (C.decompressBlock ((bytes.drop s).take e.compLength)).filter fun d => C.blake3 d = e.hash

/-- One turn of the loop over the window's entries; `want` gives the request for a hash. -/
def takeEntry (C : Codec D Hash PackId) (want : Hash → Option Nat) (bytes : List UInt8)
    (rangeStart : Nat) (found : List (Nat × D)) (e : PackIndexEntry Hash) :
    Except Halt (List (Nat × D)) :=
  (subtract e.offset rangeStart).map fun s =>
    match readEntry C bytes s e, want e.hash with
    | some d, some i => found ++ [(i, d)]
    | _, _ => found

/-- `want`: of several requests for one hash the last. -/
def want (reqs : List (Request PackId Hash)) (h : Hash) : Option Nat :=
  (reqs.reverse.find? fun r => r.entry.hash = h).map Request.index

/-- The entries of the window by offset; it begins at the lowest request and its end saturates. -/
def inWindow (layout : PackLayout Hash) (window : Nat) (reqs : List (Request PackId Hash)) :
    List (PackIndexEntry Hash) :=
  let winStart := (reqs.map fun r => r.entry.offset).min?.getD 0
  let winEnd := min (winStart + window) (2 ^ 32 - 1)
  (layout.entries.filter fun e => winStart ≤ e.offset && e.offset < winEnd).insertionSort
    fun a b => a.offset ≤ b.offset

/-- The range request of a pack in the window phase: the blocks it brings and the requests it
    leaves over. -/
def readWindow (w : Packs C) (key : Nat × PackId) (reqs : List (Request PackId Hash))
    (first : PackIndexEntry Hash) (rest : List (PackIndexEntry Hash)) :
    Except Halt (List (Nat × D) × List (Request PackId Hash)) := do
  let last := rest.getLastD first
  let rangeEnd ← addU32 last.offset last.compLength
  let rangeLen ← subtract rangeEnd first.offset
  match w.getChunkBlock (w.windowGet key) key first.offset rangeLen with
  | none => .ok ([], reqs)
  | some bytes =>
      ((first :: rest).foldlM (takeEntry C (want reqs) bytes first.offset) []).map
        fun found => (found, reqs.filter fun r => !found.any fun p => p.1 = r.index)

/-- One pack of the window phase. A window of one block or none is left to the fallback. -/
def windowGroup (w : Packs C) (window : Nat) (key : Nat × PackId) (reqs : List (Request PackId Hash)) :
    Except Halt (List (Nat × D) × List (Request PackId Hash)) :=
  match w.cachedIndex key with
  | none => .ok ([], reqs)
  | some layout =>
      match inWindow layout window reqs with
      | [] => .ok ([], reqs)
      | [_] => .ok ([], reqs)
      | first :: second :: rest => w.readWindow key reqs first (second :: rest)

/-- One request of the fallback on its own. -/
def fetchAlone (w : Packs C) (key : Nat × PackId) (r : Request PackId Hash) : Except Halt (Nat × D) :=
  match w.getChunkBlock (w.blockGet key r.entry.offset r.entry.compLength) key r.entry.offset
      r.entry.compLength with
  | none => .error (.failed .contentStore)
  | some compressed => (decode C r.entry.hash compressed).map fun d => (r.index, d)

/-- One request of the fallback out of a range that covers its pack's requests. -/
def fetchSlice (C : Codec D Hash PackId) (coalesced : List UInt8) (rangeStart : Nat)
    (r : Request PackId Hash) : Except Halt (Nat × D) := do
  let localStart ← subtract r.entry.offset rangeStart
  let compressed ← cut coalesced localStart (localStart + r.entry.compLength)
  (decode C r.entry.hash compressed).map fun d => (r.index, d)

/-- One pack of `fetch_coalesced`: a single range unless more than half of it would be gaps. -/
def fetchGroup (w : Packs C) (key : Nat × PackId) (blocks : List (Request PackId Hash)) :
    Except Halt (List (Nat × D)) :=
  match blocks.insertionSort fun a b => a.entry.offset ≤ b.entry.offset with
  | [] => .error .panicked
  | first :: rest => do
      let last := rest.getLastD first
      let rangeEnd ← addU32 last.entry.offset last.entry.compLength
      let span ← subtract rangeEnd first.entry.offset
      let totalData := ((first :: rest).map fun r => r.entry.compLength).sum
      let gap ← subtract span totalData
      if rest.isEmpty || totalData < gap then (first :: rest).mapM (w.fetchAlone key)
      else
        match w.getChunkBlock (w.blockGet key first.entry.offset span) key first.entry.offset span with
        | none => .error (.failed .contentStore)
        | some coalesced => (first :: rest).mapM (fetchSlice C coalesced first.entry.offset)

def ofKey (entries : List (Request PackId Hash)) (key : Nat × PackId) : List (Request PackId Hash) :=
  entries.filter fun r => r.key = key

def fetchCoalesced (w : Packs C) (entries : List (Request PackId Hash)) :
    Except Halt (List (Nat × D)) :=
  ((w.order (entries.map Request.key)).mapM fun key => w.fetchGroup key (ofKey entries key)).map
    List.flatten

/-- The window phase over all packs. -/
def windowPhase (w : Packs C) (window : Nat) (entries : List (Request PackId Hash)) :
    Except Halt ((Nat → Option D) × List (Request PackId Hash)) :=
  (w.order (entries.map Request.key)).foldlM (fun state key =>
    (w.windowGroup window key (ofKey entries key)).map fun group =>
      (insertAll state.1 group.1, state.2 ++ group.2)) (fun _ => none, [])

def fetchWithWindow (w : Packs C) (window : Nat) (entries : List (Request PackId Hash)) :
    Except Halt (Nat → Option D) := do
  let (out, leftover) ← w.windowPhase window entries
  if leftover.isEmpty then .ok out
  else (w.fetchCoalesced leftover).map (insertAll out)

/-- Requests as the readers make them: one for each of some blocks, from the index of a pack that
    has the block. -/
structure Requested (w : Packs C) (entries : List (Request PackId Hash)) : Prop where
  indices : (entries.map Request.index).Nodup
  blocks : (entries.map fun r => (r.chunkIdx, r.entry.chunkOffset)).Nodup
  taken : ∀ r ∈ entries, r.entry ∈ (w.object r.packId).entries

/-- The map has the block of every request and nothing else. -/
def Complete (C : Codec D Hash PackId) (entries : List (Request PackId Hash)) (out : Nat → Option D) :
    Prop :=
  (∀ r ∈ entries, ∃ d, out r.index = some d ∧ C.blake3 d = r.entry.hash) ∧
    ∀ i, out i ≠ none → ∃ r ∈ entries, r.index = i

/-- The only way for a fetch to fail: a range request of the fallback did, for one of the blocks or
    from one of them to another of the same pack. -/
def Refused (w : Packs C) (entries : List (Request PackId Hash)) (halt : Halt) : Prop :=
  halt = .failed .contentStore ∧ ∃ r ∈ entries, ∃ r' ∈ entries, r'.key = r.key ∧
    w.blockGet r.key r.entry.offset (r'.entry.offset + r'.entry.compLength - r.entry.offset) = false

/-- A block found for a request. -/
def Answer (C : Codec D Hash PackId) (r : Request PackId Hash) (p : Nat × D) : Prop :=
  p.1 = r.index ∧ C.blake3 p.2 = r.entry.hash

/-- Blocks found for exactly these requests. -/
def Brings (C : Codec D Hash PackId) (blocks : List (Request PackId Hash)) (found : List (Nat × D)) : Prop :=
  (∀ r ∈ blocks, ∃ p ∈ found, Answer C r p) ∧ ∀ p ∈ found, ∃ r ∈ blocks, Answer C r p

section

variable {w : Packs C} {entries blocks : List (Request PackId Hash)} {key : Nat × PackId}

variable {found : List (Nat × D)} {e : PackIndexEntry Hash} {Stop : Halt → Prop}
  {out : Nat → Option D}

theorem brings_of_forall₂ (h : List.Forall₂ (Answer C) blocks found) : Brings C blocks found := by
  induction h with
  | nil => simp [Brings]
  | cons one _ ih =>
    constructor
    · intro r mem
      rcases List.mem_cons.mp mem with rfl | mem
      · exact ⟨_, List.mem_cons_self, one⟩
      · obtain ⟨p, mem, answer⟩ := ih.1 r mem
        exact ⟨p, List.mem_cons_of_mem _ mem, answer⟩
    · intro p mem
      rcases List.mem_cons.mp mem with rfl | mem
      · exact ⟨_, List.mem_cons_self, one⟩
      · obtain ⟨r, mem, answer⟩ := ih.2 p mem
        exact ⟨r, List.mem_cons_of_mem _ mem, answer⟩

theorem Brings.perm {blocks' : List (Request PackId Hash)} (perm : blocks.Perm blocks')
    (h : Brings C blocks found) : Brings C blocks' found := by
  constructor
  · intro r mem
    exact h.1 r (perm.mem_iff.mpr mem)
  · intro p mem
    obtain ⟨r, mem, answer⟩ := h.2 p mem
    exact ⟨r, perm.mem_iff.mp mem, answer⟩

/-- Two entries of one pack do not overlap. -/
theorem apart_entries (l : PackLayout Hash) {a b : PackIndexEntry Hash} (ha : a ∈ l.entries)
    (hb : b ∈ l.entries) (other : a ≠ b) :
    Apart PackIndexEntry.offset PackIndexEntry.compLength a b := by
  have either : l.entries.Pairwise (Apart PackIndexEntry.offset PackIndexEntry.compLength) :=
    l.laid.imp fun before => .inl before
  exact either.forall ha hb other

theorem Requested.apart (h : w.Requested entries) (key : Nat × PackId) :
    (ofKey entries key).Pairwise
      (Apart (fun r => r.entry.offset) fun r => r.entry.compLength) := by
  have distinct : entries.Pairwise fun a b =>
      (a.chunkIdx, a.entry.chunkOffset) ≠ (b.chunkIdx, b.entry.chunkOffset) :=
    List.pairwise_map.mp h.blocks
  apply (distinct.filter fun r => decide (r.key = key)).imp_of_mem
  intro a b ha hb ne
  obtain ⟨ha, ka⟩ := List.mem_filter.mp ha
  obtain ⟨hb, kb⟩ := List.mem_filter.mp hb
  have same : a.key = b.key := (of_decide_eq_true ka).trans (of_decide_eq_true kb).symm
  obtain ⟨chunk, pack⟩ := Prod.mk.inj same
  have taken := h.taken b hb
  rw [← pack] at taken
  apply apart_entries (w.object a.packId).toPackLayout (h.taken a ha) taken
  intro equal
  apply ne
  rw [chunk, equal]

/-- The bytes of an entry decode to a block with its hash. -/
theorem decode_entry (o : PackObject C) (mem : e ∈ o.entries) (data : e.compLength ≠ 0) : ∃ d,
      decode C e.hash ((o.bytes.drop e.offset).take e.compLength) = .ok d ∧ C.blake3 d = e.hash := by
  obtain ⟨d, decompressed, hash⟩ := o.holds e mem data
  exact ⟨d, by simp [decode, decompressed, hash], hash⟩

theorem fetchAlone_ends {r : Request PackId Hash} (mem : r ∈ entries)
    (taken : r.entry ∈ (w.object r.key.2).entries) (data : r.entry.compLength ≠ 0) :
    Ends (w.Refused entries) (Answer C r) (w.fetchAlone r.key r) := by
  obtain ⟨d, decoded, hash⟩ := decode_entry (w.object r.key.2) taken data
  cases arrives : w.blockGet r.key r.entry.offset r.entry.compLength with
  | false =>
    simp only [fetchAlone, getChunkBlock, arrives, Bool.false_eq_true, if_false]
    exact ⟨rfl, r, mem, r, mem, rfl, by rwa [Nat.add_sub_cancel_left]⟩
  | true =>
    simp only [fetchAlone, getChunkBlock, arrives, if_true, decoded, Except.map]
    exact ⟨rfl, hash⟩

/-- A range of a range. -/
theorem take_drop_range {β : Type} {l : List β} {a k m n : Nat} (inside : k + m ≤ n) :
    ((((l.drop a).take n).drop k).take m) = (l.drop (a + k)).take m := by
  rw [List.drop_take, List.take_take, List.drop_drop, min_eq_left (by omega)]

theorem fetchSlice_ends {r : Request PackId Hash} {o : PackObject C} (taken : r.entry ∈ o.entries)
    (data : r.entry.compLength ≠ 0) {rangeStart span : Nat}
    (from_start : rangeStart ≤ r.entry.offset)
    (to_end : r.entry.offset + r.entry.compLength ≤ rangeStart + span)
    (inside : rangeStart + span ≤ o.bytes.length) :
    Ends Stop (Answer C r)
      (fetchSlice C ((o.bytes.drop rangeStart).take span) rangeStart r) := by
  obtain ⟨d, decoded, hash⟩ := decode_entry o taken data
  have length : ((o.bytes.drop rangeStart).take span).length = span := by
    rw [List.length_take, List.length_drop]
    omega
  have bytes : (((o.bytes.drop rangeStart).take span).drop (r.entry.offset - rangeStart)).take
      (r.entry.offset - rangeStart + r.entry.compLength - (r.entry.offset - rangeStart)) =
      (o.bytes.drop r.entry.offset).take r.entry.compLength := by
    rw [Nat.add_sub_cancel_left, take_drop_range (by omega), Nat.add_sub_cancel' from_start]
  have cuts : cut ((o.bytes.drop rangeStart).take span) (r.entry.offset - rangeStart)
      (r.entry.offset - rangeStart + r.entry.compLength) =
      .ok ((o.bytes.drop r.entry.offset).take r.entry.compLength) := by
    rw [cut, if_pos ⟨by omega, by rw [length]; omega⟩, bytes]
  simp only [fetchSlice, subtract, if_pos from_start, bind, Except.bind, cuts, decoded, Except.map]
  exact ⟨rfl, hash⟩

/-- A group of the fallback brings a block for each of its requests. -/
theorem fetchGroup_ends (h : w.Requested entries) (data : ∀ r ∈ entries, r.entry.compLength ≠ 0)
    (sub : blocks.Sublist (ofKey entries key)) (some_block : blocks ≠ []) :
    Ends (w.Refused entries) (Brings C blocks) (w.fetchGroup key blocks) := by
  have listed (r : Request PackId Hash) (mem : r ∈ blocks) : r ∈ entries ∧ r.key = key := by
    simpa [ofKey] using sub.subset mem
  have taken (r : Request PackId Hash) (mem : r ∈ blocks) : r.entry ∈ (w.object key.2).entries := by
    obtain ⟨mem, rfl⟩ := listed r mem
    exact h.taken r mem
  have perm := List.perm_insertionSort (fun a b : Request PackId Hash => a.entry.offset ≤ b.entry.offset)
    blocks
  have ordered := inOrder_insertionSort ((h.apart key).sublist sub)
    fun r mem => Nat.pos_of_ne_zero (data r (listed r mem).1)
  rw [fetchGroup]
  cases sorted : blocks.insertionSort fun a b => a.entry.offset ≤ b.entry.offset with
  | nil =>
    rw [sorted] at perm
    exact absurd perm.symm.eq_nil some_block
  | cons first rest =>
    rw [sorted] at perm ordered
    have first_mem : first ∈ blocks := perm.mem_iff.mp List.mem_cons_self
    have last_mem : rest.getLastD first ∈ blocks :=
      perm.mem_iff.mp List.getLastD_mem_cons
    have sum := ordered.sum_le
    rw [lastEnd] at sum
    have fits := (w.object key.2).fits _ (taken _ last_mem)
    have inside := (w.object key.2).inside _ (taken _ last_mem)
    simp only [addU32, subtract, bind, Except.bind, if_pos fits]
    rw [if_pos (by omega)]
    dsimp only
    rw [if_pos (by omega)]
    dsimp only
    split
    · -- one block, or more gaps than data
      have alone (r : Request PackId Hash) (mem : r ∈ first :: rest) :
          Ends (w.Refused entries) (Answer C r) (w.fetchAlone key r) := by
        obtain ⟨mem, rfl⟩ := listed r (perm.mem_iff.mp mem)
        exact fetchAlone_ends mem (h.taken r mem) (data r mem)
      refine (Ends.mapM alone).mono fun found all => ?_
      exact (brings_of_forall₂ all).perm perm
    · cases arrives : w.blockGet key first.entry.offset
          ((rest.getLastD first).entry.offset + (rest.getLastD first).entry.compLength -
            first.entry.offset) with
      | false =>
        simp only [getChunkBlock, Bool.false_eq_true, if_false]
        obtain ⟨first_listed, first_key⟩ := listed _ first_mem
        obtain ⟨last_listed, last_key⟩ := listed _ last_mem
        exact ⟨rfl, first, first_listed, _, last_listed, last_key.trans first_key.symm,
          first_key ▸ arrives⟩
      | true =>
        simp only [getChunkBlock, if_true]
        apply (Ends.mapM fun r mem => fetchSlice_ends (taken r (perm.mem_iff.mp mem))
          (data r (listed r (perm.mem_iff.mp mem)).1) (ordered.start_le r mem) ?_ ?_).mono
        · intro found all
          exact (brings_of_forall₂ all).perm perm
        · have ends := ordered.end_le r mem
          rw [lastEnd] at ends
          omega
        · omega

theorem mem_order (w : Packs C) {keys : List (Nat × PackId)} : key ∈ w.order keys ↔ key ∈ keys := by
  rw [(w.order_perm keys).mem_iff, List.mem_dedup]

theorem fetchCoalesced_ends (h : w.Requested entries) (data : ∀ r ∈ entries, r.entry.compLength ≠ 0)
    (sub : ∀ key, (ofKey blocks key).Sublist (ofKey entries key)) :
    Ends (w.Refused entries) (Brings C blocks) (w.fetchCoalesced blocks) := by
  apply (Ends.mapM (R := fun key found => Brings C (ofKey blocks key) found) fun key mem =>
    fetchGroup_ends h data (sub key) ?_).map
  · intro groups all
    have each := List.forall₂_iff_get.mp all
    constructor
    · intro r mem
      have here : r.key ∈ w.order (blocks.map Request.key) :=
        (mem_order w).mpr (List.mem_map_of_mem mem)
      obtain ⟨i, small, found⟩ := List.getElem_of_mem here
      have brings := each.2 i small (each.1 ▸ small)
      obtain ⟨p, mem, answer⟩ := brings.1 r (by simp [ofKey, mem, found])
      exact ⟨p, List.mem_flatten_of_mem (List.get_mem _ _) mem, answer⟩
    · intro p mem
      obtain ⟨group, mem, inside⟩ := List.mem_flatten.mp mem
      obtain ⟨i, small, found⟩ := List.getElem_of_mem mem
      have brings := each.2 i (each.1 ▸ small) small
      obtain ⟨r, mem, answer⟩ := brings.2 p (by simpa [found] using inside)
      exact ⟨r, (List.mem_filter.mp mem).1, answer⟩
  · obtain ⟨r, mem, same⟩ := List.mem_map.mp ((mem_order w).mp mem)
    apply List.ne_nil_of_mem (a := r)
    simp [ofKey, mem, same]

/-- The entries of a window are in order; they are sorted already. -/
theorem inWindow_inOrder (layout : PackLayout Hash) (window : Nat) (reqs : List (Request PackId Hash)) :
    InOrder PackIndexEntry.offset PackIndexEntry.compLength (inWindow layout window reqs) := by
  have laid := layout.laid.filter fun e =>
    decide ((reqs.map fun r => r.entry.offset).min?.getD 0 ≤ e.offset) &&
      decide (e.offset < min ((reqs.map fun r => r.entry.offset).min?.getD 0 + window) (2 ^ 32 - 1))
  rw [inWindow, List.Pairwise.insertionSort_eq (laid.imp fun before => by omega)]
  exact laid

theorem mem_inWindow {layout : PackLayout Hash} {window : Nat} {reqs : List (Request PackId Hash)}
    (h : e ∈ inWindow layout window reqs) : e ∈ layout.entries := by
  have perm := List.perm_insertionSort (fun a b : PackIndexEntry Hash => a.offset ≤ b.offset)
    (layout.entries.filter fun e =>
      decide ((reqs.map fun r => r.entry.offset).min?.getD 0 ≤ e.offset) &&
        decide (e.offset < min ((reqs.map fun r => r.entry.offset).min?.getD 0 + window) (2 ^ 32 - 1)))
  exact (List.mem_filter.mp (perm.mem_iff.mp h)).1

theorem readEntry_hash {bytes : List UInt8} {s : Nat} {d : D} (h : readEntry C bytes s e = some d) :
    C.blake3 d = e.hash := by
  obtain ⟨-, h⟩ := Option.ite_none_left_eq_some.mp h
  simpa using (Option.filter_eq_some_iff.mp h).2

theorem want_some {reqs : List (Request PackId Hash)} {hash : Hash} {i : Nat}
    (h : want reqs hash = some i) : ∃ r ∈ reqs, r.index = i ∧ r.entry.hash = hash := by
  obtain ⟨r, found, rfl⟩ := Option.map_eq_some_iff.mp h
  refine ⟨r, List.mem_reverse.mp (List.mem_of_find?_eq_some found), rfl, ?_⟩
  simpa using List.find?_some found

/-- What a pack of the window phase brings is right, and what it does not bring is left over. -/
structure Splits (C : Codec D Hash PackId) (reqs : List (Request PackId Hash)) (found : List (Nat × D))
    (rest : List (Request PackId Hash)) : Prop where
  right : ∀ p ∈ found, ∃ r ∈ reqs, Answer C r p
  sub : rest.Sublist reqs
  all : ∀ r ∈ reqs, r ∈ rest ∨ ∃ p ∈ found, p.1 = r.index

theorem splits_nothing (reqs : List (Request PackId Hash)) : Splits C reqs [] reqs :=
  ⟨by simp, List.Sublist.refl reqs, fun _ mem => .inl mem⟩

theorem readWindow_ends (w : Packs C) (key : Nat × PackId) (reqs : List (Request PackId Hash))
    {first : PackIndexEntry Hash} {rest : List (PackIndexEntry Hash)}
    (ordered : InOrder PackIndexEntry.offset PackIndexEntry.compLength (first :: rest))
    (fits : ∀ e ∈ first :: rest, e.offset + e.compLength < 2 ^ 32) :
    Ends Stop (fun group => Splits C reqs group.1 group.2) (w.readWindow key reqs first rest) := by
  have last_mem := List.getLastD_mem_cons (l := rest) (a := first)
  have after := ordered.start_le _ last_mem
  simp only [readWindow, addU32, subtract, bind, Except.bind, if_pos (fits _ last_mem)]
  rw [if_pos (by omega)]
  dsimp only
  cases w.getChunkBlock (w.windowGet key) key first.offset _ with
  | none => exact splits_nothing reqs
  | some bytes =>
    dsimp only
    apply (Ends.foldlM (I := fun _ found => ∀ p ∈ found, ∃ r ∈ reqs, Answer C r p)
      (by simp) ?_).map
    · intro found right
      refine ⟨right, List.filter_sublist, ?_⟩
      intro r mem
      cases got : found.any fun p => p.1 = r.index with
      | true =>
        obtain ⟨p, mem', same⟩ := List.any_eq_true.mp got
        exact .inr ⟨p, mem', by simpa using same⟩
      | false => exact .inl (List.mem_filter.mpr ⟨mem, by rw [got]; rfl⟩)
    · intro done e todo found split right
      have le := ordered.start_le e (by rw [split]; simp)
      simp only [takeEntry, subtract, if_pos le, Except.map]
      split
      · rename_i d i read wanted
        obtain ⟨r, mem, index, hash⟩ := want_some wanted
        intro p inside
        rcases List.mem_append.mp inside with inside | inside
        · exact right p inside
        · rw [List.mem_singleton.mp inside]
          exact ⟨r, mem, index.symm, (readEntry_hash read).trans hash.symm⟩
      · exact right

theorem windowGroup_ends (w : Packs C) (window : Nat) (key : Nat × PackId)
    (reqs : List (Request PackId Hash)) :
    Ends Stop (fun group => Splits C reqs group.1 group.2) (w.windowGroup window key reqs) := by
  rw [windowGroup]
  split
  · exact splits_nothing reqs
  · rename_i layout _
    have ordered := inWindow_inOrder layout window reqs
    have listed (e : PackIndexEntry Hash) : e ∈ inWindow layout window reqs → e ∈ layout.entries :=
      mem_inWindow
    split
    · exact splits_nothing reqs
    · exact splits_nothing reqs
    · rename_i first second rest window_eq
      rw [window_eq] at ordered listed
      exact readWindow_ends w key reqs ordered fun e mem => layout.fits e (listed e mem)

theorem insertAll_append (out : Nat → Option D) (a b : List (Nat × D)) :
    insertAll out (a ++ b) = insertAll (insertAll out a) b := by
  simp [insertAll]

theorem insertAll_eq_some {i : Nat} {d : D} (h : insertAll out found i = some d) :
    (i, d) ∈ found ∨ out i = some d := by
  induction found using List.reverseRecOn with
  | nil => exact .inr h
  | append_singleton found p ih =>
    rw [insertAll_append] at h
    by_cases here : i = p.1
    · subst here
      simp only [insertAll, List.foldl_cons, List.foldl_nil, Function.update_self,
        Option.some.injEq] at h
      subst h
      exact .inl (by simp)
    · have before : insertAll out found i = some d := by
        simpa [insertAll, Function.update_of_ne here] using h
      rcases ih before with mem | old
      · exact .inl (List.mem_append_left _ mem)
      · exact .inr old

theorem insertAll_ne_none {i : Nat} (h : (∃ p ∈ found, p.1 = i) ∨ out i ≠ none) :
    insertAll out found i ≠ none := by
  induction found using List.reverseRecOn with
  | nil =>
    rcases h with ⟨p, mem, -⟩ | old
    · cases mem
    · exact old
  | append_singleton found p ih =>
    rw [insertAll_append]
    by_cases here : i = p.1
    · subst here
      simp [insertAll]
    · have before : insertAll out found i ≠ none := by
        apply ih
        rcases h with ⟨q, mem, rfl⟩ | old
        · rcases List.mem_append.mp mem with mem | mem
          · exact .inl ⟨q, mem, rfl⟩
          · exact absurd (congrArg Prod.fst (List.mem_singleton.mp mem)) here
        · exact .inr old
      simpa [insertAll, Function.update_of_ne here] using before

/-- The window phase after the packs `done`: what it found is right, the requests of those packs
    are found or left over, and nothing else is left over. -/
structure Windowed (C : Codec D Hash PackId) (entries : List (Request PackId Hash))
    (done : List (Nat × PackId)) (out : Nat → Option D) (leftover : List (Request PackId Hash)) : Prop where
  right : ∀ i d, out i = some d → ∃ r ∈ entries, Answer C r (i, d)
  covered : ∀ r ∈ entries, r.key ∈ done → out r.index ≠ none ∨ r ∈ leftover
  sub : ∀ key, (ofKey leftover key).Sublist (ofKey entries key)
  later : ∀ key, key ∉ done → ofKey leftover key = []

theorem Windowed.next {done : List (Nat × PackId)} {leftover rest : List (Request PackId Hash)}
    (h : Windowed C entries done out leftover) (fresh : key ∉ done)
    (group : Splits C (ofKey entries key) found rest) :
    Windowed C entries (done ++ [key]) (insertAll out found) (leftover ++ rest) := by
  have rest_key (r : Request PackId Hash) (mem : r ∈ rest) : r.key = key := by
    simpa using (List.mem_filter.mp (group.sub.subset mem)).2
  have of_rest (k : Nat × PackId) : ofKey rest k = if k = key then rest else [] := by
    split
    · rename_i same
      apply List.filter_eq_self.mpr
      intro r mem
      simp [rest_key r mem, same]
    · rename_i other
      apply List.filter_eq_nil_iff.mpr
      intro r mem
      simpa [rest_key r mem] using fun same => other same.symm
  have of_append (k : Nat × PackId) :
      ofKey (leftover ++ rest) k = ofKey leftover k ++ if k = key then rest else [] := by
    rw [← of_rest]
    simp [ofKey]
  constructor
  · intro i d got
    rcases insertAll_eq_some got with mem | old
    · obtain ⟨r, mem, answer⟩ := group.right _ mem
      exact ⟨r, (List.mem_filter.mp mem).1, answer⟩
    · exact h.right i d old
  · intro r mem listed
    rcases List.mem_append.mp listed with before | here
    · rcases h.covered r mem before with old | left
      · exact .inl (insertAll_ne_none (.inr old))
      · exact .inr (List.mem_append_left _ left)
    · have here : r.key = key := List.mem_singleton.mp here
      rcases group.all r (by simp [ofKey, mem, here]) with left | got
      · exact .inr (List.mem_append_right _ left)
      · exact .inl (insertAll_ne_none (.inl got))
  · intro k
    rw [of_append]
    split
    · rename_i same
      rw [same, h.later key fresh]
      exact group.sub
    · rw [List.append_nil]
      exact h.sub k
  · intro k later
    have not_here : k ≠ key := fun same => later (by simp [same])
    rw [of_append, if_neg not_here, h.later k fun mem => later (List.mem_append_left _ mem)]
    rfl

theorem windowPhase_ends (w : Packs C) (window : Nat) (entries : List (Request PackId Hash)) :
    Ends Stop (fun state => Windowed C entries (w.order (entries.map Request.key)) state.1 state.2)
      (w.windowPhase window entries) := by
  have distinct : (w.order (entries.map Request.key)).Nodup :=
    (w.order_perm _).nodup_iff.mpr (List.nodup_dedup _)
  rw [windowPhase]
  refine Ends.foldlM (I := fun done (state : (Nat → Option D) × List (Request PackId Hash)) =>
    Windowed C entries done state.1 state.2) ?_ ?_
  · constructor
    · intro i d got
      cases got
    · intro r _ listed
      cases listed
    · exact fun key => List.nil_sublist _
    · exact fun key _ => rfl
  · intro done key todo state split before
    apply (windowGroup_ends w window key (ofKey entries key)).map
    intro group splits
    apply before.next ?_ splits
    rw [split] at distinct
    intro again
    exact List.disjoint_of_nodup_append distinct again List.mem_cons_self

theorem fetchWithWindow_ends (window : Nat) (requested : w.Requested entries)
    (data : ∀ r ∈ entries, r.entry.compLength ≠ 0) :
    Ends (w.Refused entries) (Complete C entries) (w.fetchWithWindow window entries) := by
  have unique {r r' : Request PackId Hash} (mem : r ∈ entries) (mem' : r' ∈ entries)
      (same : r.index = r'.index) : r = r' := List.inj_on_of_nodup_map requested.indices mem mem' same
  have done {out : Nat → Option D} (right : ∀ i d, out i = some d → ∃ r ∈ entries, Answer C r (i, d))
      (all : ∀ r ∈ entries, out r.index ≠ none) : Complete C entries out := by
    constructor
    · intro r mem
      obtain ⟨d, got⟩ := Option.ne_none_iff_exists'.mp (all r mem)
      obtain ⟨r', mem', index, hash⟩ := right r.index d got
      rw [unique mem mem' index]
      exact ⟨d, by rwa [← index], hash⟩
    · intro i some_block
      obtain ⟨d, got⟩ := Option.ne_none_iff_exists'.mp some_block
      obtain ⟨r, mem, index, -⟩ := right i d got
      exact ⟨r, mem, index.symm⟩
  rw [fetchWithWindow]
  apply (windowPhase_ends w window entries).bind
  rintro ⟨out, leftover⟩ windowed
  have listed (r : Request PackId Hash) (mem : r ∈ entries) :
      out r.index ≠ none ∨ r ∈ leftover :=
    windowed.covered r mem ((mem_order w).mpr (List.mem_map_of_mem mem))
  dsimp only
  split
  · rename_i nothing_left
    rw [List.isEmpty_iff] at nothing_left
    apply done windowed.right
    intro r mem
    simpa [nothing_left] using listed r mem
  · apply (fetchCoalesced_ends requested data windowed.sub).map
    intro found brings
    apply done
    · intro i d got
      rcases insertAll_eq_some got with mem | old
      · obtain ⟨r, mem, answer⟩ := brings.2 _ mem
        have here : r ∈ ofKey entries r.key := (windowed.sub r.key).subset (by simp [ofKey, mem])
        exact ⟨r, (List.mem_filter.mp here).1, answer⟩
      · exact windowed.right i d old
    · intro r mem
      apply insertAll_ne_none
      rcases listed r mem with got | left
      · exact .inr got
      · obtain ⟨p, mem, index, -⟩ := brings.1 r left
        exact .inl ⟨p, mem, index⟩

end

end Packs

section

/-- A pack of one-byte blocks: ones, a tombstone, twos. -/
def threeEntries : List (PackIndexEntry (BlockData 1)) :=
  [⟨.fill 1 1, 0, 16, 2⟩, ⟨0, 1, 18, 0⟩, ⟨.fill 1 2, 2, 18, 2⟩]

def threeBytes : List UInt8 := List.replicate 16 0 ++ [0, 1, 0, 2]

private theorem threeEntries_sorted : threeEntries.Pairwise fun a b => a.chunkOffset < b.chunkOffset := by
  decide

private theorem threeEntries_laid :
    threeEntries.Pairwise fun a b => a.offset + a.compLength ≤ b.offset := by
  decide

private theorem threeEntries_fit : ∀ e ∈ threeEntries, e.offset + e.compLength < 2 ^ 32 := by
  decide

private theorem threeEntries_inside : ∀ e ∈ threeEntries, e.offset + e.compLength ≤ threeBytes.length := by
  decide

private theorem threeEntries_hold : ∀ e ∈ threeEntries, e.compLength ≠ 0 →
    ∃ d, (Codec.plain 1).decompressBlock ((threeBytes.drop e.offset).take e.compLength) = some d ∧
      (Codec.plain 1).blake3 d = e.hash := by
  intro e mem data
  simp only [threeEntries, List.mem_cons, List.not_mem_nil, or_false] at mem
  rcases mem with rfl | rfl | rfl
  · exact ⟨.fill 1 1, rfl, rfl⟩
  · exact absurd rfl data
  · exact ⟨.fill 1 2, rfl, rfl⟩

/-- The pack as an object. -/
def threeObject : PackObject (Codec.plain 1) where
  entries := threeEntries
  sorted := threeEntries_sorted
  laid := threeEntries_laid
  fits := threeEntries_fit
  bytes := threeBytes
  inside := threeEntries_inside
  holds := threeEntries_hold

/-- The pack alone, with no index in the cache and no failing request. -/
def threePacks : Packs (Codec.plain 1) where
  object _ := threeObject
  cachedIndex _ := none
  windowGet _ := true
  blockGet _ _ _ := true
  order keys := keys.dedup
  order_perm _ := List.Perm.refl _

end

end GlideFS.WriteCache.ColdFetch
