import GlideFS.Lib.Assemble
import GlideFS.WriteCache.ColdFetch
import GlideFS.WriteCache.Locate

/-! # Reads over all sources

`WriteCache::read` answers from the active file alone if every block of the range is
dirty and no flush is on. Otherwise it locates each block, fetches those that are in
packs and cuts the range out of what it got. `BlockHandler::read` and `read_into` cut
the request at the end of the device and fill the rest with zeros.
-/

namespace GlideFS.WriteCache.ReadAssembly

open Block Lib Locate ColdFetch

inductive ReadError where
  | outOfBounds
  | degraded
  | halted (halt : Halt)
  | missingBlock
  | panicked

/-- A read meets the states of the blocks, the two data files, what `locate_block` finds for a
    block without local data, and the packs. -/
structure Reader {Hash PackId : Type} [DecidableEq Hash] [DecidableEq PackId] (g : Geometry)
    (C : Codec (BlockData g.blockSize) Hash PackId) where
  state : Nat → SparseBlockState
  flushingActive : Bool
  active : Nat → UInt8
  flushing : Option (Nat → UInt8)
  cold : Nat → BlockLocation PackId Hash
  packs : Packs C
  window : Nat
  degraded : Bool

namespace Reader

variable {Hash PackId : Type} [DecidableEq Hash] [DecidableEq PackId] {g : Geometry}
  {C : Codec (BlockData g.blockSize) Hash PackId}

/-- A block of a data file, which is as long as the device; the rest of the last block is zero. -/
def fromFile (g : Geometry) (file : Nat → UInt8) (b : Nat) : List UInt8 :=
  (List.range g.blockSize).map fun i =>
    if b * g.blockSize + i < g.size then file (b * g.blockSize + i) else 0

def zeroBlock (g : Geometry) : List UInt8 := List.replicate g.blockSize 0

def blockBytes (d : BlockData g.blockSize) : List UInt8 := (List.range g.blockSize).map d.get

def syncReadLocalBlock (v : Reader g C) (b : Nat) : Option (List UInt8) :=
  if g.size ≤ b * g.blockSize then some (zeroBlock g)
  else
    match v.state b, v.flushing with
    | .notPresent, _ => none
    | .syncing, some file => some (fromFile g file b)
    | _, _ => some (fromFile g v.active b)

/-- `locate_block`. -/
def locate (v : Reader g C) (b : Nat) : BlockLocation PackId Hash :=
  match if v.state b = .dirty ∨ v.state b = .syncing then v.syncReadLocalBlock b else none with
  | some data => .onDisk data
  | none => v.cold b

/-- The bytes of a location that needs no fetch. -/
def located (g : Geometry) : BlockLocation PackId Hash → Option (List UInt8)
  | .onDisk data => some data
  | .cached data => some data
  | .zero => some (zeroBlock g)
  | .needsFetch _ _ => none

/-- The requests for the blocks of a range that are in packs, numbered from its first block. -/
def requests (v : Reader g C) (first count : Nat) : List (Request PackId Hash) :=
  (List.range count).filterMap fun i =>
    match v.locate (first + i) with
    | .needsFetch id e => some ⟨i, id, g.chunkIdxForBlock (first + i), e⟩
    | _ => none

def fetch (v : Reader g C) (entries : List (Request PackId Hash)) :
    Except ReadError (Nat → Option (BlockData g.blockSize)) :=
  if entries.isEmpty then .ok fun _ => none
  else (v.packs.fetchWithWindow v.window entries).mapError .halted

/-- `resolved_blocks[i]`: what was fetched, or else what was located. -/
def slot (v : Reader g C) (fetched : Nat → Option (BlockData g.blockSize)) (first i : Nat) :
    Except ReadError (List UInt8) :=
  match (fetched i).map blockBytes <|> located g (v.locate (first + i)) with
  | some data => .ok data
  | none => .error .missingBlock

/-- The blocks of a range. `resolve_block` is the case of one block. -/
def resolveBlocks (v : Reader g C) (first count : Nat) : Except ReadError (List (List UInt8)) := do
  let fetched ← v.fetch (v.requests first count)
  (List.range count).mapM (v.slot fetched first)

/-- A slice is out of range where there is none. -/
def sliced {α : Type} : Option α → Except ReadError α
  | some a => .ok a
  | none => .error .panicked

def allDirty (v : Reader g C) (offset len : Nat) : Bool :=
  let first := offset / g.blockSize
  let last := (offset + len - 1) / g.blockSize
  !v.flushingActive && (List.range' first (last - first + 1)).all fun b => v.state b = .dirty

def read (v : Reader g C) (offset len : Nat) : Except ReadError (List UInt8) :=
  let first := offset / g.blockSize
  let last := (offset + len - 1) / g.blockSize
  let count := last - first + 1
  if g.size < offset + len then .error .outOfBounds
  else if len = 0 then .ok []
  else if v.allDirty offset len then .ok ((List.range' offset len).map v.active)
  else if count = 1 then do
    let blocks ← v.resolveBlocks first 1
    let data := blocks.headD []
    let start := offset - first * g.blockSize
    sliced (slice data start (min (start + len) data.length))
  else do
    let blocks ← v.resolveBlocks first count
    sliced ((((List.range' first count).zip blocks).mapM fun p =>
      blockPart g.blockSize offset len p.1 p.2).map List.flatten)

/-- `BlockHandler::read`. -/
def handlerRead (v : Reader g C) (offset length : Nat) : Except ReadError (List UInt8) :=
  if v.degraded then .error .degraded
  else if g.size ≤ offset then .ok (List.replicate length 0)
  else if length = 0 then .ok []
  else
    let clamped := min length (g.size - offset)
    (v.read offset clamped).map fun data =>
      if clamped < length then data.take length ++ List.replicate (length - data.length) 0 else data

/-- `buf[lo..].copy_from_slice(bytes)`. -/
def copyFrom (buf : List UInt8) (lo : Nat) (bytes : List UInt8) : Except ReadError (List UInt8) :=
  if lo + bytes.length ≤ buf.length then
    .ok (buf.take lo ++ bytes ++ buf.drop (lo + bytes.length))
  else .error .panicked

/-- `BlockHandler::read_into`, with the buffer it leaves; `try_pread_local` fills it from the
    active file. -/
def readInto (v : Reader g C) (offset length : Nat) (buf : List UInt8) :
    Except ReadError (Nat × List UInt8) :=
  let clamped := min length (g.size - offset)
  let pad (filled : Nat) (buf : List UInt8) : Except ReadError (Nat × List UInt8) :=
    if clamped < length then
      (copyFrom buf filled (List.replicate (length - filled) 0)).map fun buf => (length, buf)
    else .ok (length, buf)
  if g.size ≤ offset then (copyFrom buf 0 (List.replicate length 0)).map fun buf => (length, buf)
  else if length = 0 then .ok (0, buf)
  else if v.allDirty offset clamped then do
    let buf ← copyFrom buf 0 ((List.range' offset clamped).map v.active)
    pad clamped buf
  else do
    let data ← v.read offset clamped
    let n := min data.length buf.length
    let buf ← copyFrom buf 0 (data.take n)
    pad n buf

/-- The block `b` has the bytes `data` at its source: a dirty block in the active file, a syncing
    one in the file that is flushed, any other one in the clean cache, in a pack that holds it, or
    nowhere. -/
def Source (v : Reader g C) (b : Nat) (data : List UInt8) : Prop :=
  match v.state b with
  | .dirty => data = fromFile g v.active b
  | .syncing => ∃ file, v.flushing = some file ∧ data = fromFile g file b
  | .clean | .notPresent =>
      match v.cold b with
      | .onDisk _ => False
      | .cached kept => data = kept ∧ kept.length = g.blockSize
      | .zero => data = zeroBlock g
      | .needsFetch id e => e ∈ (v.packs.object id).entries ∧ e.compLength ≠ 0 ∧
          e.chunkOffset = g.blockOffsetInChunk b ∧ ∃ d, C.blake3 d = e.hash ∧ data = blockBytes d

/-- The bytes of the device, from the contents of its blocks. -/
def content (g : Geometry) (line : Nat → List UInt8) (p : Nat) : UInt8 :=
  (line (p / g.blockSize)).getD (p % g.blockSize) 0

/-- A range request for blocks out of these fails. -/
def Unfetched (v : Reader g C) (first count : Nat) (e : ReadError) : Prop :=
  ∃ halt, e = .halted halt ∧ v.packs.Refused (v.requests first count) halt

/-- The only way for a read to fail: a range request for blocks of its range does. -/
def Fails (v : Reader g C) (offset len : Nat) (e : ReadError) : Prop :=
  v.Unfetched (offset / g.blockSize)
    ((offset + len - 1) / g.blockSize - offset / g.blockSize + 1) e

section

variable {v : Reader g C} {b first count offset len length : Nat} {line : Nat → List UInt8}

theorem source_length {data : List UInt8} (h : v.Source b data) : data.length = g.blockSize := by
  unfold Source at h
  split at h
  · simp [h, fromFile]
  · obtain ⟨file, -, rfl⟩ := h
    simp [fromFile]
  all_goals
    split at h
    · exact h.elim
    · rw [h.1, h.2]
    · simp [h, zeroBlock]
    · obtain ⟨-, -, -, d, -, rfl⟩ := h
      simp [blockBytes]

/-- Where `locate_block` finds a block that has a source. -/
theorem locate_source (inside : g.InRange b) {data : List UInt8} (h : v.Source b data) :
    located g (v.locate b) = some data ∨
      ∃ id e, v.locate b = .needsFetch id e ∧ e ∈ (v.packs.object id).entries ∧ e.compLength ≠ 0 ∧
        e.chunkOffset = g.blockOffsetInChunk b ∧ ∃ d, C.blake3 d = e.hash ∧ data = blockBytes d := by
  have below : ¬g.size ≤ b * g.blockSize := by
    have : b * g.blockSize < g.size := inside
    omega
  unfold Source at h
  cases state : v.state b with
  | dirty =>
    rw [state] at h
    simp [locate, syncReadLocalBlock, state, below, located, h]
  | syncing =>
    rw [state] at h
    obtain ⟨file, flushing, rfl⟩ := h
    simp [locate, syncReadLocalBlock, state, below, located, flushing]
  | clean | notPresent =>
    rw [state] at h
    have cold : v.locate b = v.cold b := by simp [locate, state]
    rw [cold]
    cases at_cold : v.cold b with
    | onDisk kept => rw [at_cold] at h; exact h.elim
    | cached kept =>
      rw [at_cold] at h
      exact .inl (by rw [h.1]; rfl)
    | zero =>
      rw [at_cold] at h
      exact .inl (by rw [h]; rfl)
    | needsFetch id e =>
      rw [at_cold] at h
      exact .inr ⟨id, e, rfl, h⟩

theorem mem_requests {r : Request PackId Hash} : r ∈ v.requests first count ↔
    ∃ i < count, v.locate (first + i) = .needsFetch r.packId r.entry ∧ r.index = i ∧
      r.chunkIdx = g.chunkIdxForBlock (first + i) := by
  simp only [requests, List.mem_filterMap, List.mem_range]
  constructor
  · rintro ⟨i, small, found⟩
    split at found
    · rename_i id e at_pack
      cases found
      exact ⟨i, small, at_pack, rfl, rfl⟩
    · cases found
  · rintro ⟨i, small, at_pack, index, chunk⟩
    refine ⟨i, small, ?_⟩
    rw [at_pack, ← chunk, ← index]

/-- The requests of a read are such as a fetch expects. -/
theorem requests_requested (sourced : ∀ b, g.InRange b → v.Source b (line b))
    (inside : ∀ i < count, g.InRange (first + i)) :
    v.packs.Requested (v.requests first count) ∧
      ∀ r ∈ v.requests first count, r.entry.compLength ≠ 0 := by
  have known (r : Request PackId Hash) (mem : r ∈ v.requests first count) :
      r.entry ∈ (v.packs.object r.packId).entries ∧ r.entry.compLength ≠ 0 ∧
        g.InRange (first + r.index) ∧ r.chunkIdx = g.chunkIdxForBlock (first + r.index) ∧
        r.entry.chunkOffset = g.blockOffsetInChunk (first + r.index) := by
    obtain ⟨i, small, at_pack, rfl, chunk⟩ := mem_requests.mp mem
    rcases locate_source (inside _ small) (sourced _ (inside _ small)) with kept | fetched
    · rw [at_pack] at kept
      cases kept
    · obtain ⟨id, e, same, taken, data, offset, -⟩ := fetched
      rw [at_pack] at same
      cases same
      exact ⟨taken, data, inside _ small, chunk, offset⟩
  have indices : ((v.requests first count).map Request.index).Nodup := by
    rw [requests, List.map_filterMap]
    apply List.nodup_range.filterMap
    intro i j k here there
    have index (i : Nat) (h : k ∈ Option.map Request.index
        (match v.locate (first + i) with
        | .needsFetch id e => some (⟨i, id, g.chunkIdxForBlock (first + i), e⟩ : Request PackId Hash)
        | _ => none)) : i = k := by
      split at h
      · simpa using h
      · cases h
    rw [index i here, index j there]
  refine ⟨⟨indices, ?_, fun r mem => (known r mem).1⟩, fun r mem => (known r mem).2.1⟩
  apply List.Nodup.map_on ?_ indices.of_map
  intro r mem r' mem' same
  obtain ⟨-, -, there, chunk, offset⟩ := known r mem
  obtain ⟨-, -, there', chunk', offset'⟩ := known r' mem'
  obtain ⟨same_chunk, same_offset⟩ := Prod.mk.inj same
  have block := g.block_eq_of_chunk there.addressable there'.addressable
    (chunk.symm.trans (same_chunk.trans chunk')) (offset.symm.trans (same_offset.trans offset'))
  exact List.inj_on_of_nodup_map indices mem mem' (by omega)

theorem fetch_ends (sourced : ∀ b, g.InRange b → v.Source b (line b))
    (inside : ∀ i < count, g.InRange (first + i)) :
    Ends (v.Unfetched first count) (Packs.Complete C (v.requests first count))
      (v.fetch (v.requests first count)) := by
  rw [fetch]
  split
  · rename_i nothing
    rw [List.isEmpty_iff] at nothing
    rw [nothing]
    constructor
    · intro r mem
      cases mem
    · intro i got
      exact absurd rfl got
  · obtain ⟨requested, data⟩ := requests_requested sourced inside
    have ends := Packs.fetchWithWindow_ends v.window requested data
    cases fetched : v.packs.fetchWithWindow v.window (v.requests first count) with
    | ok out => rwa [fetched] at ends
    | error halt =>
      rw [fetched] at ends
      exact ⟨halt, rfl, ends⟩

theorem slot_of_complete (sourced : v.Source (first + b) (line (first + b)))
    (inside : g.InRange (first + b)) (small : b < count)
    {fetched : Nat → Option (BlockData g.blockSize)}
    (complete : Packs.Complete C (v.requests first count) fetched) :
    v.slot fetched first b = .ok (line (first + b)) := by
  rcases locate_source inside sourced with kept | ⟨id, e, at_pack, -, -, -, d, hash, bytes⟩
  · have unfetched : fetched b = none := by
      by_contra got
      obtain ⟨r, mem, index⟩ := complete.2 b got
      obtain ⟨i, -, at_pack, index', -⟩ := mem_requests.mp mem
      rw [← index', index] at at_pack
      rw [at_pack] at kept
      cases kept
    simp [slot, unfetched, kept]
  · have mem : ⟨b, id, g.chunkIdxForBlock (first + b), e⟩ ∈ v.requests first count :=
      mem_requests.mpr ⟨b, small, at_pack, rfl, rfl⟩
    obtain ⟨d', got, hash'⟩ := complete.1 _ mem
    have same : d' = d := C.blake3_injective (hash'.trans hash.symm)
    simp [slot, show fetched b = some d from same ▸ got, bytes]

/-- The blocks that a read resolves are the ones at their sources. -/
theorem resolveBlocks_ends (sourced : ∀ b, g.InRange b → v.Source b (line b))
    (inside : ∀ i < count, g.InRange (first + i)) :
    Ends (v.Unfetched first count) (fun blocks => blocks = (List.range' first count).map line)
      (v.resolveBlocks first count) := by
  apply (fetch_ends sourced inside).bind
  intro fetched complete
  have each (i : Nat) (mem : i ∈ List.range count) :
      v.slot fetched first i = .ok (line (first + i)) := by
    have small := List.mem_range.mp mem
    exact slot_of_complete (sourced _ (inside i small)) (inside i small) small complete
  have all : (List.range count).mapM (v.slot fetched first) =
      .ok ((List.range count).map fun i => line (first + i)) := by
    generalize List.range count = l at each
    induction l with
    | nil => rfl
    | cons i l ih =>
      rw [List.mapM_cons, each i List.mem_cons_self,
        ih fun j mem => each j (List.mem_cons_of_mem i mem)]
      rfl
  rw [all]
  show _ = _
  rw [List.range'_eq_map_range, List.map_map]
  rfl

/-- A block at its source serves the bytes of the device. -/
theorem serves_content (sourced : v.Source b (line b)) :
    Serves g.blockSize g.size line (content g line) b where
  value i small _ := by
    have long := source_length sourced
    have block : (b * g.blockSize + i) / g.blockSize = b := by
      rw [Nat.mul_comm, Nat.mul_add_div g.blockSize_pos, Nat.div_eq_of_lt small, Nat.add_zero]
    have place : (b * g.blockSize + i) % g.blockSize = i := by
      rw [Nat.mul_comm, Nat.mul_add_mod, Nat.mod_eq_of_lt small]
    rw [content, block, place, List.getD_eq_getElem?_getD, List.getElem?_eq_getElem (by omega)]
    rfl
  full _ := source_length sourced

/-- Dirty blocks have the bytes of the active file. -/
theorem content_dirty (sourced : ∀ b, g.InRange b → v.Source b (line b)) {p : Nat} (inside : p < g.size)
    (dirty : v.state (p / g.blockSize) = .dirty) : content g line p = v.active p := by
  have split : p / g.blockSize * g.blockSize + p % g.blockSize = p := Nat.div_add_mod' p g.blockSize
  have here : g.InRange (p / g.blockSize) := by
    show p / g.blockSize * g.blockSize < g.size
    omega
  have source := sourced _ here
  rw [Source, dirty] at source
  rw [content, source, fromFile, List.getD_eq_getElem?_getD,
    List.getElem?_map, List.getElem?_range (Nat.mod_lt p g.blockSize_pos), Option.map_some,
    Option.getD_some, split, if_pos inside]

theorem allDirty_active (sourced : ∀ b, g.InRange b → v.Source b (line b))
    (inside : offset + len ≤ g.size) (dirty : v.allDirty offset len = true) :
    (List.range' offset len).map v.active = (List.range' offset len).map (content g line) := by
  simp only [allDirty, Bool.and_eq_true, List.all_eq_true, decide_eq_true_eq] at dirty
  apply List.map_congr_left
  intro p mem
  obtain ⟨from_offset, to_end⟩ := List.mem_range'_1.mp mem
  have low : offset / g.blockSize ≤ p / g.blockSize := Nat.div_le_div_right from_offset
  have high : p / g.blockSize ≤ (offset + len - 1) / g.blockSize := Nat.div_le_div_right (by omega)
  refine (content_dirty sourced (by omega) (dirty.2 _ ?_)).symm
  rw [List.mem_range'_1]
  omega

/-- A read inside the device returns its bytes. -/
theorem read_ends (sourced : ∀ b, g.InRange b → v.Source b (line b)) (inside : offset + len ≤ g.size) :
    Ends (v.Fails offset len) (fun data => data = (List.range' offset len).map (content g line))
      (v.read offset len) := by
  rw [read]
  dsimp only
  rw [if_neg (by omega)]
  split
  · rename_i empty
    subst empty
    rfl
  rename_i some_len
  have some_len : 0 < len := Nat.pos_of_ne_zero some_len
  split
  · rename_i dirty
    exact allDirty_active sourced inside dirty
  have order : offset / g.blockSize ≤ (offset + len - 1) / g.blockSize :=
    Nat.div_le_div_right (by omega)
  have reached : ∀ i < (offset + len - 1) / g.blockSize - offset / g.blockSize + 1,
      g.InRange (offset / g.blockSize + i) := by
    intro i small
    have last : (offset + len - 1) / g.blockSize * g.blockSize ≤ offset + len - 1 :=
      Nat.div_mul_le_self _ _
    have le : (offset / g.blockSize + i) * g.blockSize ≤
        (offset + len - 1) / g.blockSize * g.blockSize := Nat.mul_le_mul_right _ (by omega)
    show (offset / g.blockSize + i) * g.blockSize < g.size
    omega
  have assembled : assemble g.blockSize line offset len =
      some ((List.range' offset len).map (content g line)) :=
    assemble_of_serves g.blockSize_pos (fun b here => serves_content (sourced b here)) some_len inside
  split
  · rename_i one
    unfold Fails
    rw [one] at reached ⊢
    apply (resolveBlocks_ends sourced reached).bind
    rintro blocks rfl
    rw [assemble_single line (by omega)] at assembled
    simp only [List.range'_one, List.map_cons, List.map_nil, List.headD_cons, assembled]
    rfl
  · apply (resolveBlocks_ends sourced reached).bind
    rintro blocks rfl
    have numbered (l : List Nat) : l.zip (l.map line) = l.map fun b => (b, line b) := by
      simpa using List.zip_map' (f := id) (g := line) (l := l)
    rw [numbered, List.mapM_map]
    rw [assemble] at assembled
    rw [show ((fun p : Nat × List UInt8 => blockPart g.blockSize offset len p.1 p.2) ∘
      fun b => (b, line b)) = fun b => blockPart g.blockSize offset len b (line b) from rfl, assembled]
    rfl

/-- The bytes of the device with zeros after its end. -/
def whole (g : Geometry) (line : Nat → List UInt8) (p : Nat) : UInt8 :=
  if p < g.size then content g line p else 0

theorem whole_beyond (beyond : ∀ p, offset ≤ p → p < offset + length → g.size ≤ p) :
    (List.range' offset length).map (whole g line) = List.replicate length 0 := by
  apply List.eq_replicate_iff.mpr
  constructor
  · simp
  · intro x mem
    obtain ⟨p, listed, rfl⟩ := List.mem_map.mp mem
    obtain ⟨from_offset, to_end⟩ := List.mem_range'_1.mp listed
    have := beyond p from_offset to_end
    rw [whole, if_neg (by omega)]

/-- A range that begins inside the device: its part inside, then zeros. -/
theorem whole_range (begins : offset < g.size) :
    (List.range' offset length).map (whole g line) =
      (List.range' offset (min length (g.size - offset))).map (content g line) ++
        List.replicate (length - min length (g.size - offset)) 0 := by
  have cut : length = min length (g.size - offset) + (length - min length (g.size - offset)) := by omega
  conv_lhs => rw [cut, ← List.range'_append_1, List.map_append]
  congr 1
  · apply List.map_congr_left
    intro p mem
    have := (List.mem_range'_1.mp mem).2
    rw [whole, if_pos (by omega)]
  · exact whole_beyond fun p from_offset to_end => by omega

theorem handlerRead_ends (sourced : ∀ b, g.InRange b → v.Source b (line b)) (fit : v.degraded = false)
    (offset length : Nat) :
    Ends (v.Fails offset (min length (g.size - offset)))
      (fun data => data = (List.range' offset length).map (whole g line))
      (v.handlerRead offset length) := by
  rw [handlerRead, fit]
  simp only [Bool.false_eq_true, if_false]
  split
  · rename_i beyond
    exact (whole_beyond fun p from_offset _ => by omega).symm
  rename_i begins
  split
  · rename_i empty
    subst empty
    rfl
  apply (read_ends sourced (by omega)).map
  rintro data rfl
  rw [whole_range (by omega)]
  split
  · rename_i shorter
    rw [List.take_of_length_le (by simp), List.length_map, List.length_range']
  · rename_i all
    rw [show length - min length (g.size - offset) = 0 by omega]
    simp

theorem copyFrom_ok {buf bytes : List UInt8} {lo : Nat} (fits : lo + bytes.length ≤ buf.length) :
    copyFrom buf lo bytes = .ok (buf.take lo ++ bytes ++ buf.drop (lo + bytes.length)) :=
  if_pos fits

theorem readInto_ends (sourced : ∀ b, g.InRange b → v.Source b (line b)) (offset length : Nat)
    {buf : List UInt8} (large : length ≤ buf.length) :
    Ends (v.Fails offset (min length (g.size - offset)))
      (fun out => out = (length, (List.range' offset length).map (whole g line) ++ buf.drop length))
      (v.readInto offset length buf) := by
  -- what is left to do once the part inside the device is in the buffer
  have padded (begins : offset < g.size) {data : List UInt8}
      (got : data = (List.range' offset (min length (g.size - offset))).map (content g line)) :
      (if min length (g.size - offset) < length then
          (copyFrom (data ++ buf.drop (min length (g.size - offset))) (min length (g.size - offset))
            (List.replicate (length - min length (g.size - offset)) 0)).map fun buf => (length, buf)
        else (.ok (length, data ++ buf.drop (min length (g.size - offset))) :
          Except ReadError (Nat × List UInt8))) =
        .ok (length, (List.range' offset length).map (whole g line) ++ buf.drop length) := by
    have long : data.length = min length (g.size - offset) := by simp [got]
    rw [whole_range begins, ← got]
    split
    · rw [copyFrom_ok (by simp [long]; omega)]
      simp only [Except.map, ← long, List.take_left', List.length_replicate, List.drop_append]
      rw [List.drop_eq_nil_of_le (by omega), List.nil_append, List.drop_drop]
      congr 4
      omega
    · rename_i all
      have same : min length (g.size - offset) = length := by omega
      simp [same]
  rw [readInto]
  dsimp only
  split
  · rename_i beyond
    rw [copyFrom_ok (by simpa using large), whole_beyond fun p from_offset _ => by omega]
    simp [Except.map, Ends]
  rename_i begins
  split
  · rename_i empty
    subst empty
    simp [Ends]
  rename_i some_length
  have inside : offset + min length (g.size - offset) ≤ g.size := by omega
  split
  · rename_i dirty
    have got := allDirty_active sourced inside dirty
    rw [copyFrom_ok (by simp; omega)]
    simp only [bind, Except.bind, List.take_zero, List.nil_append, List.length_map,
      List.length_range', Nat.zero_add]
    rw [padded (by omega) got]
    rfl
  · apply (read_ends sourced inside).bind
    rintro data got
    have long : data.length = min length (g.size - offset) := by simp [got]
    rw [show min data.length buf.length = min length (g.size - offset) by omega,
      List.take_of_length_le (by omega), copyFrom_ok (by omega)]
    simp only [bind, Except.bind, List.take_zero, List.nil_append, Nat.zero_add, long]
    rw [padded (by omega) got]
    rfl

end

/-- Whatever the sources of the blocks, a read inside the device returns the bytes of its range,
    and reads of the handler return those inside the device and zeros after its end; or a range
    request for one of these blocks fails. -/
theorem reads_return_range (v : Reader g C) (line : Nat → List UInt8)
    (sourced : ∀ b, g.InRange b → v.Source b (line b)) :
    (∀ offset len, offset + len ≤ g.size →
      Ends (v.Fails offset len) (fun data => data = (List.range' offset len).map (content g line))
        (v.read offset len)) ∧
    (v.degraded = false → ∀ offset length,
      Ends (v.Fails offset (min length (g.size - offset)))
        (fun data => data = (List.range' offset length).map (whole g line))
        (v.handlerRead offset length)) ∧
    ∀ offset length (buf : List UInt8), length ≤ buf.length →
      Ends (v.Fails offset (min length (g.size - offset)))
        (fun out => out = (length, (List.range' offset length).map (whole g line) ++ buf.drop length))
        (v.readInto offset length buf) :=
  ⟨fun _ _ inside => read_ends sourced inside, fun fit => handlerRead_ends sourced fit,
    fun offset length _ large => readInto_ends sourced offset length large⟩

end Reader

section

/-- Five blocks of one byte. -/
def fiveBytes : Geometry where
  size := 5
  blockSize := 1
  chunkSize := 8
  blockSize_pos := Nat.one_pos
  chunkSize_pos := Nat.succ_pos 7
  blockSize_dvd := Nat.one_dvd 8
  chunks_fit := Nat.le_of_ble_eq_true rfl

/-- Three blocks of a pack, one of them a tombstone, then a dirty and a syncing one. -/
def mixedSources : Reader fiveBytes (Codec.plain 1) where
  state b := if b = 3 then .dirty else if b = 4 then .syncing else .notPresent
  flushingActive := true
  active _ := 7
  flushing := some fun _ => 9
  cold b :=
    if b = 0 then .needsFetch [] ⟨.fill 1 1, 0, 16, 2⟩
    else if b = 2 then .needsFetch [] ⟨.fill 1 2, 2, 18, 2⟩
    else .zero
  packs := threePacks
  window := 0
  degraded := false

/-- A read over all of them and past the end of the device. -/
theorem mixed_sources_read :
    Ends (mixedSources.Fails 0 5)
      (fun data => data = (List.range' 0 7).map
        (Reader.whole fiveBytes fun b => [[1, 0, 2, 7, 9].getD b 0]))
      (mixedSources.handlerRead 0 7) := by
  apply (Reader.reads_return_range mixedSources (fun b => [[1, 0, 2, 7, 9].getD b 0]) ?_).2.1 rfl 0 7
  intro b inside
  have small : b * 1 < 5 := inside
  match b, small with
  | 0, _ => exact ⟨by decide, by decide, rfl, .fill 1 1, rfl, rfl⟩
  | 1, _ => rfl
  | 2, _ => exact ⟨by decide, by decide, rfl, .fill 1 2, rfl, rfl⟩
  | 3, _ => rfl
  | 4, _ => exact ⟨fun _ => 9, rfl, rfl⟩

end

end GlideFS.WriteCache.ReadAssembly
