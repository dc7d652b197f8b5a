import GlideFS.Block.PackIndex
import GlideFS.Block.VolumeManifest
import GlideFS.Lib.Loops

/-! # Streaming a disk image into packs

The image is read block by block. Blocks that are not zero are gathered until one of another chunk
comes; then their pack is sent, while the reads go on, and its upload is joined before the next pack
is sent.
-/

namespace GlideFS.Oci.Ext4Store

open Block Lib

def blockSize : Nat := 131072

/-- `DEFAULT_CHUNK_SIZE`. -/
def chunkSize : Nat := 134217728

def blocksPerChunk : Nat := chunkSize / blockSize

def chunkIdxForBlock (b : Nat) : Nat := b * blockSize / chunkSize % 2 ^ 32

def blockOffsetInChunk (b : Nat) : Nat := b % blocksPerChunk

abbrev Data := BlockData blockSize

/-- The bytes still to be read and the number of calls so far. -/
structure Source where
  rest : List UInt8
  calls : Nat

/-- What the calls come to: a read fails or returns up to a number of bytes, an upload arrives
    or not. -/
structure Env where
  reads : Nat → Option Nat
  uploads : Nat → Bool

/-- `Read::read`: at least one byte, as far as there is one. -/
def Source.read (env : Env) (s : Source) (want : Nat) : Except Unit (List UInt8 × Source) :=
  match env.reads s.calls with
  | none => .error ()
  | some n =>
      let k := min (n + 1) want
      .ok (s.rest.take k, ⟨s.rest.drop k, s.calls + 1⟩)

/-- `read_full` with `left` bytes of the buffer to fill; every turn but the last reads a byte, so
    `turns` is large enough when it is `left`. -/
def readFull (env : Env) : (turns left : Nat) → Source → Except Unit (List UInt8 × Source)
  | 0, _, s => .ok ([], s)
  | turns + 1, left, s =>
      if left = 0 then .ok ([], s)
      else do
        let (bytes, s) ← s.read env left
        if bytes.length = 0 then .ok ([], s)
        else
          let (more, s) ← readFull env turns (left - bytes.length) s
          .ok (bytes ++ more, s)

/-- The buffer after a read, with zeros where it was not filled. -/
def filled (bytes : List UInt8) : Data := ⟨fun k => bytes.getD k 0⟩

section

variable {Hash PackId : Type} [DecidableEq PackId]

/-- The pack objects in the store; their names are those of their blocks. -/
structure Packs (C : Codec Data Hash PackId) where
  get : Nat → PackId → Option (List (PackBlock Hash))
  named : ∀ c id blocks, get c id = some blocks → C.contentPackId blocks = id

variable {C : Codec Data Hash PackId}

def Packs.insert (s : Packs C) (c : Nat) (blocks : List (PackBlock Hash)) (c' : Nat) (id : PackId) :
    Option (List (PackBlock Hash)) :=
  if c' = c ∧ id = C.contentPackId blocks then some ((s.get c' id).getD blocks) else s.get c' id

theorem Packs.insert_named (s : Packs C) (c : Nat) (blocks : List (PackBlock Hash)) (c' : Nat)
    (id : PackId) (there : List (PackBlock Hash)) (found : s.insert c blocks c' id = some there) :
    C.contentPackId there = id := by
  unfold insert at found
  split at found
  · rename_i here
    cases old : s.get c' id with
    | none =>
      rw [old] at found
      cases found
      exact here.2.symm
    | some there' =>
      rw [old] at found
      cases found
      exact s.named c' id _ old
  · exact s.named c' id there found

/-- `stream_chunk_pack`, where an object of the name is left as it is. -/
def Packs.put (s : Packs C) (c : Nat) (blocks : List (PackBlock Hash)) : Packs C :=
  ⟨s.insert c blocks, s.insert_named c blocks⟩

variable [DecidableEq Hash]

/-- `uploads` counts the uploads that were joined. -/
structure State (C : Codec Data Hash PackId) where
  source : Source
  manifest : VolumeManifest PackId
  packs : Packs C
  pending : Option (Nat × List (PackBlock Hash))
  inFlight : Option (Nat × List (PackBlock Hash))
  uploads : Nat

/-- A pack of more than 65535 blocks is refused. -/
def joinUpload (env : Env) (s : State C) : Except Unit (State C) :=
  match s.inFlight with
  | none => .ok s
  | some (chunkIdx, blocks) =>
      if env.uploads s.uploads = true ∧ blocks.length ≤ 65535 then
        .ok { s with
          inFlight := none
          packs := s.packs.put chunkIdx blocks
          manifest := s.manifest.appendPack chunkIdx (C.contentPackId blocks)
            (some (blocks.length % 2 ^ 32))
          uploads := s.uploads + 1 }
      else .error ()

/-- The compressed bytes of the first block with a hash are shared by the others. -/
def share (firstSeen : List (Hash × List UInt8)) :
    List (PackBlock Hash) → List (PackBlock Hash)
  | [] => []
  | b :: rest => match firstSeen.find? (·.1 = b.hash) with
      | some (_, compressed) => { b with compressed } :: share firstSeen rest
      | none => b :: share ((b.hash, b.compressed) :: firstSeen) rest

def startChunkUpload (env : Env) (s : State C) (chunkIdx : Nat) (blocks : List (PackBlock Hash)) :
    Except Unit (State C) :=
  let packBlocks := share [] blocks
  if packBlocks.isEmpty then joinUpload env s
  else do
    let s ← joinUpload env s
    .ok { s with inFlight := some (chunkIdx, sortBlocks packBlocks) }

/-- Puts a block with those of its chunk, after the ones of another chunk were sent. -/
def pushBlock (env : Env) (s : State C) (chunkIdx : Nat) (block : PackBlock Hash) :
    Except Unit (State C) :=
  match s.pending with
  | none => .ok { s with pending := some (chunkIdx, [block]) }
  | some (idx, blocks) =>
      if idx ≠ chunkIdx then do
        let s ← startChunkUpload env { s with pending := none } idx blocks
        .ok { s with pending := some (chunkIdx, [block]) }
      else .ok { s with pending := some (idx, blocks ++ [block]) }

/-- One turn of the loop over the blocks. -/
def storeBlock (env : Env) (level : Int) (blockIndex : Nat) (s : State C) :
    Except Unit (State C) := do
  let (bytes, source) ← readFull env blockSize blockSize s.source
  let s : State C := { s with source }
  let buf := filled bytes
  let hash := C.blake3 buf
  if hash = C.zeroBlockHash then .ok s
  else
    pushBlock env s (chunkIdxForBlock blockIndex)
      ⟨hash, blockOffsetInChunk blockIndex, C.compressBlock buf level⟩

def storeBlocks (env : Env) (level : Int) : (left blockIndex : Nat) → State C →
    Except Unit (State C)
  | 0, _, s => .ok s
  | left + 1, blockIndex, s =>
      storeBlock env level blockIndex s >>= storeBlocks env level left (blockIndex + 1)

def totalBlocks (deviceSize : Nat) : Nat := (deviceSize + (blockSize - 1)) / blockSize

def sendRest (env : Env) (s : State C) : Except Unit (State C) :=
  match s.pending with
  | none => .ok s
  | some (chunkIdx, blocks) => startChunkUpload env { s with pending := none } chunkIdx blocks

def storeExt4Stream (env : Env) (packs : Packs C) (bytes : List UInt8) (deviceSize : Nat)
    (level : Int) : Except Unit (VolumeManifest PackId × Packs C) := do
  let s ← storeBlocks env level (totalBlocks deviceSize) 0 ⟨⟨bytes, 0⟩, .new, packs, none, none, 0⟩
  let s ← sendRest env s
  let s ← joinUpload env s
  .ok (s.manifest, s.packs)

/-! ## What is stored -/

def locateIn (s : Packs C) (c off : Nat) : List PackId → Option (Option (PackBlock Hash))
  | [] => some none
  | id :: older => match s.get c id with
      | none => none
      | some blocks => match blocks.find? (·.chunkOffset = off) with
          | some e => some (some e)
          | none => locateIn s c off older

/-- Newest-first resolution of a block. -/
def resolveBlock (s : Packs C) (m : VolumeManifest PackId) (b : Nat) : Option Data :=
  match locateIn s (chunkIdxForBlock b) (blockOffsetInChunk b)
      (m.chunkPackIds (chunkIdxForBlock b)).reverse with
  | none => none
  | some none => some 0
  | some (some e) => C.fetchBlock e

end

/-- A block of the source, with zeros past its end. -/
def blockAt (bytes : List UInt8) (b : Nat) : Data := filled (bytes.drop (b * blockSize))

/-- The blocks below `n` that are not zero. -/
def nonzero (bytes : List UInt8) (n : Nat) : List Nat :=
  (List.range n).filter fun b => blockAt bytes b ≠ 0

/-- The manifest and the packs hold the source. -/
structure Faithful {Hash PackId : Type} [DecidableEq Hash] {C : Codec Data Hash PackId}
    (bytes : List UInt8) (deviceSize : Nat) (m : VolumeManifest PackId) (s : Packs C) : Prop where
  same : ∀ b < totalBlocks deviceSize, resolveBlock s m b = some (blockAt bytes b)
  single : ∀ c, (m.chunkPackIds c).length ≤ 1
  live : ∀ c e, m.chunks c = some e → e.liveBlocks =
    some ((nonzero bytes (totalBlocks deviceSize)).filter (· / blocksPerChunk = c)).length

/-! ## Reads -/

theorem readFull_spec {env : Env} {turns left : Nat} {s t : Source} {bytes : List UInt8}
    (enough : left ≤ turns) (read : readFull env turns left s = .ok (bytes, t)) :
    bytes = s.rest.take left ∧ t.rest = s.rest.drop left := by
  induction turns generalizing left s t bytes with
  | zero =>
    obtain rfl : left = 0 := by omega
    cases read
    simp
  | succ turns ih =>
    rw [readFull] at read
    split at read
    · rename_i none
      cases read
      simp [none]
    · obtain ⟨⟨first, s'⟩, one, read⟩ := bind_eq_ok.mp read
      simp only [Source.read] at one
      split at one
      · cases one
      · rename_i n _
        cases one
        simp only [List.length_take] at read
        split at read
        · cases read
          have ended : s.rest = [] := List.eq_nil_of_length_eq_zero (by omega)
          simp [ended]
        · obtain ⟨⟨more, s''⟩, later, read⟩ := bind_eq_ok.mp read
          cases read
          have fits : min (n + 1) left ≤ left := Nat.min_le_right _ _
          obtain ⟨rfl, rest⟩ := ih (by omega) later
          generalize min (n + 1) left = k at *
          rw [rest, List.drop_drop]
          by_cases long : k ≤ s.rest.length
          · have split : left = k + (left - k) := by omega
            simp only [Nat.min_eq_left long]
            rw [← List.take_add, ← split]
            simp
          · rw [List.take_of_length_le (by omega), List.drop_of_length_le (by omega)]
            simp only [List.take_nil, List.append_nil]
            rw [List.take_of_length_le (by omega), List.drop_of_length_le (by omega),
              List.drop_of_length_le (by omega)]
            simp

/-- A block is what the source holds at its place, however the reads cut it. -/
theorem filled_take (bytes : List UInt8) (b : Nat) :
    filled ((bytes.drop (b * blockSize)).take blockSize) = blockAt bytes b := by
  unfold blockAt filled
  congr 1
  funext k
  simp [List.getD_eq_getElem?_getD, k.isLt]

theorem readFull_returns {env : Env} (reads : ∀ n, env.reads n ≠ none) (turns left : Nat)
    (s : Source) : ∃ r, readFull env turns left s = .ok r := by
  induction turns generalizing left s with
  | zero => exact ⟨_, rfl⟩
  | succ turns ih =>
    rw [readFull]
    split
    · exact ⟨_, rfl⟩
    · obtain ⟨n, read⟩ := Option.ne_none_iff_exists'.mp (reads s.calls)
      simp only [Source.read, read, bind, Except.bind]
      split
      · exact ⟨_, rfl⟩
      · obtain ⟨r, more⟩ := ih (left - (s.rest.take (min (n + 1) left)).length)
          ⟨s.rest.drop (min (n + 1) left), s.calls + 1⟩
        rw [more]
        exact ⟨_, rfl⟩

/-! ## Groups of blocks -/

/-- A chunk index and the blocks gathered for it. -/
abbrev Group := Nat × List Nat

/-- The blocks below `n` that are not zero, cut where the chunk index changes. -/
structure Grouped (bytes : List UInt8) (n : Nat) (gs : List Group) : Prop where
  blocks : gs.flatMap (·.2) = nonzero bytes n
  chunks : ∀ g ∈ gs, g.2 ≠ [] ∧ ∀ b ∈ g.2, chunkIdxForBlock b = g.1
  rising : (∀ b ∈ nonzero bytes n, b < 2 ^ 42) → gs.Pairwise (·.1 < ·.1)

section

variable {bytes : List UInt8} {n : Nat} {gs : List Group}

theorem mem_nonzero {b : Nat} : b ∈ nonzero bytes n ↔ b < n ∧ blockAt bytes b ≠ 0 := by
  simp [nonzero]

theorem nonzero_succ (bytes : List UInt8) (n : Nat) :
    nonzero bytes (n + 1) = nonzero bytes n ++ if blockAt bytes n ≠ 0 then [n] else [] := by
  simp only [nonzero, List.range_succ, List.filter_append]
  by_cases zero : blockAt bytes n = 0 <;> simp [zero]

theorem chunkIdx_eq (b : Nat) : chunkIdxForBlock b = b / blocksPerChunk % 2 ^ 32 := by
  simp only [chunkIdxForBlock, blocksPerChunk, blockSize, chunkSize]
  omega

theorem chunkIdx_of_lt {b : Nat} (near : b < 2 ^ 42) : chunkIdxForBlock b = b / blocksPerChunk := by
  rw [chunkIdx_eq]
  simp only [blocksPerChunk, blockSize, chunkSize]
  omega

theorem Grouped.mem (grouped : Grouped bytes n gs) {g : Group} {b : Nat} (here : g ∈ gs)
    (member : b ∈ g.2) : b ∈ nonzero bytes n := by
  rw [← grouped.blocks]
  exact List.mem_flatMap.mpr ⟨g, here, member⟩

theorem Grouped.exists_mem (grouped : Grouped bytes n gs) {b : Nat} (member : b ∈ nonzero bytes n) :
    ∃ g ∈ gs, b ∈ g.2 ∧ g.1 = chunkIdxForBlock b := by
  rw [← grouped.blocks] at member
  obtain ⟨g, here, member⟩ := List.mem_flatMap.mp member
  exact ⟨g, here, member, ((grouped.chunks g here).2 b member).symm⟩

theorem grouped_nil : Grouped bytes 0 [] := ⟨rfl, by simp, by simp⟩

theorem Grouped.skip (grouped : Grouped bytes n gs) (zero : blockAt bytes n = 0) :
    Grouped bytes (n + 1) gs := by
  have same : nonzero bytes (n + 1) = nonzero bytes n := by simp [nonzero_succ, zero]
  exact ⟨same ▸ grouped.blocks, grouped.chunks, same ▸ grouped.rising⟩

theorem Grouped.extend {g : Group} (grouped : Grouped bytes n (gs ++ [g]))
    (some : blockAt bytes n ≠ 0) (chunk : g.1 = chunkIdxForBlock n) :
    Grouped bytes (n + 1) (gs ++ [(g.1, g.2 ++ [n])]) := by
  have more : nonzero bytes (n + 1) = nonzero bytes n ++ [n] := by simp [nonzero_succ, some]
  refine ⟨?_, ?_, ?_⟩
  · simp [more, ← grouped.blocks]
  · intro h member
    rcases List.mem_append.mp member with old | last
    · exact grouped.chunks h (by simp [old])
    · obtain rfl := List.mem_singleton.mp last
      have before := (grouped.chunks g (by simp)).2
      simp only [List.mem_append, List.mem_singleton]
      refine ⟨by simp, fun b member => ?_⟩
      rcases member with old | rfl
      · exact before b old
      · exact chunk.symm
  · intro near
    have rising := grouped.rising fun b member => near b (by simp [more, member])
    rw [List.pairwise_append] at rising ⊢
    simpa using rising

theorem Grouped.start (grouped : Grouped bytes n gs) (some : blockAt bytes n ≠ 0)
    (other : ∀ g ∈ gs.getLast?, g.1 ≠ chunkIdxForBlock n) :
    Grouped bytes (n + 1) (gs ++ [(chunkIdxForBlock n, [n])]) := by
  have more : nonzero bytes (n + 1) = nonzero bytes n ++ [n] := by simp [nonzero_succ, some]
  refine ⟨?_, ?_, ?_⟩
  · simp [more, ← grouped.blocks]
  · intro h member
    rcases List.mem_append.mp member with old | last
    · exact grouped.chunks h old
    · obtain rfl := List.mem_singleton.mp last
      simp
  · intro near
    have rising := grouped.rising fun b member => near b (by simp [more, member])
    have below : ∀ g ∈ gs, g.1 ≤ chunkIdxForBlock n := by
      intro g here
      obtain ⟨some, chunks⟩ := grouped.chunks g here
      obtain ⟨b, member⟩ := List.exists_mem_of_ne_nil _ some
      have listed := grouped.mem here member
      rw [← chunks b member, chunkIdx_of_lt (near b (by simp [more, listed])),
        chunkIdx_of_lt (near n (by simp [more]))]
      exact Nat.div_le_div_right (mem_nonzero.mp listed).1.le
    rw [List.pairwise_append]
    refine ⟨rising, by simp, fun g here h new => ?_⟩
    obtain rfl := List.mem_singleton.mp new
    rcases List.eq_nil_or_concat gs with rfl | ⟨front, last, rfl⟩
    · simp at here
    · have final := lt_of_le_of_ne (below last (by simp)) (other last (by simp))
      rw [List.concat_eq_append, List.mem_append] at here
      rw [List.concat_eq_append, List.pairwise_append] at rising
      rcases here with old | new
      · exact (rising.2.2 g old last (by simp)).trans final
      · obtain rfl := List.mem_singleton.mp new
        exact final

end

/-! ## Runs -/

section

variable {Hash PackId : Type} [DecidableEq Hash] [DecidableEq PackId] {C : Codec Data Hash PackId}
  {env : Env} {bytes : List UInt8} {level : Int}

/-- A block of the source as it is gathered. -/
def entry (C : Codec Data Hash PackId) (bytes : List UInt8) (level : Int) (b : Nat) :
    PackBlock Hash :=
  ⟨C.blake3 (blockAt bytes b), blockOffsetInChunk b, C.compressBlock (blockAt bytes b) level⟩

def packOf (C : Codec Data Hash PackId) (bytes : List UInt8) (level : Int) (g : Group) :
    List (PackBlock Hash) :=
  sortBlocks (g.2.map (entry C bytes level))

def idOf (C : Codec Data Hash PackId) (bytes : List UInt8) (level : Int) (g : Group) : PackId :=
  C.contentPackId (packOf C bytes level g)

theorem mem_packOf {g : Group} {e : PackBlock Hash} :
    e ∈ packOf C bytes level g ↔ ∃ b ∈ g.2, entry C bytes level b = e := by
  simp [packOf, sortBlocks]

theorem length_packOf (g : Group) : (packOf C bytes level g).length = g.2.length := by
  simp [packOf, sortBlocks]

/-- Blocks with the same hash have the same compressed bytes, so nothing changes. -/
theorem share_entries (bs : List Nat) (seen : List (Hash × List UInt8))
    (fine : ∀ p ∈ seen, ∃ d, p = (C.blake3 d, C.compressBlock d level)) :
    share seen (bs.map (entry C bytes level)) = bs.map (entry C bytes level) := by
  induction bs generalizing seen with
  | nil => rfl
  | cons b bs ih =>
    rw [List.map_cons, share]
    split
    · rename_i found
      obtain ⟨d, made⟩ := fine _ (List.mem_of_find?_eq_some found)
      have hash := List.find?_some found
      cases made
      have same : d = blockAt bytes b := 
        C.blake3_injective (of_decide_eq_true hash)
      rw [ih seen fine, same]
      rfl
    · rw [ih]
      intro p member
      rcases List.mem_cons.mp member with rfl | member
      · exact ⟨blockAt bytes b, rfl⟩
      · exact fine p member

theorem Packs.put_self (s : Packs C) (c : Nat) (blocks : List (PackBlock Hash)) :
    (s.put c blocks).get c (C.contentPackId blocks) = some blocks := by
  simp only [put, insert, and_self, if_true]
  cases old : s.get c (C.contentPackId blocks) with
  | none => rfl
  | some blocks' =>
    rw [Option.getD_some, C.contentPackId_injective (s.named _ _ _ old)]

theorem Packs.put_keeps {s : Packs C} {c c' : Nat} {id : PackId}
    {blocks there : List (PackBlock Hash)} (found : s.get c' id = some there) :
    (s.put c blocks).get c' id = some there := by
  simp [put, insert, found]

def listed (C : Codec Data Hash PackId) (bytes : List UInt8) (level : Int) (gs : List Group) :
    VolumeManifest PackId :=
  gs.foldl (fun m g => m.appendPack g.1 (idOf C bytes level g) (some (g.2.length % 2 ^ 32))) .new

/-- The packs of the joined groups are stored and listed, the one of `flying` was sent. -/
structure Sent (bytes : List UInt8) (level : Int) (s : State C) (joined : List Group)
    (flying : Option Group) : Prop where
  manifest : s.manifest = listed C bytes level joined
  stored : ∀ g ∈ joined, s.packs.get g.1 (idOf C bytes level g) = some (packOf C bytes level g)
  few : ∀ g ∈ joined, g.2.length ≤ 65535
  inFlight : s.inFlight = flying.map fun g => (g.1, packOf C bytes level g)

variable {s t : State C} {joined : List Group} {flying waiting : Option Group} {n : Nat}

theorem Sent.aside (sent : Sent bytes level s joined flying) (manifest : t.manifest = s.manifest)
    (packs : t.packs = s.packs) (inFlight : t.inFlight = s.inFlight) :
    Sent bytes level t joined flying :=
  ⟨manifest ▸ sent.manifest, packs ▸ sent.stored, sent.few, inFlight ▸ sent.inFlight⟩

/-- The parts of the state an upload does not touch. -/
def Aside (s t : State C) : Prop := t.source = s.source ∧ t.pending = s.pending

theorem joinUpload_sent (sent : Sent bytes level s joined flying) (ran : joinUpload env s = .ok t) :
    Sent bytes level t (joined ++ flying.toList) none ∧ Aside s t := by
  rw [joinUpload, sent.inFlight] at ran
  cases flying with
  | none =>
    cases ran
    simpa [Aside] using sent
  | some g =>
    simp only [Option.map_some] at ran
    split at ran
    · rename_i arrived
      cases ran
      refine ⟨⟨?_, ?_, ?_, rfl⟩, rfl, rfl⟩
      · simp [listed, sent.manifest, idOf, length_packOf]
      · intro h member
        rcases List.mem_append.mp member with old | new
        · exact Packs.put_keeps (sent.stored h old)
        · obtain rfl : h = g := by simpa using new
          exact Packs.put_self _ _ _
      · intro h member
        rcases List.mem_append.mp member with old | new
        · exact sent.few h old
        · obtain rfl : h = g := by simpa using new
          simpa [length_packOf] using arrived.2
    · cases ran

theorem startChunkUpload_sent {g : Group} (sent : Sent bytes level s joined flying)
    (some : g.2 ≠ []) (ran : startChunkUpload env s g.1 (g.2.map (entry C bytes level)) = .ok t) :
    Sent bytes level t (joined ++ flying.toList) (.some g) ∧ Aside s t := by
  rw [startChunkUpload, share_entries g.2 [] (by simp)] at ran
  simp only [List.isEmpty_map, List.isEmpty_iff, some, if_false] at ran
  obtain ⟨mid, join, ran⟩ := bind_eq_ok.mp ran
  cases ran
  obtain ⟨sent, aside⟩ := joinUpload_sent sent join
  exact ⟨⟨sent.manifest, sent.stored, sent.few, rfl⟩, aside⟩

/-- The loop has come to block `n`. -/
structure Inv (bytes : List UInt8) (level : Int) (n : Nat) (s : State C) (joined : List Group)
    (flying waiting : Option Group) : Prop where
  sent : Sent bytes level s joined flying
  rest : s.source.rest = bytes.drop (n * blockSize)
  pending : s.pending = waiting.map fun g => (g.1, g.2.map (entry C bytes level))
  grouped : Grouped bytes n (joined ++ flying.toList ++ waiting.toList)
  fresh : waiting = none → joined ++ flying.toList = []

theorem pushBlock_inv (inv : Inv bytes level n s joined flying waiting) (some : blockAt bytes n ≠ 0)
    (ran : pushBlock env { s with source := ⟨s.source.rest.drop blockSize, calls⟩ } (chunkIdxForBlock n) (entry C bytes level n) = .ok t) :
    ∃ joined flying waiting, Inv bytes level (n + 1) t joined flying waiting := by
  have rest : s.source.rest.drop blockSize = bytes.drop ((n + 1) * blockSize) := by
    rw [inv.rest, List.drop_drop, Nat.succ_mul]
  have pending := inv.pending
  have grouped := inv.grouped
  unfold pushBlock at ran
  cases waiting with
  | none =>
    simp only [pending, Option.map_none] at ran
    cases ran
    have none := inv.fresh rfl
    have grown := grouped.start some (by simp [none])
    exact ⟨joined, flying, .some (chunkIdxForBlock n, [n]), inv.sent.aside rfl rfl rfl, rest, rfl,
      by simpa using grown, by simp⟩
  | some g =>
    simp only [pending, Option.map_some] at ran
    split at ran
    · rename_i other
      obtain ⟨mid, start, ran⟩ := bind_eq_ok.mp ran
      cases ran
      have gathered := (grouped.chunks g (by simp)).1
      obtain ⟨sent, source, -⟩ :=
        startChunkUpload_sent (inv.sent.aside (by rfl) (by rfl) (by rfl)) gathered start
      have grown := grouped.start some (by simpa using other)
      exact ⟨joined ++ flying.toList, .some g, .some (chunkIdxForBlock n, [n]),
        sent.aside rfl rfl rfl, by rw [source, ← rest], rfl, by simpa using grown, by simp⟩
    · rename_i here
      cases ran
      have grown := grouped.extend some (not_not.mp here)
      exact ⟨joined, flying, .some (g.1, g.2 ++ [n]), inv.sent.aside rfl rfl rfl, rest, by simp,
        by simpa using grown, by simp⟩

theorem storeBlock_inv (inv : Inv bytes level n s joined flying waiting)
    (ran : storeBlock env level n s = .ok t) :
    ∃ joined flying waiting, Inv bytes level (n + 1) t joined flying waiting := by
  obtain ⟨⟨read, source⟩, reads, ran⟩ := bind_eq_ok.mp ran
  obtain ⟨rfl, rest⟩ := readFull_spec (Nat.le_refl _) reads
  obtain ⟨_, calls⟩ := source
  simp only at rest
  subst rest
  simp only [inv.rest, filled_take] at ran
  split at ran
  · rename_i zero
    cases ran
    have zero : blockAt bytes n = 0 := C.blake3_injective zero
    refine ⟨joined, flying, waiting, inv.sent.aside rfl rfl rfl, ?_, inv.pending,
      inv.grouped.skip zero, inv.fresh⟩
    rw [List.drop_drop, Nat.succ_mul]
  · rename_i some
    rw [← inv.rest] at ran
    exact pushBlock_inv inv (fun zero => some (by rw [zero]; rfl)) ran

theorem storeBlocks_inv {left : Nat} (inv : Inv bytes level n s joined flying waiting)
    (ran : storeBlocks env level left n s = .ok t) :
    ∃ joined flying waiting, Inv bytes level (n + left) t joined flying waiting := by
  induction left generalizing n s joined flying waiting with
  | zero =>
    cases ran
    exact ⟨joined, flying, waiting, inv⟩
  | succ left ih =>
    obtain ⟨mid, one, ran⟩ := bind_eq_ok.mp ran
    obtain ⟨_, _, _, inv⟩ := storeBlock_inv inv one
    have run := ih inv ran
    rwa [Nat.add_right_comm, Nat.add_assoc] at run

theorem inv_initial (bytes : List UInt8) (level : Int) (packs : Packs C) :
    Inv bytes level 0 ⟨⟨bytes, 0⟩, .new, packs, none, none, 0⟩ [] none none :=
  ⟨⟨rfl, by simp, by simp, rfl⟩, by simp, rfl, grouped_nil, fun _ => rfl⟩

/-- **A whole run.** The groups of the source are stored and listed. -/
theorem storeExt4Stream_listed {packs stored : Packs C} {deviceSize : Nat}
    {m : VolumeManifest PackId}
    (ran : storeExt4Stream env packs bytes deviceSize level = .ok (m, stored)) :
    ∃ gs, Grouped bytes (totalBlocks deviceSize) gs ∧ m = listed C bytes level gs ∧
      (∀ g ∈ gs, stored.get g.1 (idOf C bytes level g) = some (packOf C bytes level g)) ∧
      ∀ g ∈ gs, g.2.length ≤ 65535 := by
  obtain ⟨s, loop, ran⟩ := bind_eq_ok.mp ran
  obtain ⟨t, rest, ran⟩ := bind_eq_ok.mp ran
  obtain ⟨u, join, ran⟩ := bind_eq_ok.mp ran
  cases ran
  obtain ⟨joined, flying, waiting, inv⟩ := storeBlocks_inv (inv_initial bytes level packs) loop
  have grouped := inv.grouped
  rw [Nat.zero_add] at grouped
  rw [sendRest, inv.pending] at rest
  cases waiting with
  | none =>
    cases rest
    obtain ⟨sent, -⟩ := joinUpload_sent inv.sent join
    exact ⟨_, by simpa using grouped, sent.manifest, sent.stored, sent.few⟩
  | some g =>
    obtain ⟨sent, -⟩ := startChunkUpload_sent (inv.sent.aside (by rfl) (by rfl) (by rfl))
      (grouped.chunks g (by simp)).1 rest
    obtain ⟨sent, -⟩ := joinUpload_sent sent join
    exact ⟨_, grouped, sent.manifest, sent.stored, sent.few⟩

/-! ## The manifest of a run -/

theorem listed_concat (gs : List Group) (g : Group) :
    listed C bytes level (gs ++ [g]) = (listed C bytes level gs).appendPack g.1
      (idOf C bytes level g) (some (g.2.length % 2 ^ 32)) := by
  simp [listed]

theorem chunkPackIds_listed (gs : List Group) (c : Nat) :
    (listed C bytes level gs).chunkPackIds c =
      (gs.filter (·.1 = c)).map (idOf C bytes level) := by
  induction gs using List.reverseRecOn with
  | nil => rfl
  | append_singleton gs g ih =>
    rw [listed_concat, VolumeManifest.chunkPackIds_appendPack, List.filter_append]
    by_cases here : c = g.1
    · subst here
      simp [ih]
    · simp [here, Ne.symm here, ih]

theorem chunks_listed (C : Codec Data Hash PackId) (bytes : List UInt8) (level : Int)
    (gs : List Group) (c : Nat) :
    ((listed C bytes level gs).chunks c).map (·.liveBlocks) =
      (gs.filter (·.1 = c)).getLast?.map fun g => some (g.2.length % 2 ^ 32) := by
  induction gs using List.reverseRecOn with
  | nil => rfl
  | append_singleton gs g ih =>
    rw [listed_concat, List.filter_append]
    by_cases here : c = g.1
    · subst here
      simp [VolumeManifest.appendPack]
    · simp [VolumeManifest.appendPack, here, Ne.symm here, ih]

section

variable {n : Nat} {gs : List Group}

theorem nodup_nonzero (bytes : List UInt8) (n : Nat) : (nonzero bytes n).Nodup :=
  List.nodup_range.filter _

theorem Grouped.nodup (grouped : Grouped bytes n gs) {g : Group} (here : g ∈ gs) : g.2.Nodup := by
  have all := nodup_nonzero bytes n
  rw [← grouped.blocks, List.nodup_flatMap] at all
  exact all.1 g here

/-- The only group of a chunk index has all its blocks. -/
theorem Grouped.mem_of_single (grouped : Grouped bytes n gs) {g : Group} {b : Nat}
    (single : gs.filter (·.1 = chunkIdxForBlock b) = [g]) (some : b ∈ nonzero bytes n) :
    b ∈ g.2 := by
  obtain ⟨h, here, member, chunk⟩ := grouped.exists_mem some
  have listed : h ∈ gs.filter (·.1 = chunkIdxForBlock b) :=
    List.mem_filter.mpr ⟨here, by simpa using chunk⟩
  rw [single, List.mem_singleton] at listed
  exact listed ▸ member

theorem filter_of_rising (rising : gs.Pairwise (·.1 < ·.1)) (c : Nat) :
    gs.filter (·.1 = c) = [] ∨ ∃ g ∈ gs, g.1 = c ∧ gs.filter (·.1 = c) = [g] := by
  have sorted := rising.filter (fun g => g.1 = c)
  have chunk : ∀ g ∈ gs.filter (·.1 = c), g ∈ gs ∧ g.1 = c := by simp
  cases found : gs.filter (·.1 = c) with
  | nil => exact .inl rfl
  | cons g rest =>
    rw [found] at sorted chunk
    obtain ⟨here, first⟩ := chunk g (by simp)
    cases rest with
    | nil => exact .inr ⟨g, here, first, rfl⟩
    | cons h rest =>
      have before := List.rel_of_pairwise_cons sorted (List.mem_cons_self (a := h))
      have second := (chunk h (by simp)).2
      omega

end

/-- Chunk number and offset are those of the block modulo `2 ^ 42`. -/
theorem place_eq_iff {a b : Nat} :
    chunkIdxForBlock a = chunkIdxForBlock b ∧ blockOffsetInChunk a = blockOffsetInChunk b ↔
      a % 2 ^ 42 = b % 2 ^ 42 := by
  simp only [chunkIdx_eq, blockOffsetInChunk, blocksPerChunk, blockSize, chunkSize]
  omega

theorem fetch_entry (b : Nat) :
    C.fetchBlock (entry C bytes level b) = some (blockAt bytes b) := by
  have some : (C.compressBlock (blockAt bytes b) level).length ≠ 0 := by
    simp [C.compress_nonempty]
  simp [Codec.fetchBlock, entry, some, C.decompress_compress]

section

variable {packs : Packs C} {deviceSize : Nat} {gs : List Group}

/-- A block whose chunk has one pack resolves to what the pack was made of. -/
theorem resolve_of_single (grouped : Grouped bytes (totalBlocks deviceSize) gs)
    (near : ∀ b < totalBlocks deviceSize, 2 ^ 42 ≤ b →
      blockAt bytes b = 0 ∧ blockAt bytes (b % 2 ^ 42) = 0)
    {b : Nat} (inside : b < totalBlocks deviceSize) {g : Group} (here : g ∈ gs)
    (chunk : g.1 = chunkIdxForBlock b) (one : gs.filter (·.1 = chunkIdxForBlock b) = [g])
    (stored : packs.get g.1 (idOf C bytes level g) = some (packOf C bytes level g)) :
    resolveBlock packs (listed C bytes level gs) b = some (blockAt bytes b) := by
  rw [chunk] at stored
  rw [resolveBlock, chunkPackIds_listed, one]
  simp only [List.map_cons, List.map_nil, List.reverse_singleton, locateIn, stored]
  cases found : (packOf C bytes level g).find? (·.chunkOffset = blockOffsetInChunk b) with
  | some e =>
    obtain ⟨b', member, rfl⟩ := mem_packOf.mp (List.mem_of_find?_eq_some found)
    have offset : blockOffsetInChunk b' = blockOffsetInChunk b := by
      have test := List.find?_some found
      exact of_decide_eq_true test
    have place := place_eq_iff.mp ⟨((grouped.chunks g here).2 b' member).trans chunk, offset⟩
    obtain ⟨inside', some⟩ := mem_nonzero.mp (grouped.mem here member)
    have below : b' < 2 ^ 42 := by
      by_contra far
      exact some (near b' inside' (Nat.not_lt.mp far)).1
    rw [Nat.mod_eq_of_lt below] at place
    by_cases far : 2 ^ 42 ≤ b
    · have zero := (near b inside far).2
      rw [← place] at zero
      exact absurd zero some
    · rw [Nat.mod_eq_of_lt (Nat.not_le.mp far)] at place
      simp [place, fetch_entry]
  | none =>
    by_contra other
    have some : blockAt bytes b ≠ 0 := fun zero => other (by rw [zero])
    have member := grouped.mem_of_single one (mem_nonzero.mpr ⟨inside, some⟩)
    have missing := List.find?_eq_none.mp found _ (mem_packOf.mpr ⟨b, member, rfl⟩)
    simp [entry] at missing

/-- Where the chunk numbers do not wrap, the manifest holds the source. -/
theorem faithful_of_near (grouped : Grouped bytes (totalBlocks deviceSize) gs)
    (stored : ∀ g ∈ gs, packs.get g.1 (idOf C bytes level g) = some (packOf C bytes level g))
    (few : ∀ g ∈ gs, g.2.length ≤ 65535)
    (near : ∀ b < totalBlocks deviceSize, 2 ^ 42 ≤ b →
      blockAt bytes b = 0 ∧ blockAt bytes (b % 2 ^ 42) = 0) :
    Faithful bytes deviceSize (listed C bytes level gs) packs := by
  have below : ∀ b ∈ nonzero bytes (totalBlocks deviceSize), b < 2 ^ 42 := by
    intro b member
    obtain ⟨inside, some⟩ := mem_nonzero.mp member
    by_contra far
    exact some (near b inside (Nat.not_lt.mp far)).1
  have rising := grouped.rising below
  constructor
  · intro b inside
    rcases filter_of_rising rising (chunkIdxForBlock b) with none | ⟨g, here, chunk, one⟩
    · rw [resolveBlock, chunkPackIds_listed, none]
      simp only [List.map_nil, List.reverse_nil, locateIn]
      by_contra other
      have some : blockAt bytes b ≠ 0 := fun zero => other (by rw [zero])
      obtain ⟨g, here, -, chunk⟩ := grouped.exists_mem (mem_nonzero.mpr ⟨inside, some⟩)
      simpa [chunk] using List.filter_eq_nil_iff.mp none g here
    · exact resolve_of_single grouped near inside here chunk one (stored g here)
  · intro c
    rw [chunkPackIds_listed, List.length_map]
    rcases filter_of_rising rising c with none | ⟨g, -, -, one⟩
    · simp [none]
    · simp [one]
  · intro c e at_c
    have live := chunks_listed C bytes level gs c
    rcases filter_of_rising rising c with none | ⟨g, here, chunk, one⟩
    · simp [none, at_c] at live
    · have count : g.2.length = ((nonzero bytes (totalBlocks deviceSize)).filter
          (· / blocksPerChunk = c)).length := by
        apply List.Perm.length_eq
        rw [List.perm_ext_iff_of_nodup (grouped.nodup here) ((nodup_nonzero _ _).filter _)]
        intro b
        rw [List.mem_filter, decide_eq_true_iff]
        constructor
        · intro member
          have listed := grouped.mem here member
          rw [← chunkIdx_of_lt (below b listed), ← chunk]
          exact ⟨listed, (grouped.chunks g here).2 b member⟩
        · rintro ⟨listed, rfl⟩
          rw [← chunkIdx_of_lt (below b listed)] at one
          exact grouped.mem_of_single one listed
      have small : g.2.length % 2 ^ 32 = g.2.length :=
        Nat.mod_eq_of_lt (Nat.lt_of_le_of_lt (few g here) (by decide))
      rw [at_c, one, Option.map_some, List.getLast?_singleton, Option.map_some, small] at live
      rw [← count]
      exact Option.some.inj live

/-- A block of chunk `2 ^ 32` or beyond shares the place of another. -/
theorem near_of_faithful (grouped : Grouped bytes (totalBlocks deviceSize) gs)
    (few : ∀ g ∈ gs, g.2.length ≤ 65535)
    (faithful : Faithful bytes deviceSize (listed C bytes level gs) packs) :
    ∀ b < totalBlocks deviceSize, 2 ^ 42 ≤ b →
      blockAt bytes b = 0 ∧ blockAt bytes (b % 2 ^ 42) = 0 := by
  intro b inside far
  have place := place_eq_iff (a := b) (b := b % 2 ^ 42)
  obtain ⟨chunk, offset⟩ := place.mpr (Nat.mod_mod _ _).symm
  have same : blockAt bytes b = blockAt bytes (b % 2 ^ 42) := by
    have first := faithful.same b inside
    rw [resolveBlock, chunk, offset, ← resolveBlock, faithful.same (b % 2 ^ 42) (by omega)] at first
    exact (Option.some.inj first).symm
  rw [← same, and_self]
  by_contra some
  have listed := mem_nonzero.mpr ⟨inside, some⟩
  obtain ⟨g, here, member, group⟩ := grouped.exists_mem listed
  have shown : g ∈ gs.filter (·.1 = chunkIdxForBlock b) := by simp [here, group]
  -- the chunk has one pack, of all blocks with its number, but fewer of them are its own
  have one : gs.filter (·.1 = chunkIdxForBlock b) = [g] := by
    have short := faithful.single (chunkIdxForBlock b)
    rw [chunkPackIds_listed, List.length_map] at short
    obtain ⟨h, only⟩ := List.length_eq_one_iff.mp
      (Nat.le_antisymm short (List.length_pos_of_mem shown))
    rw [only] at shown ⊢
    rw [List.mem_singleton.mp shown]
  have live := chunks_listed C bytes level gs (chunkIdxForBlock b)
  have small : g.2.length % 2 ^ 32 = g.2.length :=
    Nat.mod_eq_of_lt (Nat.lt_of_le_of_lt (few g here) (by decide))
  rw [one, List.getLast?_singleton, Option.map_some, small] at live
  obtain ⟨e, at_c, count⟩ := Option.map_eq_some_iff.mp live
  have own := Option.some.inj ((faithful.live _ e at_c).symm.trans count)
  have wider : (b :: (nonzero bytes (totalBlocks deviceSize)).filter
      (· / blocksPerChunk = chunkIdxForBlock b)).Nodup := by
    rw [List.nodup_cons]
    refine ⟨?_, (nodup_nonzero _ _).filter _⟩
    rw [List.mem_filter, decide_eq_true_iff, chunkIdx_eq]
    simp only [blocksPerChunk, blockSize, chunkSize]
    omega
  have inGroup : ∀ a ∈ b :: (nonzero bytes (totalBlocks deviceSize)).filter
      (· / blocksPerChunk = chunkIdxForBlock b), a ∈ g.2 := by
    intro a member'
    rcases List.mem_cons.mp member' with rfl | own
    · exact member
    · rw [List.mem_filter, decide_eq_true_iff] at own
      have number : chunkIdxForBlock a = chunkIdxForBlock b := by
        rw [chunkIdx_eq a, own.2, chunkIdx_eq, Nat.mod_mod]
      rw [← number] at one
      exact grouped.mem_of_single one own.1
  have more := (List.subperm_of_subset wider inGroup).length_le
  rw [List.length_cons] at more
  omega

end

/-- **The stream is stored.** The returned manifest holds the source if the blocks whose chunk number
    does not fit in 32 bits, and the blocks in whose place they are looked up, are all zero; and only
    then. -/
theorem stream_stored_iff {packs stored : Packs C} {deviceSize : Nat} {m : VolumeManifest PackId}
    (ran : storeExt4Stream env packs bytes deviceSize level = .ok (m, stored)) :
    Faithful bytes deviceSize m stored ↔
      ∀ b < totalBlocks deviceSize, 2 ^ 42 ≤ b →
        blockAt bytes b = 0 ∧ blockAt bytes (b % 2 ^ 42) = 0 := by
  obtain ⟨gs, grouped, rfl, kept, few⟩ := storeExt4Stream_listed ran
  exact ⟨near_of_faithful grouped few, faithful_of_near grouped kept few⟩

/-! ## Runs that return -/

/-- Every read and every upload succeeds. -/
def Env.Fine (env : Env) : Prop := (∀ n, env.reads n ≠ none) ∧ ∀ n, env.uploads n = true

theorem Grouped.length_le {gs : List Group} (grouped : Grouped bytes n gs) {g : Group}
    (here : g ∈ gs) : g.2.length ≤ (nonzero bytes n).length :=
  (List.subperm_of_subset (grouped.nodup here) fun _ => grouped.mem here).length_le

theorem joinUpload_returns (fine : env.Fine) (sent : Sent bytes level s joined flying)
    (few : ∀ g ∈ flying, g.2.length ≤ 65535) : ∃ t, joinUpload env s = .ok t := by
  rw [joinUpload, sent.inFlight]
  cases flying with
  | none => exact ⟨_, rfl⟩
  | some g => simp [fine.2 s.uploads, length_packOf, few g rfl]

theorem startChunkUpload_returns (fine : env.Fine) (sent : Sent bytes level s joined flying)
    (few : ∀ g ∈ flying, g.2.length ≤ 65535) (c : Nat) (blocks : List (PackBlock Hash)) :
    ∃ t, startChunkUpload env s c blocks = .ok t := by
  obtain ⟨t, join⟩ := joinUpload_returns fine sent few
  rw [startChunkUpload]
  split
  · exact ⟨t, join⟩
  · rw [join]
    exact ⟨_, rfl⟩

theorem storeBlock_returns (fine : env.Fine) (inv : Inv bytes level n s joined flying waiting)
    (few : (nonzero bytes n).length ≤ 65535) : ∃ t, storeBlock env level n s = .ok t := by
  obtain ⟨⟨read, source⟩, reads⟩ := readFull_returns fine.1 blockSize blockSize s.source
  have flew : ∀ g ∈ flying, g.2.length ≤ 65535 := by
    rintro g rfl
    exact (inv.grouped.length_le (by simp)).trans few
  simp only [storeBlock, reads, bind, Except.bind]
  split
  · exact ⟨_, rfl⟩
  · unfold pushBlock
    split
    · exact ⟨_, rfl⟩
    · rename_i idx blocks _
      split
      · obtain ⟨t, start⟩ := startChunkUpload_returns fine
          (inv.sent.aside (t := { s with source, pending := none }) rfl rfl rfl) flew idx blocks
        simp only [start, bind, Except.bind]
        exact ⟨_, rfl⟩
      · exact ⟨_, rfl⟩

theorem length_nonzero_mono {m : Nat} (le : m ≤ n) :
    (nonzero bytes m).length ≤ (nonzero bytes n).length :=
  ((List.range_sublist.mpr le).filter _).length_le

theorem storeBlocks_returns (fine : env.Fine) {left : Nat}
    (inv : Inv bytes level n s joined flying waiting)
    (few : (nonzero bytes (n + left)).length ≤ 65535) :
    ∃ t, storeBlocks env level left n s = .ok t := by
  induction left generalizing n s joined flying waiting with
  | zero => exact ⟨s, rfl⟩
  | succ left ih =>
    obtain ⟨t, one⟩ := storeBlock_returns fine inv
      ((length_nonzero_mono (Nat.le_add_right n (left + 1))).trans few)
    obtain ⟨_, _, _, next⟩ := storeBlock_inv inv one
    rw [storeBlocks, one]
    exact ih next (by rwa [Nat.add_right_comm, Nat.add_assoc])

/-- A source with few blocks that are not zero is stored when nothing fails. -/
theorem storeExt4Stream_returns (fine : env.Fine) (packs : Packs C) (bytes : List UInt8)
    (deviceSize : Nat) (level : Int)
    (few : (nonzero bytes (totalBlocks deviceSize)).length ≤ 65535) :
    ∃ m stored, storeExt4Stream env packs bytes deviceSize level = .ok (m, stored) := by
  have start := inv_initial bytes level packs
  rw [← Nat.zero_add (totalBlocks deviceSize)] at few
  obtain ⟨s, loop⟩ := storeBlocks_returns fine start few
  obtain ⟨joined, flying, waiting, inv⟩ := storeBlocks_inv start loop
  have grouped := inv.grouped
  have short : ∀ g ∈ joined ++ flying.toList ++ waiting.toList, g.2.length ≤ 65535 :=
    fun g here => (grouped.length_le here).trans few
  have flew : ∀ g ∈ flying, g.2.length ≤ 65535 := fun g here => short g (by simp_all)
  rw [storeExt4Stream, loop]
  cases waiting with
  | none =>
    obtain ⟨t, join⟩ := joinUpload_returns fine inv.sent flew
    have rest : sendRest env s = .ok s := by rw [sendRest, inv.pending]; rfl
    simp only [bind, Except.bind, rest, join]
    exact ⟨_, _, rfl⟩
  | some g =>
    have sent := inv.sent.aside (t := { s with pending := none }) rfl rfl rfl
    obtain ⟨t, begun⟩ := startChunkUpload_returns fine sent flew g.1
      (g.2.map (entry C bytes level))
    have rest : sendRest env s = .ok t := by rw [sendRest, inv.pending]; exact begun
    obtain ⟨sent, -⟩ := startChunkUpload_sent sent (grouped.chunks g (by simp)).1 begun
    obtain ⟨u, join⟩ := joinUpload_returns fine sent (by simpa using short g (by simp))
    simp only [bind, Except.bind, rest, join]
    exact ⟨_, _, rfl⟩

end

/-- One byte a call, and nothing fails. -/
def calm : Env := ⟨fun _ => some 0, fun _ => true⟩

theorem calm_fine : calm.Fine := ⟨nofun, fun _ => rfl⟩

def noPacks : Packs (Codec.plain blockSize) := ⟨fun _ _ => none, nofun⟩

/-- A byte in the first block of each of two chunks. -/
def twoChunks : List UInt8 := 1 :: List.replicate (chunkSize - 1) 0 ++ [2]

theorem two_chunks_stored : ∃ m stored,
    storeExt4Stream calm noPacks twoChunks (chunkSize + 1) 0 = .ok (m, stored) ∧
      Faithful twoChunks (chunkSize + 1) m stored := by
  have blocks : totalBlocks (chunkSize + 1) = 1025 := rfl
  have few : (nonzero twoChunks (totalBlocks (chunkSize + 1))).length ≤ 65535 := by
    refine (List.length_filter_le _ _).trans ?_
    rw [blocks, List.length_range]
    decide
  obtain ⟨m, stored, ran⟩ := storeExt4Stream_returns calm_fine noPacks twoChunks (chunkSize + 1) 0 few
  exact ⟨m, stored, ran, (stream_stored_iff ran).mpr fun b inside far => by omega⟩

/-- Zeros up to the first block of chunk `2 ^ 32`, and one byte there. -/
def farByte : List UInt8 := List.replicate (2 ^ 59) 0 ++ [1]

theorem farByte_get (n : Nat) : farByte.getD n 0 = if n = 2 ^ 59 then 1 else 0 := by
  rw [farByte, List.getD_eq_getElem?_getD, List.getElem?_append, List.length_replicate]
  split
  · rw [List.getElem?_replicate, if_pos (by assumption), if_neg (by omega)]
    rfl
  · rw [List.getElem?_singleton]
    split <;> split <;> first | rfl | omega

theorem get_blockAt (bytes : List UInt8) (b : Nat) {k : Nat} (inside : k < blockSize) :
    (blockAt bytes b).get k = bytes.getD (b * blockSize + k) 0 := by
  simp [BlockData.get, inside, blockAt, filled, List.getD_eq_getElem?_getD, List.getElem?_drop]

theorem farByte_zero {b : Nat} (near : b < 2 ^ 42) : blockAt farByte b = 0 := by
  apply BlockData.ext_get
  intro k inside
  rw [get_blockAt farByte b inside, farByte_get, if_neg (by unfold blockSize at *; omega)]
  simp only [BlockData.get, inside, dif_pos]
  rfl

theorem farByte_one : blockAt farByte (2 ^ 42) ≠ 0 := by
  intro zero
  have first := congrArg (fun d => d.get 0) zero
  simp only [get_blockAt farByte (2 ^ 42) (show 0 < blockSize by decide), farByte_get] at first
  rw [if_pos (by norm_num [blockSize])] at first
  exact absurd first (by decide)

/-- The byte is looked up in chunk 0, whose blocks of the source are zero. -/
theorem far_byte_misplaced : ∃ m stored,
    storeExt4Stream calm noPacks farByte (2 ^ 59 + 1) 0 = .ok (m, stored) ∧
      ¬Faithful farByte (2 ^ 59 + 1) m stored := by
  have total : totalBlocks (2 ^ 59 + 1) = 2 ^ 42 + 1 := by norm_num [totalBlocks, blockSize]
  have none : nonzero farByte (2 ^ 42) = [] := by
    rw [List.eq_nil_iff_forall_not_mem]
    intro b member
    obtain ⟨near, some⟩ := mem_nonzero.mp member
    exact some (farByte_zero near)
  have few : (nonzero farByte (totalBlocks (2 ^ 59 + 1))).length ≤ 65535 := by
    rw [total, nonzero_succ, none, if_pos farByte_one]
    decide
  obtain ⟨m, stored, ran⟩ := storeExt4Stream_returns calm_fine noPacks farByte (2 ^ 59 + 1) 0 few
  obtain ⟨gs, grouped, rfl, -, short⟩ := storeExt4Stream_listed ran
  refine ⟨_, stored, ran, fun faithful => farByte_one ?_⟩
  exact (near_of_faithful grouped short faithful (2 ^ 42) (by omega) (le_refl _)).1

end GlideFS.Oci.Ext4Store
