import GlideFS.WriteCache.FlushBody
import GlideFS.WriteCache.ReadRange

/-! # A fork reads as its source

A fork takes over the manifest of its source, with the block size that is recorded
there, and opens an empty cache with the block size of the request or the node's
default. Reads count blocks in the cache's size and look them up in the manifest's,
so a fork reads as its source when the two are the same and the source has nothing
beyond its end. In all other cases it takes a device that is smaller than both block
sizes, or a source that is blank.
-/

namespace GlideFS.Router

open Block Lib WriteCache

variable {Hash PackId : Type} [DecidableEq Hash] {g : Geometry}
  {C : Codec (BlockData g.blockSize) Hash PackId}

/-- A manifest whose packs are all there; its block size and its size are those of `g`. -/
structure Source (C : Codec (BlockData g.blockSize) Hash PackId) where
  store : PackStore C
  manifest : VolumeManifest PackId
  backed : Backed store manifest

namespace Source

def block (src : Source C) (b : Nat) : BlockData g.blockSize :=
  (resolveBlock g src.store src.manifest b).getD 0

/-- The byte the manifest resolves for an offset. -/
def byte (src : Source C) (x : Nat) : UInt8 := (src.block (x / g.blockSize)).get (x % g.blockSize)

/-- The content of the source, zeros above its size. -/
def content (src : Source C) (x : Nat) : UInt8 := if x < g.size then src.byte x else 0

/-- Whether a pack has data for the block; a tombstone is none. -/
def hasData (src : Source C) (b : Nat) : Bool :=
  match locateBlock g src.store src.manifest b with
  | some (some e) => e.compressed.length ≠ 0
  | _ => false

end Source

structure ForkRequest where
  sizeBytes : Nat
  blockSize : Option Nat

namespace ForkRequest

/-- A fork is at least as large as its source. -/
def deviceSize (req : ForkRequest) (g : Geometry) : Nat := max req.sizeBytes g.size

/-- `block_size_or`. -/
def blockSizeOr (req : ForkRequest) (default : Nat) : Nat := req.blockSize.getD default

end ForkRequest

/-- The fork path of `create_export`: an empty cache over the manifest of the source. -/
def createFork (defaultBlockSize : Nat) (_src : Source C) (req : ForkRequest) : Option ReadView :=
  openFreshActive (req.deviceSize g) (req.blockSizeOr defaultBlockSize)

/-- The source has nothing between its size and the end of the device. -/
def Source.EndsBefore (src : Source C) (deviceSize : Nat) : Prop :=
  ∀ x, g.size ≤ x → x < deviceSize → src.byte x = 0

/-- The source is blank, and the blocks the fork looks up have no data, or it is the last one of
    the device and the part of it that is read is in the block and zero. -/
structure Source.Blank (src : Source C) (deviceSize blockSize : Nat) : Prop where
  zero : ∀ x < g.size, src.byte x = 0
  looked : ∀ b, b * blockSize < deviceSize → src.hasData b = true →
    deviceSize - b * blockSize ≤ min blockSize g.blockSize ∧
      ∀ i < deviceSize - b * blockSize, (src.block b).get i = 0

/-- The block sizes agree, or the device has one block that is smaller than both. -/
def SameBlocks (g : Geometry) (deviceSize blockSize : Nat) : Prop :=
  blockSize = g.blockSize ∨ deviceSize ≤ min blockSize g.blockSize

/-! ## The blocks a fork looks up -/

/-- What the fork gets for a block. -/
def Source.line (src : Source C) (blockSize b : Nat) : List UInt8 :=
  if src.hasData b then (List.range g.blockSize).map (src.block b).get
  else List.replicate blockSize 0

theorem Source.block_of_not_hasData {src : Source C} {b : Nat} (h : src.hasData b = false) (i : Nat) :
    (src.block b).get i = 0 := by
  have zero : src.block b = 0 := by
    obtain ⟨r, located⟩ := src.backed.located g b
    rw [hasData, located] at h
    rw [block, resolveBlock, located]
    cases r with
    | none => rfl
    | some e =>
      have empty : e.compressed.length = 0 := by simpa using h
      simp [Codec.fetchBlock, empty]
  rw [zero]
  change (BlockData.fill g.blockSize 0).get i = 0
  simp [BlockData.get, BlockData.fill]

theorem block_eq_line {deviceSize blockSize : Nat} {v : ReadView}
    (fresh : openFreshActive deviceSize blockSize = some v) (src : Source C) (b : Nat) :
    v.block src.store src.manifest b = some (src.line blockSize b) := by
  obtain ⟨-, fresh⟩ := Option.ite_none_left_eq_some.mp fresh
  cases fresh
  obtain ⟨r, located⟩ := src.backed.located g b
  obtain ⟨d, resolved⟩ := src.backed.resolves g b
  simp only [ReadView.block, ReadView.locate, SparseBlockState.hasLocalData, located, Source.line,
    Source.hasData, Source.block, resolved, Option.getD_some, Bool.false_eq_true, if_false]
  rw [resolveBlock, located] at resolved
  cases r with
  | none => rfl
  | some e =>
    by_cases empty : e.compressed = []
    · simp [empty, ReadView.fetch]
    · simp only at resolved
      simp [empty, ReadView.fetch, resolved]

section Lines

variable {src : Source C} {deviceSize blockSize b : Nat}

/-- A block with data serves its part of the content if it is long enough and has the bytes. -/
theorem serves_data (data : src.hasData b = true) :
    Serves blockSize deviceSize (src.line blockSize) src.content b ↔
      (∀ i < blockSize, b * blockSize + i < deviceSize →
        i < g.blockSize ∧ (src.block b).get i = src.content (b * blockSize + i)) ∧
      ((b + 1) * blockSize < deviceSize → g.blockSize = blockSize) := by
  have line : src.line blockSize b = (List.range g.blockSize).map (src.block b).get := if_pos data
  constructor
  · intro serves
    refine ⟨fun i small inside => ?_, fun more => ?_⟩
    · have there := serves.value i small inside
      rw [line, List.getElem?_map] at there
      obtain ⟨k, at_i, value⟩ := Option.map_eq_some_iff.mp there
      obtain ⟨short, rfl⟩ := List.getElem?_eq_some_iff.mp at_i
      simp only [List.length_range, List.getElem_range] at short value
      exact ⟨short, value⟩
    · simpa [line] using serves.full more
  · rintro ⟨value, full⟩
    refine ⟨fun i small inside => ?_, fun more => ?_⟩
    · obtain ⟨short, value⟩ := value i small inside
      rw [line, List.getElem?_map, List.getElem?_range short, Option.map_some, value]
    · simpa [line] using full more

/-- A block without data serves zeros. -/
theorem serves_zero (data : src.hasData b = false) :
    Serves blockSize deviceSize (src.line blockSize) src.content b ↔
      ∀ i < blockSize, b * blockSize + i < deviceSize → src.content (b * blockSize + i) = 0 := by
  have line : src.line blockSize b = List.replicate blockSize 0 := by
    simp [Source.line, data]
  constructor
  · intro serves i small inside
    have there := serves.value i small inside
    rw [line, List.getElem?_replicate_of_lt small] at there
    exact (Option.some.inj there).symm
  · intro zero
    refine ⟨fun i small inside => ?_, fun _ => by simp [line]⟩
    rw [line, List.getElem?_replicate_of_lt small, zero i small inside]

end Lines

/-! ## Which forks read as their source -/

section Decides

variable {src : Source C} {deviceSize blockSize : Nat}

theorem content_of_lt {x : Nat} (h : x < g.size) : src.content x = src.byte x := if_pos h

theorem content_of_ge {x : Nat} (h : g.size ≤ x) : src.content x = 0 := if_neg (by omega)

/-- Bytes of a block without data are zero. -/
theorem byte_eq_zero {x : Nat} (data : src.hasData (x / g.blockSize) = false) : src.byte x = 0 :=
  Source.block_of_not_hasData data _

/-- With equal block sizes, or one block smaller than both, a block of the fork is the block of
    the source. -/
theorem serves_of_sameBlocks (same : SameBlocks g deviceSize blockSize)
    (ends : src.EndsBefore deviceSize) {b : Nat} (inside : b * blockSize < deviceSize) :
    Serves blockSize deviceSize (src.line blockSize) src.content b := by
  have place (i : Nat) (small : i < blockSize) (within : b * blockSize + i < deviceSize) :
      i < g.blockSize ∧ (b * blockSize + i) / g.blockSize = b ∧
        (b * blockSize + i) % g.blockSize = i := by
    rcases same with same | one
    · rw [same] at small ⊢
      refine ⟨small, ?_, ?_⟩
      · rw [Nat.mul_comm, Nat.mul_add_div g.blockSize_pos, Nat.div_eq_of_lt small, Nat.add_zero]
      · rw [Nat.mul_comm, Nat.mul_add_mod, Nat.mod_eq_of_lt small]
    · have first : b = 0 := by
        by_contra later
        have := Nat.le_mul_of_pos_left blockSize (Nat.pos_of_ne_zero later)
        omega
      subst first
      have short : i < g.blockSize := by omega
      simp [Nat.div_eq_of_lt short, Nat.mod_eq_of_lt short, short]
  have value (i : Nat) (small : i < blockSize) (within : b * blockSize + i < deviceSize) :
      (src.block b).get i = src.content (b * blockSize + i) := by
    obtain ⟨-, block, rest⟩ := place i small within
    have byte : src.byte (b * blockSize + i) = (src.block b).get i := by
      rw [Source.byte, block, rest]
    by_cases below : b * blockSize + i < g.size
    · rw [content_of_lt below, byte]
    · rw [content_of_ge (by omega), ← byte, ends _ (by omega) within]
  cases data : src.hasData b with
  | true =>
    refine (serves_data data).mpr ⟨fun i small within => ⟨(place i small within).1, value i small within⟩,
      fun more => ?_⟩
    rcases same with same | one
    · exact same.symm
    · have : (b + 1) * blockSize = b * blockSize + blockSize := by ring
      omega
  | false =>
    refine (serves_zero data).mpr fun i small within => ?_
    rw [← value i small within, Source.block_of_not_hasData data]

theorem serves_of_blank (blank : src.Blank deviceSize blockSize) {b : Nat}
    (inside : b * blockSize < deviceSize) :
    Serves blockSize deviceSize (src.line blockSize) src.content b := by
  have zero (x : Nat) : src.content x = 0 := by
    rw [Source.content]
    split
    · rename_i below
      exact blank.zero x below
    · rfl
  cases data : src.hasData b with
  | true =>
    obtain ⟨short, zeros⟩ := blank.looked b inside data
    refine (serves_data data).mpr ⟨fun i small within => ⟨by omega, ?_⟩, fun more => ?_⟩
    · rw [zeros i (by omega), zero]
    · have : (b + 1) * blockSize = b * blockSize + blockSize := by ring
      omega
  | false => exact (serves_zero data).mpr fun i _ _ => zero _

/-- With the block sizes of the source every position shows the source's byte. -/
theorem endsBefore_of_serves (same : SameBlocks g deviceSize blockSize)
    (serves : ∀ b, b * blockSize < deviceSize →
      Serves blockSize deviceSize (src.line blockSize) src.content b) :
    src.EndsBefore deviceSize := by
  intro x beyond inside
  have place : ∃ b i, x = b * blockSize + i ∧ i < blockSize ∧ x / g.blockSize = b ∧
      x % g.blockSize = i := by
    rcases same with same | one
    · refine ⟨x / g.blockSize, x % g.blockSize, ?_, ?_, rfl, rfl⟩
      · rw [same, Nat.mul_comm, Nat.div_add_mod]
      · rw [same]
        exact Nat.mod_lt _ g.blockSize_pos
    · have short : x < g.blockSize := by omega
      exact ⟨0, x, by simp, by omega, Nat.div_eq_of_lt short, Nat.mod_eq_of_lt short⟩
  obtain ⟨b, i, at_x, small, block, rest⟩ := place
  have byte : src.byte x = (src.block b).get i := by rw [Source.byte, block, rest]
  cases data : src.hasData b with
  | true =>
    have served := ((serves_data data).mp (serves b (by omega))).1 i small (by omega)
    rw [byte, served.2, ← at_x, content_of_ge beyond]
  | false => rw [byte, Source.block_of_not_hasData data]

/-- With other block sizes only the last block of the device may have data. -/
theorem data_last (other : ¬SameBlocks g deviceSize blockSize)
    (serves : ∀ b, b * blockSize < deviceSize →
      Serves blockSize deviceSize (src.line blockSize) src.content b) {b : Nat}
    (inside : b * blockSize < deviceSize) (data : src.hasData b = true) :
    0 < b ∧ deviceSize - b * blockSize ≤ min blockSize g.blockSize := by
  obtain ⟨sizes, several⟩ := not_or.mp other
  obtain ⟨value, full⟩ := (serves_data data).mp (serves b inside)
  have next : (b + 1) * blockSize = b * blockSize + blockSize := by ring
  have last : deviceSize ≤ (b + 1) * blockSize := by
    by_contra more
    exact sizes (full (by omega)).symm
  have short := (value (deviceSize - b * blockSize - 1) (by omega) (by omega)).1
  refine ⟨Nat.pos_of_ne_zero fun first => ?_, by omega⟩
  subst first
  omega

/-- The part of the last block that is read is zero: each of its bytes is the source's byte at an
    earlier position of the device, which is zero or again a byte of this block, further to the
    front. -/
theorem last_zero (other : ¬SameBlocks g deviceSize blockSize)
    (serves : ∀ b, b * blockSize < deviceSize →
      Serves blockSize deviceSize (src.line blockSize) src.content b) {b : Nat}
    (inside : b * blockSize < deviceSize) (data : src.hasData b = true) {i : Nat}
    (small : i < deviceSize - b * blockSize) : (src.block b).get i = 0 := by
  obtain ⟨later, short⟩ := data_last other serves inside data
  have only {c : Nat} (at_c : c * blockSize < deviceSize) (data_c : src.hasData c = true) : c = b := by
    have short_c := (data_last other serves at_c data_c).2
    rcases Nat.lt_trichotomy c b with less | same | more
    · have := Nat.mul_le_mul_right blockSize (Nat.succ_le_of_lt less)
      have : (c + 1) * blockSize = c * blockSize + blockSize := by ring
      simp only [Nat.succ_eq_add_one] at *
      omega
    · exact same
    · have := Nat.mul_le_mul_right blockSize (Nat.succ_le_of_lt more)
      have : (b + 1) * blockSize = b * blockSize + blockSize := by ring
      simp only [Nat.succ_eq_add_one] at *
      omega
  have value := ((serves_data data).mp (serves b inside)).1
  induction i using Nat.strong_induction_on with
  | _ i ih =>
    rw [(value i (by omega) (by omega)).2]
    by_cases below : b * blockSize + i < g.size
    · rw [content_of_lt below]
      rcases Nat.lt_or_ge blockSize g.blockSize with less | more
      · have shift : b * blockSize < b * g.blockSize := Nat.mul_lt_mul_of_pos_left less later
        cases data_c : src.hasData ((b * blockSize + i) / g.blockSize) with
        | false => exact byte_eq_zero data_c
        | true =>
          have whole := Nat.div_mul_le_self (b * blockSize + i) g.blockSize
          have narrow := Nat.mul_le_mul_left ((b * blockSize + i) / g.blockSize) less.le
          have here := only (by omega) data_c
          have split := Nat.div_add_mod' (b * blockSize + i) g.blockSize
          rw [here] at split
          rw [Source.byte, here]
          exact ih _ (by omega) (by omega)
      · have wider : g.blockSize < blockSize :=
          lt_of_le_of_ne more fun same => other (.inl same.symm)
        have shift : b * g.blockSize < b * blockSize := Nat.mul_lt_mul_of_pos_left wider later
        -- the byte belongs to an earlier position of the source, where the fork shows it too
        have byte : src.byte (b * g.blockSize + i) = (src.block b).get i := by
          rw [Source.byte, Nat.mul_comm b, Nat.mul_add_div g.blockSize_pos,
            Nat.div_eq_of_lt (by omega), Nat.mul_add_mod, Nat.mod_eq_of_lt (by omega), Nat.add_zero]
        have back : src.content (b * g.blockSize + i) = (src.block b).get i := by
          rw [content_of_lt (by omega), byte]
        rw [← content_of_lt below, ← (value i (by omega) (by omega)).2, ← back]
        have split := Nat.div_add_mod' (b * g.blockSize + i) blockSize
        have rest := Nat.mod_lt (b * g.blockSize + i) (by omega : 0 < blockSize)
        have at_c : (b * g.blockSize + i) / blockSize * blockSize < deviceSize := by omega
        cases data_c : src.hasData ((b * g.blockSize + i) / blockSize) with
        | false =>
          have zero := (serves_zero data_c).mp (serves _ at_c) _ rest (by omega)
          rwa [split] at zero
        | true =>
          have shown := (((serves_data data_c).mp (serves _ at_c)).1 _ rest (by omega)).2
          rw [split] at shown
          have here := only at_c data_c
          rw [here] at split shown
          rw [← shown]
          exact ih _ (by omega) (by omega)
    · exact content_of_ge (by omega)

theorem blank_of_serves (other : ¬SameBlocks g deviceSize blockSize) (pos : 0 < blockSize)
    (covers : g.size ≤ deviceSize)
    (serves : ∀ b, b * blockSize < deviceSize →
      Serves blockSize deviceSize (src.line blockSize) src.content b) :
    src.Blank deviceSize blockSize where
  zero x below := by
    have split := Nat.div_add_mod' x blockSize
    have rest := Nat.mod_lt x pos
    have inside : x / blockSize * blockSize < deviceSize := by omega
    rw [← content_of_lt below]
    cases data : src.hasData (x / blockSize) with
    | false =>
      have zero := (serves_zero data).mp (serves _ inside) _ rest (by omega)
      rwa [split] at zero
    | true =>
      have shown := (((serves_data data).mp (serves _ inside)).1 _ rest (by omega)).2
      rw [split] at shown
      rw [← shown]
      exact last_zero other serves inside data (by omega)
  looked b inside data :=
    ⟨(data_last other serves inside data).2, fun i small => last_zero other serves inside data small⟩

end Decides

/-- A fork reads as its source, with zeros above the source's size, exactly if the block sizes
    agree (or the one block of the device is smaller than both) and the source has nothing above
    its size, or if the source is blank. -/
theorem fork_reads_source_iff {defaultBlockSize : Nat} {src : Source C} {req : ForkRequest}
    {v : ReadView} (made : createFork defaultBlockSize src req = some v) :
    (∀ offset len, offset + len ≤ req.deviceSize g →
      v.read src.store src.manifest offset len = some ((List.range' offset len).map src.content)) ↔
    SameBlocks g (req.deviceSize g) (req.blockSizeOr defaultBlockSize) ∧
        src.EndsBefore (req.deviceSize g) ∨
      src.Blank (req.deviceSize g) (req.blockSizeOr defaultBlockSize) := by
  have pos : 0 < req.blockSizeOr defaultBlockSize := by
    obtain ⟨valid, -⟩ := Option.ite_none_left_eq_some.mp made
    exact Nat.pos_of_ne_zero fun zero => valid (.inl zero)
  have covers : g.size ≤ req.deviceSize g := le_max_right _ _
  have assembled {offset len : Nat} (some_len : 0 < len) (inside : offset + len ≤ req.deviceSize g) :
      v.read src.store src.manifest offset len = _ :=
    ReadView.read_fresh made (block_eq_line made src) some_len inside
  constructor
  · intro right
    have serves (b : Nat) (_ : b * req.blockSizeOr defaultBlockSize < req.deviceSize g) :=
      serves_of_assemble (b := b) pos fun offset len some_len inside =>
        (assembled some_len inside).symm.trans (right offset len inside)
    by_cases same : SameBlocks g (req.deviceSize g) (req.blockSizeOr defaultBlockSize)
    · exact .inl ⟨same, endsBefore_of_serves same serves⟩
    · exact .inr (blank_of_serves same pos covers serves)
  · intro holds offset len inside
    rcases Nat.eq_zero_or_pos len with rfl | some_len
    · obtain ⟨-, fresh⟩ := Option.ite_none_left_eq_some.mp made
      cases fresh
      rw [ReadView.read, if_neg (by simpa using inside), if_pos rfl]
      rfl
    · rw [assembled some_len inside]
      refine assemble_of_serves pos (fun b within => ?_) some_len inside
      rcases holds with ⟨same, ends⟩ | blank
      · exact serves_of_sameBlocks same ends within
      · exact serves_of_blank blank within

section Stored

variable [DecidableEq PackId]

/-- A pack with the first block of its chunk. -/
def firstBlockPack (C : Codec (BlockData g.blockSize) Hash PackId) (d : BlockData g.blockSize) :
    Pack C where
  blocks := [packBlock C 3 0 d]
  distinct := List.nodup_singleton _
  sound e mem := by
    rw [List.mem_singleton.mp mem]
    exact packBlock_sound C 3 0 d

theorem chunkPackIds_firstBlock (id : PackId) (c : Nat) :
    (VolumeManifest.new.appendPack 0 id (some 1)).chunkPackIds c = if c = 0 then [id] else [] := by
  rw [VolumeManifest.chunkPackIds_appendPack]
  rfl

/-- A volume with nothing but its first block. -/
def firstBlockStored (C : Codec (BlockData g.blockSize) Hash PackId) (d : BlockData g.blockSize) :
    Source C where
  store := PackStore.empty.streamChunkPack 0 (firstBlockPack C d)
  manifest := VolumeManifest.new.appendPack 0 (firstBlockPack C d).packId (some 1)
  backed c id mem := by
    rw [chunkPackIds_firstBlock] at mem
    split at mem
    · rename_i first
      rw [first, List.mem_singleton.mp mem, PackStore.streamChunkPack_self]
      rfl
    · cases mem

theorem firstBlockStored_hasData (C : Codec (BlockData g.blockSize) Hash PackId)
    {d : BlockData g.blockSize} (nonzero : d ≠ 0) : (firstBlockStored C d).hasData 0 = true := by
  have chunk : g.chunkIdxForBlock 0 = 0 := by simp [Geometry.chunkIdxForBlock]
  have off : g.blockOffsetInChunk 0 = 0 := Nat.zero_mod _
  have found : (firstBlockPack C d).find 0 = some (packBlock C 3 0 d) :=
    Pack.find_of_mem (p := firstBlockPack C d) (List.mem_singleton_self _)
  have stored : (firstBlockStored C d).store.get 0 (firstBlockPack C d).packId = some _ :=
    PackStore.streamChunkPack_self _ 0 (firstBlockPack C d)
  have located : locateBlock g (firstBlockStored C d).store (firstBlockStored C d).manifest 0 =
      some (some (packBlock C 3 0 d)) := by
    have listed : (firstBlockStored C d).manifest.chunkPackIds 0 = [(firstBlockPack C d).packId] :=
      chunkPackIds_firstBlock _ 0
    rw [locateBlock, chunk, off, listed, List.reverse_singleton, locateIn_cons stored, found]
    rfl
  rw [Source.hasData, located]
  simp [packBlock, nonzero, C.compress_nonempty]

end Stored

/-- A volume of one GiB in blocks of 4 KiB whose first block is filled with ones. -/
def gibStored : Source (g := .gib4k) (.plain _) := firstBlockStored _ (.fill _ 1)

theorem fill_one_ne_zero : BlockData.fill Geometry.gib4k.blockSize 1 ≠ 0 := by
  intro same
  have := congrArg (fun d => d.get 0) same
  revert this
  decide

/-- The fork of a volume with blocks of 4 KiB on a node whose default is 128 KiB does not read as
    its source. -/
theorem fork_default_block_size_wrong : ∃ v,
    createFork 131072 gibStored ⟨1073741824, none⟩ = some v ∧
      ¬∀ offset len, offset + len ≤ 1073741824 →
        v.read (g := .gib4k) gibStored.store gibStored.manifest offset len =
          some ((List.range' offset len).map gibStored.content) := by
  have made : createFork 131072 gibStored ⟨1073741824, none⟩ = some _ := rfl
  refine ⟨_, made, fun right => ?_⟩
  have serves : Serves 131072 1073741824 (gibStored.line 131072) gibStored.content 0 :=
    serves_of_assemble (by decide) fun offset len some_len inside =>
      (ReadView.read_fresh made (block_eq_line made gibStored) some_len inside).symm.trans
        (right offset len inside)
  have data : gibStored.hasData 0 = true := firstBlockStored_hasData _ fill_one_ne_zero
  have short := (((serves_data data).mp serves).1 4096 (by decide) (by decide)).1
  exact absurd short (by decide)

/-- With the block size of the source in the request it does. -/
theorem fork_same_block_size_reads : ∃ v,
    createFork 131072 gibStored ⟨1073741824, some 4096⟩ = some v ∧
      ∀ offset len, offset + len ≤ 1073741824 →
        v.read (g := .gib4k) gibStored.store gibStored.manifest offset len =
          some ((List.range' offset len).map gibStored.content) := by
  have made : createFork 131072 gibStored ⟨1073741824, some 4096⟩ = some _ := rfl
  refine ⟨_, made, (fork_reads_source_iff made).mpr (.inl ⟨.inl rfl, fun x beyond inside => ?_⟩)⟩
  exact absurd inside (not_lt.mpr beyond)

end GlideFS.Router
