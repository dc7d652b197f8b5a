import GlideFS.Block.StateMap
import GlideFS.WriteCache.Metadata

/-! # The metadata file

`save_block_states` writes the present entries of the state map, `load_metadata` sets them in a
new map, which may have more blocks. An index is saved in 32 bits.
-/

namespace GlideFS.WriteCache.MetadataFile

open Block Lib SparseStateMap

structure Config extends CacheConfig where
  blockSize_fits : blockSize < 2 ^ 64

def metadataMagic : List UInt8 := [0x47, 0x4c, 0x49, 0x44, 0x45, 0x43, 0x43, 0x48]

def metadataVersion : Nat := 5

-- `crc32_iscsi`
variable (crc : List UInt8 → UInt32)

/-! ## Saving -/

/-- `idx as u32`. -/
def asU32 (idx : Nat) : Nat := idx % 2 ^ 32

def entryBytes (e : Nat × UInt8) : List UInt8 := leBytes 4 (asU32 e.1) ++ [e.2]

def headerBytes (c : Config) : List UInt8 :=
  metadataMagic ++ leBytes 4 metadataVersion ++ leBytes 8 c.deviceSize ++ leBytes 8 c.blockSize ++
    leBytes 8 c.numBlocks

def bodyBytes (c : Config) (entries : List (Nat × UInt8)) (sequence rotationSeq : UInt64) :
    List UInt8 :=
  headerBytes c ++ (leBytes 8 entries.length ++ (entries.flatMap entryBytes ++
    (leBytes 8 sequence.toNat ++ leBytes 8 rotationSeq.toNat)))

/-- `save_block_states`. -/
def saveBlockStates (c : Config) (m : SparseStateMap) (sequence rotationSeq : UInt64) :
    List UInt8 :=
  let body := bodyBytes c m.iterPresent sequence rotationSeq
  body ++ leBytes 4 (crc body).toNat

/-! ## Loading -/

inductive LoadError where
  | io
  | invalidMetadata
  | unsupportedVersion (version : Nat)

abbrev Bytes := List UInt8

def readExact (k : Nat) (bytes : Bytes) : Except LoadError (Bytes × Bytes) :=
  if k ≤ bytes.length then .ok (bytes.take k, bytes.drop k) else .error .io

def checkHeader (c : Config) (header : Bytes) : Except LoadError Unit :=
  if header.take 8 ≠ metadataMagic then .error .invalidMetadata
  else if ofLeBytes ((header.drop 20).take 8) ≠ c.blockSize then .error .invalidMetadata
  else if c.deviceSize < ofLeBytes ((header.drop 12).take 8) then .error .invalidMetadata
  else
    let version := ofLeBytes ((header.drop 8).take 4)
    if version < 4 then .error (.unsupportedVersion version) else .ok ()

/-- The state map and the count of blocks that need a flush. -/
def loadEntry (numBlocks : Nat) (s : SparseStateMap × Nat) (entry : Bytes) : SparseStateMap × Nat :=
  let idx := ofLeBytes (entry.take 4)
  let state := (entry.drop 4).headD 0
  if numBlocks ≤ idx then s
  else
    let m := (s.1.trySetPresent idx).2
    (if state ≠ SparseBlockState.clean.code then (m.cas idx SparseBlockState.clean.code state).2 else m,
      if state = SparseBlockState.dirty.code ∨ state = SparseBlockState.syncing.code then s.2 + 1
      else s.2)

def loadEntries (numBlocks : Nat) :
    Nat → Bytes → SparseStateMap × Nat → Except LoadError ((SparseStateMap × Nat) × Bytes)
  | 0, bytes, s => .ok (s, bytes)
  | k + 1, bytes, s => do
      let (entry, bytes) ← readExact 5 bytes
      loadEntries numBlocks k bytes (loadEntry numBlocks s entry)

structure Loaded where
  stateMap : SparseStateMap
  dirtyCount : Nat
  maxSequence : Nat
  rotationSeq : Nat

/-- `load_metadata`. -/
def loadMetadata (c : Config) : Option Bytes → Except LoadError Loaded
  | none => .ok ⟨new c.numBlocks, 0, 0, 0⟩
  | some file => do
      let (header, rest) ← readExact 36 file
      checkHeader c header
      let (count, rest) ← readExact 8 rest
      let (loaded, rest) ← loadEntries c.numBlocks (ofLeBytes count) rest (new c.numBlocks, 0)
      let (seq, rest) ← readExact 8 rest
      let (rot, rest) ← readExact 8 rest
      let computed := crc (file.take (file.length - rest.length))
      let (stored, _) ← (readExact 4 rest).mapError fun _ => .invalidMetadata
      if ofLeBytes stored ≠ computed.toNat then .error .invalidMetadata
      else .ok ⟨loaded.1, loaded.2, ofLeBytes seq, ofLeBytes rot⟩

/-! ## The bytes are read back -/

theorem readExact_append {k : Nat} {a : Bytes} (len : a.length = k) (b : Bytes) :
    readExact k (a ++ b) = .ok (a, b) := by
  rw [readExact, if_pos (by simp [len]), List.take_left' len, List.drop_left' len]

theorem readExact_all {k : Nat} {a : Bytes} (len : a.length = k) : readExact k a = .ok (a, []) := by
  simpa using readExact_append len []

theorem readExact_ok {k : Nat} {bytes first rest : Bytes}
    (read : readExact k bytes = .ok (first, rest)) :
    bytes.length = k + rest.length ∧ first = bytes.take k ∧ rest = bytes.drop k := by
  unfold readExact at read
  split at read
  · cases read
    simp
    omega
  · cases read

theorem length_headerBytes (c : Config) : (headerBytes c).length = 36 := by
  simp [headerBytes, metadataMagic]

theorem checkHeader_headerBytes {c c' : Config} (grown : c.deviceSize ≤ c'.deviceSize)
    (same : c'.blockSize = c.blockSize) : checkHeader c' (headerBytes c) = .ok () := by
  have version : ofLeBytes (((headerBytes c).drop 8).take 4) = 5 := by
    have slice : ((headerBytes c).drop 8).take 4 = leBytes 4 metadataVersion := by
      simp [headerBytes, metadataMagic]
    rw [slice]
    exact ofLeBytes_leBytes (by decide)
  have size : ofLeBytes (((headerBytes c).drop 12).take 8) = c.deviceSize := by
    have slice : ((headerBytes c).drop 12).take 8 = leBytes 8 c.deviceSize := by
      simp [headerBytes, metadataMagic]
    rw [slice]
    exact ofLeBytes_leBytes c.deviceSize_fits
  have block : ofLeBytes (((headerBytes c).drop 20).take 8) = c.blockSize := by
    have slice : ((headerBytes c).drop 20).take 8 = leBytes 8 c.blockSize := by
      simp [headerBytes, metadataMagic, List.take_append, List.drop_append]
    rw [slice]
    exact ofLeBytes_leBytes c.blockSize_fits
  have magic : (headerBytes c).take 8 = metadataMagic := by
    simp [headerBytes, metadataMagic]
  rw [checkHeader, if_neg (not_not.mpr magic), block, if_neg (not_not.mpr same.symm), size,
    if_neg (by omega), version]
  rfl

theorem loadEntries_flatMap (numBlocks : Nat) (entries : List (Nat × UInt8)) (rest : Bytes)
    (s : SparseStateMap × Nat) :
    loadEntries numBlocks entries.length (entries.flatMap entryBytes ++ rest) s =
      .ok (entries.foldl (fun s e => loadEntry numBlocks s (entryBytes e)) s, rest) := by
  induction entries generalizing s with
  | nil => rfl
  | cons e more ih =>
    rw [List.flatMap_cons, List.append_assoc, List.length_cons, loadEntries,
      readExact_append (by simp [entryBytes])]
    exact ih _

theorem loadMetadata_saved {c c' : Config} {entries : List (Nat × UInt8)}
    (sequence rotationSeq : UInt64) (grown : c.deviceSize ≤ c'.deviceSize)
    (same : c'.blockSize = c.blockSize) (few : entries.length < 256 ^ 8) :
    loadMetadata crc c' (some (bodyBytes c entries sequence rotationSeq ++
        leBytes 4 (crc (bodyBytes c entries sequence rotationSeq)).toNat)) =
      let loaded := entries.foldl (fun s e => loadEntry c'.numBlocks s (entryBytes e))
        (new c'.numBlocks, 0)
      .ok ⟨loaded.1, loaded.2, sequence.toNat, rotationSeq.toNat⟩ := by
  generalize sum : (crc (bodyBytes c entries sequence rotationSeq)).toNat = stored
  have small : stored < 256 ^ 4 := sum ▸ (crc _).toNat_lt
  have computed : (bodyBytes c entries sequence rotationSeq ++ leBytes 4 stored).take
      ((bodyBytes c entries sequence rotationSeq ++ leBytes 4 stored).length -
        (leBytes 4 stored).length) = bodyBytes c entries sequence rotationSeq := by
    rw [List.length_append, Nat.add_sub_cancel, List.take_left' rfl]
  simp only [loadMetadata]
  generalize whole : bodyBytes c entries sequence rotationSeq ++ leBytes 4 stored = file at computed ⊢
  have parts : file = headerBytes c ++ (leBytes 8 entries.length ++ (entries.flatMap entryBytes ++
      (leBytes 8 sequence.toNat ++ (leBytes 8 rotationSeq.toNat ++ leBytes 4 stored)))) := by
    simp [← whole, bodyBytes]
  simp only [parts, readExact_append (length_headerBytes c), checkHeader_headerBytes grown same,
    readExact_append (length_leBytes _ _), ofLeBytes_leBytes few, loadEntries_flatMap,
    readExact_all (length_leBytes _ _), Except.mapError, bind, Except.bind]
  rw [← parts, computed, ofLeBytes_leBytes small, sum, if_neg (not_not.mpr rfl),
    ofLeBytes_leBytes sequence.toNat_lt, ofLeBytes_leBytes rotationSeq.toNat_lt]

/-! ## What the loop sets -/

section

variable {n n' : Nat} {m : SparseStateMap}

/-- `set_present` and the swap to the saved state. -/
def place (b : States n) (k : Nat) (state : SparseBlockState) : States n :=
  if h : k < n then
    let b := (casArray b ⟨k, h⟩ .notPresent .clean).2
    if state = .clean then b else (casArray b ⟨k, h⟩ .clean state).2
  else b

theorem casArray_of_ne {b : States n} {i j : Fin n} (expected state : SparseBlockState)
    (other : j ≠ i) : (casArray b i expected state).2 j = b j := by
  unfold casArray
  split
  · exact Function.update_of_ne other _ _
  · rfl

theorem place_of_ne {b : States n} {k : Nat} {j : Fin n} (state : SparseBlockState)
    (other : j.val ≠ k) : place b k state j = b j := by
  unfold place
  split
  · rename_i inside
    have ne : j ≠ ⟨k, inside⟩ := fun same => other (congrArg Fin.val same)
    split
    · exact casArray_of_ne _ _ ne
    · rw [casArray_of_ne _ _ ne, casArray_of_ne _ _ ne]
  · rfl

theorem place_absent {b : States n} {j : Fin n} (absent : b j = .notPresent)
    (state : SparseBlockState) :
    place b j state = Function.update b j state := by
  simp only [place, j.isLt, dite_true, casArray, Fin.eta, absent, if_true, Function.update_self,
    Function.update_idem]
  split
  · rename_i clean
    rw [clean]
  · rfl

theorem asU32_lt (k : Nat) : asU32 k < 2 ^ 32 := Nat.mod_lt k (by decide)

theorem loadEntry_place {b : States n} {s : SparseStateMap × Nat} (rep : Represents s.1 b) (k : Nat)
    (state : SparseBlockState) :
    Represents (loadEntry n s (entryBytes (k, state.code))).1 (place b (asU32 k) state) ∧
      (loadEntry n s (entryBytes (k, state.code))).2 =
        if asU32 k < n ∧ (state = .dirty ∨ state = .syncing) then s.2 + 1 else s.2 := by
  have index : ofLeBytes ((entryBytes (k, state.code)).take 4) = asU32 k := by
    rw [entryBytes, List.take_left' (length_leBytes 4 _)]
    exact ofLeBytes_leBytes (asU32_lt k)
  have code : ((entryBytes (k, state.code)).drop 4).headD 0 = state.code := by
    rw [entryBytes, List.drop_left' (length_leBytes 4 _)]
    rfl
  simp only [loadEntry, index, code]
  by_cases inside : asU32 k < n
  · rw [if_neg (Nat.not_le.mpr inside)]
    have claimed := (rep.trySetPresent ⟨_, inside⟩).2
    refine ⟨?_, by simp only [code_inj, inside, true_and]⟩
    simp only [place, inside, dite_true, Ne, code_inj]
    by_cases clean : state = .clean
    · rw [if_neg (not_not.mpr clean), if_pos clean]
      exact claimed
    · rw [if_pos clean, if_neg clean]
      exact (claimed.cas ⟨_, inside⟩ .clean state).2
  · rw [if_pos (Nat.not_lt.mp inside)]
    refine ⟨?_, by simp [inside]⟩
    simpa only [place, inside, dite_false] using rep

/-- The array that the entries of some blocks make. -/
def placed (a : States n) (b : States n') (is : List (Fin n)) : States n' :=
  is.foldl (fun b (i : Fin n) => place b (asU32 i) (a i)) b

/-- The entry of a block as it is saved. -/
def saved (a : States n) (i : Fin n) : Nat × UInt8 := (i, (a i).code)

theorem foldl_loadEntry {b : States n'} {s : SparseStateMap × Nat} (rep : Represents s.1 b)
    (a : States n) (is : List (Fin n)) (le : n ≤ n') :
    let loaded := (is.map (saved a)).foldl (fun s e => loadEntry n' s (entryBytes e)) s
    Represents loaded.1 (placed a b is) ∧
      loaded.2 = s.2 + is.countP fun i => a i = .dirty ∨ a i = .syncing := by
  induction is generalizing s b with
  | nil => exact ⟨rep, rfl⟩
  | cons i rest ih =>
    obtain ⟨kept, counted⟩ := loadEntry_place rep i (a i)
    obtain ⟨last, total⟩ := ih kept
    refine ⟨last, total.trans ?_⟩
    have inside : asU32 i.val < n' := (Nat.mod_le _ _).trans_lt (i.isLt.trans_le le)
    rw [counted, List.countP_cons]
    by_cases waits : a i = .dirty ∨ a i = .syncing
    · simp only [waits, inside, and_self, if_true, decide_true]
      omega
    · simp [waits]

/-- No entry reaches a block whose index does not fit 32 bits. -/
theorem placed_of_large (a : States n) (b : States n') (is : List (Fin n)) {j : Fin n'}
    (large : 2 ^ 32 ≤ j.val) : placed a b is j = b j := by
  induction is generalizing b with
  | nil => rfl
  | cons i rest ih =>
    have other : j.val ≠ asU32 i.val := ((asU32_lt i.val).trans_le large).ne'
    exact (ih _).trans (place_of_ne _ other)

def stateAt (a : States n) (k : Nat) : SparseBlockState := if h : k < n then a ⟨k, h⟩ else .notPresent

theorem stateAt_val (a : States n) (i : Fin n) : stateAt a i = a i := dif_pos i.isLt

theorem placed_of_small {a : States n} {b : States n'} {is : List (Fin n)} (le : n ≤ n')
    (distinct : is.Nodup) (small : ∀ i ∈ is, i.val < 2 ^ 32)
    (absent : ∀ i ∈ is, b (i.castLE le) = .notPresent) (j : Fin n') :
    placed a b is j = if j.val ∈ is.map Fin.val then stateAt a j else b j := by
  induction is generalizing b with
  | nil => simp [placed]
  | cons i rest ih =>
    obtain ⟨fresh, distinct⟩ := List.nodup_cons.mp distinct
    have first : place b (asU32 i.val) (a i) = Function.update b (i.castLE le) (a i) := by
      rw [asU32, Nat.mod_eq_of_lt (small i List.mem_cons_self)]
      exact place_absent (absent i List.mem_cons_self) _
    have others : ∀ j : Fin n', j.val ≠ i.val → place b (asU32 i.val) (a i) j = b j := by
      intro j other
      rw [first, Function.update_of_ne]
      exact fun same => other (congrArg Fin.val same)
    have rest_absent : ∀ i' ∈ rest, place b (asU32 i.val) (a i) (i'.castLE le) = .notPresent := by
      intro i' member
      have other : i'.val ≠ i.val := fun same => fresh (Fin.ext same ▸ member)
      rw [others (i'.castLE le) other]
      exact absent i' (List.mem_cons_of_mem i member)
    have later := ih distinct (fun i' m => small i' (List.mem_cons_of_mem i m)) rest_absent
    refine later.trans ?_
    by_cases here : i.val = j.val
    · have set : place b (asU32 i.val) (a i) j = stateAt a j := by
        obtain rfl : j = i.castLE le := Fin.ext here.symm
        rw [first, Function.update_self]
        exact (stateAt_val a i).symm
      rw [set, ite_self, if_pos (by simp [here])]
    · rw [others j (Ne.symm here)]
      simp [Ne.symm here]

/-! ## Save and load -/

/-- Every block as it was, the new ones absent, both numbers, and the blocks to flush counted. -/
structure Reloads (a : States n) (n' : Nat) (sequence rotationSeq : UInt64) (loaded : Loaded) :
    Prop where
  old : ∀ i : Fin n, loaded.stateMap.get i = (a i).code
  grown : ∀ k, n ≤ k → k < n' → loaded.stateMap.get k = SparseBlockState.notPresent.code
  maxSequence : loaded.maxSequence = sequence.toNat
  rotationSeq : loaded.rotationSeq = rotationSeq.toNat
  dirtyCount : loaded.dirtyCount =
    (List.finRange n).countP fun i => a i = .dirty ∨ a i = .syncing

theorem numBlocks_mono {c c' : Config} (grown : c.deviceSize ≤ c'.deviceSize)
    (same : c'.blockSize = c.blockSize) : c.numBlocks ≤ c'.numBlocks := by
  unfold CacheConfig.numBlocks
  rw [same]
  exact Nat.div_le_div_right (by omega)

variable {c c' : Config}

theorem few_entries {a : States c.numBlocks} (rep : Represents m a) :
    m.iterPresent.length < 256 ^ 8 := by
  rw [rep.iterPresent_eq, List.length_map]
  calc _ ≤ (List.finRange c.numBlocks).length := List.length_filter_le _ _
    _ = c.numBlocks := List.length_finRange
    _ ≤ c.deviceSize := c.numBlocks_le
    _ < 256 ^ 8 := c.deviceSize_fits

theorem load_saved {a : States c.numBlocks} (rep : Represents m a) (sequence rotationSeq : UInt64)
    (grown : c.deviceSize ≤ c'.deviceSize) (same : c'.blockSize = c.blockSize) :
    ∃ loaded, loadMetadata crc c' (some (saveBlockStates crc c m sequence rotationSeq)) = .ok loaded ∧
      Represents loaded.stateMap (placed a (fun _ : Fin c'.numBlocks => .notPresent)
        ((List.finRange c.numBlocks).filter fun i => a i ≠ .notPresent)) ∧
      loaded.maxSequence = sequence.toNat ∧ loaded.rotationSeq = rotationSeq.toNat ∧
      loaded.dirtyCount =
        (List.finRange c.numBlocks).countP fun i => a i = .dirty ∨ a i = .syncing := by
  refine ⟨_, loadMetadata_saved crc sequence rotationSeq grown same (few_entries rep), ?_⟩
  have start : Represents ((new c'.numBlocks, 0) : SparseStateMap × Nat).1 _ :=
    represents_new c'.numBlocks
  obtain ⟨kept, counted⟩ := foldl_loadEntry start a
    ((List.finRange c.numBlocks).filter fun i => a i ≠ .notPresent) (numBlocks_mono grown same)
  rw [rep.iterPresent_eq]
  refine ⟨kept, rfl, rfl, counted.trans ?_⟩
  rw [Nat.zero_add, List.countP_filter]
  apply List.countP_congr
  intro i _
  cases a i <;> simp

theorem reloads_iff {a : States c.numBlocks} (rep : Represents m a) (sequence rotationSeq : UInt64)
    (grown : c.deviceSize ≤ c'.deviceSize) (same : c'.blockSize = c.blockSize) :
    (∃ loaded, loadMetadata crc c' (some (saveBlockStates crc c m sequence rotationSeq)) = .ok loaded ∧
      Reloads a c'.numBlocks sequence rotationSeq loaded) ↔
      ∀ i, a i ≠ .notPresent → i.val < 2 ^ 32 := by
  have le := numBlocks_mono grown same
  obtain ⟨loaded, read, kept, seq, rot, counted⟩ := load_saved crc rep sequence rotationSeq grown same
  constructor
  · rintro ⟨_, again, reloads⟩ i present
    cases read.symm.trans again
    by_contra large
    have old := reloads.old i
    have lost := kept.get_eq (i.castLE le)
    rw [placed_of_large a _ _ (show 2 ^ 32 ≤ (i.castLE le).val from Nat.not_lt.mp large)] at lost
    exact present (code_inj.mp (old.symm.trans lost))
  · intro small
    have all : ∀ j : Fin c'.numBlocks, loaded.stateMap.get j = (stateAt a j).code := by
      intro j
      rw [kept.get_eq j, placed_of_small le ((List.nodup_finRange _).filter _)
        (fun i member => small i (by simpa using (List.mem_filter.mp member).2)) (fun _ _ => rfl)]
      split
      · rfl
      · rename_i absent
        rw [stateAt]
        split
        · rename_i inside
          by_contra present
          exact absent (List.mem_map.mpr
            ⟨⟨j, inside⟩, by simpa using fun none => present (by rw [none]), rfl⟩)
        · rfl
    refine ⟨loaded, read, ⟨fun i => ?_, fun k old new => ?_, seq, rot, counted⟩⟩
    · exact (all (i.castLE le)).trans (congrArg _ (stateAt_val a i))
    · rw [all ⟨k, new⟩, stateAt, dif_neg (Nat.not_lt.mpr old)]

/-! ## Truncated files -/

variable {crc}

theorem length_loadEntries {numBlocks k : Nat} {bytes rest : Bytes} {s t : SparseStateMap × Nat}
    (read : loadEntries numBlocks k bytes s = .ok (t, rest)) :
    bytes.length = 5 * k + rest.length := by
  induction k generalizing bytes s with
  | zero =>
    cases read
    simp
  | succ k ih =>
    obtain ⟨⟨entry, later⟩, first, read⟩ := bind_eq_ok.mp read
    have consumed := (readExact_ok first).1
    have more := ih read
    omega

/-- A file that loads is as long as its count of entries says. -/
theorem length_of_load {file : Bytes} {loaded : Loaded}
    (read : loadMetadata crc c' (some file) = .ok loaded) :
    64 + 5 * ofLeBytes ((file.drop 36).take 8) ≤ file.length := by
  simp only [loadMetadata, bind_eq_ok] at read
  obtain ⟨⟨header, rest⟩, first, -, -, ⟨count, rest₁⟩, second, ⟨map, rest₂⟩, third,
    ⟨seq, rest₃⟩, fourth, ⟨rot, rest₄⟩, fifth, ⟨stored, rest₅⟩, sixth, -⟩ := read
  obtain ⟨header_len, -, rfl⟩ := readExact_ok first
  obtain ⟨count_len, rfl, -⟩ := readExact_ok second
  have entries_len := length_loadEntries third
  have seq_len := (readExact_ok fourth).1
  have rot_len := (readExact_ok fifth).1
  have crc_len : 4 ≤ rest₄.length := by
    by_contra short
    simp only [readExact, if_neg short, Except.mapError] at sixth
    cases sixth
  simp only at count_len entries_len seq_len rot_len
  omega

theorem length_entries (entries : List (Nat × UInt8)) :
    (entries.flatMap entryBytes).length = 5 * entries.length := by
  induction entries with
  | nil => rfl
  | cons e rest ih =>
    simp only [List.flatMap_cons, List.length_append, ih, List.length_cons, entryBytes,
      length_leBytes, List.length_nil]
    omega

theorem truncated_fails {entries : List (Nat × UInt8)} (few : entries.length < 256 ^ 8)
    (sequence rotationSeq : UInt64) {trailer : Bytes} (len : trailer.length = 4) {k : Nat}
    (short : k < (bodyBytes c entries sequence rotationSeq ++ trailer).length) (loaded : Loaded) :
    loadMetadata crc c' (some ((bodyBytes c entries sequence rotationSeq ++ trailer).take k)) ≠
      .ok loaded := by
  intro read
  have size : (bodyBytes c entries sequence rotationSeq ++ trailer).length =
      64 + 5 * entries.length := by
    simp only [bodyBytes, List.length_append, length_headerBytes, length_leBytes, length_entries, len]
    omega
  have needed := length_of_load read
  rw [List.length_take, Nat.min_eq_left short.le] at needed
  -- the count of entries is in the part that is left
  have count : (((bodyBytes c entries sequence rotationSeq ++ trailer).take k).drop 36).take 8 =
      leBytes 8 entries.length := by
    rw [List.drop_take, List.take_take, Nat.min_eq_left (by omega), bodyBytes, List.append_assoc,
      List.append_assoc, List.drop_left' (length_headerBytes c),
      List.take_left' (length_leBytes 8 _)]
  rw [count, ofLeBytes_leBytes few] at needed
  omega

/-- **Saved states reload.** What was saved is loaded again, also for a larger device, exactly if
    every present block has an index of 32 bits; and no truncated file is loaded. -/
theorem saved_states_reload_iff (grown : c.deviceSize ≤ c'.deviceSize)
    (same : c'.blockSize = c.blockSize) (calls : List (Call c.numBlocks))
    (sequence rotationSeq : UInt64) :
    let file := saveBlockStates crc c (runCalls Call.onMap (new c.numBlocks) calls).2 sequence rotationSeq
    let states := (runCalls Call.onArray (fun _ => .notPresent) calls).2
    ((∃ loaded, loadMetadata crc c' (some file) = .ok loaded ∧
        Reloads states c'.numBlocks sequence rotationSeq loaded) ↔
      ∀ i, states i ≠ .notPresent → i.val < 2 ^ 32) ∧
    ∀ k < file.length, ∀ loaded, loadMetadata crc c' (some (file.take k)) ≠ .ok loaded := by
  have rep := (calls_agree (represents_new c.numBlocks) calls).2
  exact ⟨reloads_iff crc rep sequence rotationSeq grown same, fun k short loaded =>
    truncated_fails (few_entries rep) sequence rotationSeq (length_leBytes 4 _) short loaded⟩

end

/-! ## Devices that grow and that are too large -/

def sized (device block : Nat)
    (h : (0 < device ∧ device < 2 ^ 64) ∧ 0 < block ∧ block < 2 ^ 64) : Config where
  deviceSize := device
  blockSize := block
  deviceSize_pos := h.1.1
  blockSize_pos := h.2.1
  deviceSize_fits := h.1.2
  blockSize_fits := h.2.2

def oneBlock : Config := sized 4096 4096 (by decide)

def twoBlocks : Config := sized 8192 4096 (by decide)

def first : Fin oneBlock.numBlocks := ⟨0, by decide⟩

/-- A checksum that tells lengths apart. -/
def lengthSum (bytes : List UInt8) : UInt32 := bytes.length.toUInt32

/-- A dirty block is saved and loaded into a device that has grown. -/
theorem dirty_block_reloads :
    ∃ loaded, loadMetadata lengthSum twoBlocks (some (saveBlockStates lengthSum oneBlock
        (runCalls Call.onMap (new oneBlock.numBlocks) [.transitionToDirty first]).2 7 3)) = .ok loaded ∧
      Reloads (runCalls Call.onArray (fun _ => .notPresent) [.transitionToDirty first]).2
        twoBlocks.numBlocks 7 3 loaded :=
  (saved_states_reload_iff (c := oneBlock) (show 4096 ≤ twoBlocks.deviceSize by decide) rfl
    [.transitionToDirty first] 7 3).1.mpr fun i _ => i.isLt.trans (by decide)

/-- A static export of 16385 GB with blocks of 4096 bytes: more blocks than 32 bits can count. -/
def wide : Config := sized (16385 * 2 ^ 30) 4096 (by decide)

/-- The first block whose index does not fit. -/
def beyond : Fin wide.numBlocks := ⟨2 ^ 32, by decide⟩

/-- The block is dirty and is not loaded at all. -/
theorem dirty_block_lost :
    (runCalls Call.onArray (fun _ => .notPresent) [.transitionToDirty beyond]).2 beyond = .dirty ∧
    ∃ loaded, loadMetadata lengthSum wide (some (saveBlockStates lengthSum wide
        (runCalls Call.onMap (new wide.numBlocks) [.transitionToDirty beyond]).2 1 0)) = .ok loaded ∧
      loaded.stateMap.get beyond = SparseBlockState.notPresent.code := by
  have rep := (calls_agree (represents_new wide.numBlocks) [.transitionToDirty beyond]).2
  obtain ⟨loaded, read, kept, -⟩ := load_saved lengthSum rep 1 0 (le_refl _) rfl
  refine ⟨by simp [runCalls, Call.onArray], loaded, read, ?_⟩
  rw [kept.get_eq beyond, placed_of_large _ _ _ (le_refl (2 ^ 32))]

end GlideFS.WriteCache.MetadataFile
