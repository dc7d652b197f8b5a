import GlideFS.Lib.Loops
import Mathlib.Tactic.NormNum

/-! # Reading a file through its extents

The reader turns the extent tree of an inode into a list of physical runs and streams their blocks
one after the other. Where in the file an extent belongs, and whether it was written, is not part of
that list.
-/

namespace GlideFS.Ext4.ExtentReader

open Lib

def blockSize : Nat := 4096

/-- An image of `size` bytes. -/
structure Disk where
  size : Nat
  byte : Nat → UInt8

/-- A block in memory. -/
abbrev Buffer := Nat → UInt8

def Disk.readBlock (d : Disk) (b : Nat) : Except Unit Buffer :=
  if (b + 1) * blockSize ≤ d.size then
    .ok fun k => if k < blockSize then d.byte (b * blockSize + k) else 0
  else .error ()

def leU16 (buf : Buffer) (off : Nat) : Nat := (buf off).toNat + 256 * (buf (off + 1)).toNat

def leU32 (buf : Buffer) (off : Nat) : Nat := leU16 buf off + 65536 * leU16 buf (off + 2)

structure ExtentHeader where
  magic : Nat
  entries : Nat
  depth : Nat

def ExtentHeader.readFrom (buf : Buffer) : ExtentHeader := ⟨leU16 buf 0, leU16 buf 2, leU16 buf 6⟩

/-- `length` blocks from the file's block `block` on are at `start`. A length above 32768 says that
    so many more blocks are not written yet. -/
structure ExtentLeaf where
  block : Nat
  length : Nat
  start : Nat
deriving DecidableEq

def ExtentLeaf.readFrom (buf : Buffer) (off : Nat) : ExtentLeaf :=
  ⟨leU32 buf off, leU16 buf (off + 4), leU32 buf (off + 8) + 2 ^ 32 * leU16 buf (off + 6)⟩

/-- The block of the node that the index entry at `off` leads to. -/
def indexLeaf (buf : Buffer) (off : Nat) : Nat :=
  leU32 buf (off + 4) + 2 ^ 32 * leU16 buf (off + 8)

def extentHeaderMagic : Nat := 0xf30a

def extentNodeSize : Nat := 12

/-- Where the `i`-th entry of a node is. -/
def entryAt (i : Nat) : Nat := extentNodeSize + i * extentNodeSize

def leavesIn (buf : Buffer) (entries : Nat) : List ExtentLeaf :=
  (List.range entries).map fun i => .readFrom buf (entryAt i)

/-- The entries that fit into the 60 bytes of an inode. -/
def maxEntries : Nat := (60 - extentNodeSize) / extentNodeSize

def maxLeafEntries : Nat := (blockSize - extentNodeSize) / extentNodeSize

/-- The extents of one leaf block. -/
def leafNode (d : Disk) (block : Nat) : Except Unit (List ExtentLeaf) := do
  let buf ← d.readBlock block
  let header := ExtentHeader.readFrom buf
  if header.magic ≠ extentHeaderMagic ∨ header.depth ≠ 0 ∨ maxLeafEntries < header.entries then
    .error ()
  else .ok (leavesIn buf header.entries)

/-- All extents of the tree whose root is in the inode. -/
def extentLeaves (d : Disk) (block : Buffer) : Except Unit (List ExtentLeaf) :=
  let header := ExtentHeader.readFrom block
  if header.magic ≠ extentHeaderMagic ∨ maxEntries < header.entries then .error ()
  else if header.depth = 0 then .ok (leavesIn block header.entries)
  else do
    let nodes ← (List.range header.entries).mapM fun i => leafNode d (indexLeaf block (entryAt i))
    .ok nodes.flatten

def resolveExtents (d : Disk) (block : Buffer) : Except Unit (List (Nat × Nat)) := do
  let leaves ← extentLeaves d block
  .ok (leaves.map fun leaf => (leaf.start, leaf.length))

structure Cursor where
  extents : List (Nat × Nat)
  remaining : Nat
  extentIdx : Nat
  blockInExtent : Nat
  offsetInBlock : Nat
  blockBuf : Buffer
  blockLoaded : Bool

def Cursor.new (extents : List (Nat × Nat)) (size : Nat) : Cursor :=
  ⟨extents, size, 0, 0, 0, fun _ => 0, false⟩

def Cursor.extent (r : Cursor) : Nat × Nat := r.extents.getD r.extentIdx (0, 0)

def Cursor.load (d : Disk) (r : Cursor) : Except Unit Cursor :=
  if r.blockLoaded then .ok r
  else do
    let buf ← d.readBlock (r.extent.1 + r.blockInExtent)
    .ok { r with blockBuf := buf, blockLoaded := true, offsetInBlock := 0 }

/-- Goes on to the next block when this one is consumed. -/
def Cursor.advance (r : Cursor) : Cursor :=
  if r.offsetInBlock < blockSize then r
  else if r.blockInExtent + 1 < r.extent.2 then
    { r with blockInExtent := r.blockInExtent + 1, blockLoaded := false }
  else { r with extentIdx := r.extentIdx + 1, blockInExtent := 0, blockLoaded := false }

/-- `Read::read` into a buffer of `want` bytes. -/
def Cursor.read (d : Disk) (r : Cursor) (want : Nat) : Except Unit (List UInt8 × Cursor) :=
  if r.remaining = 0 ∨ r.extents.length ≤ r.extentIdx then .ok ([], r)
  else do
    let r ← r.load d
    let n := min want (min (blockSize - r.offsetInBlock) r.remaining)
    .ok ((List.range n).map fun k => r.blockBuf (r.offsetInBlock + k),
      Cursor.advance { r with
        offsetInBlock := r.offsetInBlock + n
        remaining := r.remaining - n })

/-- Reads until nothing comes, as `read_to_end` and `io::copy` do, each with buffers of its own. Every
    call but the last reads a byte. -/
def drain (d : Disk) (wants : Nat → Nat) : (calls call : Nat) → Cursor → Except Unit (List UInt8)
  | 0, _, _ => .ok []
  | calls + 1, call, r => do
      let (bytes, r) ← r.read d (wants call + 1)
      if bytes = [] then .ok []
      else do
        let more ← drain d wants calls (call + 1) r
        .ok (bytes ++ more)

/-- An inode without inline data. -/
structure Inode where
  size : Nat
  extents : Bool
  block : Buffer

/-- `read_data` and `read_data_to`. -/
def readData (d : Disk) (wants : Nat → Nat) (inode : Inode) : Except Unit (List UInt8) :=
  if inode.size = 0 then .ok []
  else if ¬inode.extents then .error ()
  else do
    let extents ← resolveExtents d inode.block
    drain d wants (inode.size + 1) 0 (.new extents inode.size)

/-! ## What a file holds -/

def ExtentLeaf.Initialised (l : ExtentLeaf) : Prop := l.length ≤ 32768

instance (l : ExtentLeaf) : Decidable l.Initialised := inferInstanceAs (Decidable (_ ≤ _))

/-- The number of blocks an extent covers. -/
def ExtentLeaf.len (l : ExtentLeaf) : Nat :=
  if l.Initialised then l.length else l.length - 32768

/-- The extents are in order and do not overlap. -/
structure Valid (leaves : List ExtentLeaf) : Prop where
  positive : ∀ l ∈ leaves, 0 < l.length
  sorted : leaves.Pairwise fun a b => a.block + a.len ≤ b.block

/-- The physical block of the file's block `i`, if it was written. -/
def physical (leaves : List ExtentLeaf) (i : Nat) : Option Nat :=
  (leaves.find? fun l => l.block ≤ i ∧ i < l.block + l.len).bind fun l =>
    if l.Initialised then some (l.start + (i - l.block)) else none

/-- The contents of the file. -/
def contents (d : Disk) (leaves : List ExtentLeaf) (size : Nat) : List UInt8 :=
  (List.range size).map fun k => match physical leaves (k / blockSize) with
    | some p => d.byte (p * blockSize + k % blockSize)
    | none => 0

/-- The read returns the contents, or an error. -/
def Correct (d : Disk) (wants : Nat → Nat) (leaves : List ExtentLeaf) (inode : Inode) : Prop :=
  readData d wants inode = .ok (contents d leaves inode.size) ∨ readData d wants inode = .error ()

instance (d : Disk) (wants : Nat → Nat) (leaves : List ExtentLeaf) (inode : Inode) :
    Decidable (Correct d wants leaves inode) := inferInstanceAs (Decidable (_ ∨ _))

/-- From the block `next` to the block `stop`, each extent is written and begins where the one
    before it ends. -/
def Dense (stop : Nat) : (next : Nat) → List ExtentLeaf → Prop
  | next, [] => stop ≤ next
  | next, l :: rest =>
      stop ≤ next ∨ l.block = next ∧ l.Initialised ∧ Dense stop (next + l.length) rest

def blocksOf (size : Nat) : Nat := (size + (blockSize - 1)) / blockSize

/-! ## The runs -/

/-- The blocks the reader goes through. -/
def runs (extents : List (Nat × Nat)) : List Nat := extents.flatMap fun e => List.range' e.1 e.2

def runsOf (leaves : List ExtentLeaf) : List Nat :=
  runs (leaves.map fun leaf => (leaf.start, leaf.length))

/-- Block after block, from an offset in the first one. -/
def readFrom (d : Disk) : List Nat → (off remaining : Nat) → Except Unit (List UInt8)
  | [], _, _ => .ok []
  | p :: rest, off, remaining =>
      if remaining = 0 then .ok []
      else do
        let buf ← d.readBlock p
        let more ← readFrom d rest 0 (remaining - (blockSize - off))
        .ok ((List.range (min (blockSize - off) remaining)).map (fun k => buf (off + k)) ++ more)

variable {d : Disk} {leaves : List ExtentLeaf} {wants : Nat → Nat}

theorem readFrom_zero (todo : List Nat) (off : Nat) : readFrom d todo off 0 = .ok [] := by
  cases todo <;> simp [readFrom]

/-- A part of a block may be read first. -/
theorem readFrom_part {p : Nat} {rest : List Nat} {off n remaining : Nat} {buf : Buffer}
    (read : d.readBlock p = .ok buf) (inside : off + n < blockSize) (enough : n ≤ remaining)
    (some : 0 < n) : readFrom d (p :: rest) off remaining = (do
      let more ← readFrom d (p :: rest) (off + n) (remaining - n)
      .ok ((List.range n).map (fun k => buf (off + k)) ++ more)) := by
  have split : min (blockSize - off) remaining =
      n + min (blockSize - (off + n)) (remaining - n) := by omega
  rw [readFrom, if_neg (by omega), read, split, List.range_add]
  simp only [bind, Except.bind]
  by_cases last : remaining = n
  · rw [last, Nat.sub_self, readFrom_zero, Nat.sub_eq_zero_of_le (by omega), readFrom_zero]
    simp
  · have left : remaining - n - (blockSize - (off + n)) = remaining - (blockSize - off) := by omega
    rw [readFrom, if_neg (by omega), read, left]
    simp only [bind, Except.bind]
    cases readFrom d rest 0 (remaining - (blockSize - off)) with
    | error e => rfl
    | ok more => simp [Function.comp_def, Nat.add_assoc]

/-- The cursor stands in an extent, with `blockInExtent` of its blocks consumed. -/
structure Stands (r : Cursor) (before : List (Nat × Nat)) (start length : Nat)
    (after : List (Nat × Nat)) : Prop where
  extents : r.extents = before ++ (start, length) :: after
  index : r.extentIdx = before.length
  inside : r.blockInExtent < length
  positive : ∀ e ∈ after, 0 < e.2

/-- What is loaded is the block the cursor stands at. -/
def Loaded (d : Disk) (r : Cursor) (start : Nat) : Prop :=
  r.blockLoaded = true →
    r.offsetInBlock < blockSize ∧ d.readBlock (start + r.blockInExtent) = .ok r.blockBuf

/-- The blocks the cursor has before it. -/
inductive At (d : Disk) (r : Cursor) : List Nat → Prop
  | done : r.extents.length ≤ r.extentIdx → At d r []
  | stands {before start length after} : Stands r before start length after → Loaded d r start →
      At d r (List.range' (start + r.blockInExtent) (length - r.blockInExtent) ++ runs after)

section

variable {r : Cursor} {before after : List (Nat × Nat)} {start length : Nat}

theorem Stands.extent (stands : Stands r before start length after) :
    r.extent = (start, length) := by
  simp [Cursor.extent, stands.extents, stands.index]

theorem at_next (before : List (Nat × Nat)) (positive : ∀ e ∈ after, 0 < e.2) (extents : r.extents = before ++ after)
    (index : r.extentIdx = before.length) (begins : r.blockInExtent = 0)
    (unloaded : r.blockLoaded = false) : At d r (runs after) := by
  cases after with
  | nil => exact .done (by simp [extents, index])
  | cons e after =>
    have stands : Stands r before e.1 e.2 after := ⟨extents, index,
      begins ▸ positive e (by simp), fun e member => positive e (by simp [member])⟩
    simpa [begins, runs] using At.stands stands fun loaded => by simp [unloaded] at loaded

/-- Where the cursor stands when the rest of its block was read. -/
theorem at_advance (stands : Stands r before start length after)
    (consumed : blockSize ≤ r.offsetInBlock) :
    At d r.advance (List.range' (start + r.blockInExtent + 1) (length - (r.blockInExtent + 1)) ++
      runs after) ∧ r.advance.blockLoaded = false ∧ r.advance.remaining = r.remaining := by
  rw [Cursor.advance, if_neg (by omega), stands.extent]
  split
  · rename_i more
    exact ⟨.stands ⟨stands.extents, stands.index, more, stands.positive⟩ nofun, rfl, rfl⟩
  · rename_i last
    have none : length - (r.blockInExtent + 1) = 0 := by omega
    rw [none, List.range'_zero, List.nil_append]
    refine ⟨at_next (before ++ [(start, length)]) stands.positive ?_ ?_ rfl rfl, rfl, rfl⟩
    · simp [stands.extents]
    · simp [stands.index]

theorem load_eq (stands : Stands r before start length after) (loaded : Loaded d r start) :
    r.load d = (do
      let buf ← d.readBlock (start + r.blockInExtent)
      .ok { r with
        blockBuf := buf
        blockLoaded := true
        offsetInBlock := if r.blockLoaded then r.offsetInBlock else 0 }) := by
  rw [Cursor.load, stands.extent]
  cases there : r.blockLoaded with
  | false => simp
  | true =>
    rw [(loaded there).2]
    simp [← there, bind, Except.bind]

end

/-- However the calls cut it, the blocks come one after the other. -/
theorem drain_eq {calls call : Nat} {r : Cursor} {todo : List Nat} (stands : At d r todo)
    (enough : r.remaining < calls) : drain d wants calls call r =
      readFrom d todo (if r.blockLoaded then r.offsetInBlock else 0) r.remaining := by
  induction calls generalizing call r todo with
  | zero => omega
  | succ calls ih =>
    rw [drain, Cursor.read]
    by_cases ended : r.remaining = 0
    · simp [ended, readFrom_zero, bind, Except.bind]
    cases stands with
    | done past => simp [past, readFrom, bind, Except.bind]
    | @stands before start length after stands loaded =>
      have inside := stands.inside
      have index : ¬r.extents.length ≤ r.extentIdx := by simp [stands.extents, stands.index]
      have blocks : length - r.blockInExtent = length - (r.blockInExtent + 1) + 1 := by omega
      have below : (if r.blockLoaded then r.offsetInBlock else 0) < blockSize := by
        split
        · exact (loaded (by assumption)).1
        · decide
      rw [if_neg (by simp [ended, index]), load_eq stands loaded]
      generalize (if r.blockLoaded then r.offsetInBlock else 0) = off at below ⊢
      cases read : d.readBlock (start + r.blockInExtent) with
      | error e =>
        rw [blocks, List.range'_succ, List.cons_append]
        simp [readFrom, ended, read, bind, Except.bind]
      | ok buf =>
        simp only [bind, Except.bind]
        generalize count : min (wants call + 1) (min (blockSize - off) r.remaining) = n
        have bytes : (List.range n).map (fun k => buf (off + k)) ≠ [] := by simp; omega
        rw [if_neg bytes]
        have moved : Stands ⟨r.extents, r.remaining - n, r.extentIdx, r.blockInExtent, off + n,
            buf, true⟩ before start length after :=
          ⟨stands.extents, stands.index, inside, stands.positive⟩
        by_cases part : off + n < blockSize
        · have same := At.stands moved fun _ => ⟨part, read⟩
          rw [Cursor.advance, if_pos part, ih same (by simp only; omega)]
          simp only [blocks, List.range'_succ, List.cons_append]
          rw [readFrom_part (n := n) read part (by omega) (by omega)]
          rfl
        · have whole : n = blockSize - off := by omega
          obtain ⟨next, unloaded, left⟩ := at_advance (d := d) moved (Nat.not_lt.mp part)
          rw [ih next (by rw [left]; simp only; omega), unloaded, left, blocks,
            List.range'_succ, List.cons_append, readFrom, if_neg ended, read, ← whole,
            Nat.min_eq_left (by omega)]
          rfl

/-- The blocks of the runs, cut off at the size. -/
theorem readData_eq (wants : Nat → Nat) {inode : Inode} (some : inode.size ≠ 0) (flag : inode.extents = true)
    (tree : extentLeaves d inode.block = .ok leaves) (positive : ∀ l ∈ leaves, 0 < l.length) :
    readData d wants inode = readFrom d (runsOf leaves) 0 inode.size := by
  have start : At d (.new (leaves.map fun leaf => (leaf.start, leaf.length)) inode.size)
      (runsOf leaves) := at_next [] (by simpa using positive) rfl rfl rfl rfl
  simp only [readData, some, flag, resolveExtents, tree, bind, Except.bind]
  simpa [Cursor.new] using drain_eq start (Nat.lt_succ_self _)

/-- Where none of the blocks lies beyond the image, a byte comes from the block of its place. -/
theorem readFrom_ok {todo : List Nat} {remaining : Nat}
    (inside : ∀ p ∈ todo.take (blocksOf remaining), (p + 1) * blockSize ≤ d.size) :
    readFrom d todo 0 remaining = .ok ((List.range (min remaining (blockSize * todo.length))).map
      fun k => d.byte (todo.getD (k / blockSize) 0 * blockSize + k % blockSize)) := by
  induction todo generalizing remaining with
  | nil => simp [readFrom]
  | cons p rest ih =>
    by_cases ended : remaining = 0
    · simp [readFrom, ended]
    · have count : blocksOf remaining = blocksOf (remaining - blockSize) + 1 := by
        simp only [blocksOf, blockSize]
        omega
      rw [count, List.take_succ_cons] at inside
      have split : min remaining (blockSize * (p :: rest).length) =
          min blockSize remaining + min (remaining - blockSize) (blockSize * rest.length) := by
        simp only [blockSize, List.length_cons]
        omega
      rw [readFrom, if_neg ended, Disk.readBlock, if_pos (inside p (by simp)), Nat.sub_zero,
        ih fun q member => inside q (by simp [member]), split, List.range_add, List.map_append]
      simp only [bind, Except.bind, Except.ok.injEq, List.map_map, Function.comp_def]
      apply congrArg₂ (· ++ ·)
      · apply List.map_congr_left
        intro k member
        have below : k < blockSize := by
          have := List.mem_range.mp member
          omega
        simp [below, Nat.div_eq_of_lt below, Nat.mod_eq_of_lt below]
      · apply List.map_congr_left
        intro k member
        have full : min blockSize remaining = blockSize := by
          have := List.mem_range.mp member
          omega
        have next : (blockSize + k) / blockSize = k / blockSize + 1 := by
          rw [Nat.add_comm, Nat.add_div_right k (by decide)]
        simp [full, next]

theorem readFrom_error {todo : List Nat} {remaining : Nat}
    (outside : ∃ p ∈ todo.take (blocksOf remaining), d.size < (p + 1) * blockSize) :
    readFrom d todo 0 remaining = .error () := by
  induction todo generalizing remaining with
  | nil => simp at outside
  | cons p rest ih =>
    by_cases ended : remaining = 0
    · simp [ended, blocksOf, blockSize] at outside
    · have count : blocksOf remaining = blocksOf (remaining - blockSize) + 1 := by
        simp only [blocksOf, blockSize]
        omega
      rw [readFrom, if_neg ended, Disk.readBlock]
      split
      · rename_i here
        rw [count, List.take_succ_cons] at outside
        obtain ⟨q, member, far⟩ := outside
        rcases List.mem_cons.mp member with rfl | member
        · omega
        · rw [Nat.sub_zero, ih ⟨q, member, far⟩]
          rfl
      · rfl

/-! ## Runs and the places of the extents -/

section

variable {stop next : Nat}

theorem runsOf_cons (l : ExtentLeaf) (rest : List ExtentLeaf) :
    runsOf (l :: rest) = List.range' l.start l.length ++ runsOf rest := by
  simp [runsOf, runs]

theorem physical_cons (l : ExtentLeaf) (rest : List ExtentLeaf) (i : Nat) :
    physical (l :: rest) i =
      if l.block ≤ i ∧ i < l.block + l.len then
        if l.Initialised then some (l.start + (i - l.block)) else none
      else physical rest i := by
  unfold physical
  rw [List.find?_cons]
  by_cases here : l.block ≤ i ∧ i < l.block + l.len <;> simp [here]

theorem len_pos {l : ExtentLeaf} (positive : 0 < l.length) : 0 < l.len := by
  by_cases written : l.Initialised
  · rwa [ExtentLeaf.len, if_pos written]
  · rw [ExtentLeaf.len, if_neg written]
    unfold ExtentLeaf.Initialised at written
    omega

theorem Valid.tail {l : ExtentLeaf} {rest : List ExtentLeaf} (valid : Valid (l :: rest)) :
    Valid rest ∧ ∀ k ∈ rest, l.block + l.len ≤ k.block :=
  ⟨⟨fun k member => valid.positive k (by simp [member]), (List.pairwise_cons.mp valid.sorted).2⟩,
    (List.pairwise_cons.mp valid.sorted).1⟩

/-- Nothing is mapped before the first extent. -/
theorem physical_before {i : Nat} (later : ∀ l ∈ leaves, i < l.block) :
    physical leaves i = none := by
  have missed : leaves.find? (fun l => l.block ≤ i ∧ i < l.block + l.len) = none := by
    rw [List.find?_eq_none]
    intro l member
    have := later l member
    simp
    omega
  rw [physical, missed, Option.bind_none]

/-- In dense extents the reader meets every block at its place. -/
theorem runs_of_dense (dense : Dense stop next leaves) (valid : Valid leaves) {i : Nat}
    (from_next : next ≤ i) (below : i < stop) :
    ∃ p, (runsOf leaves)[i - next]? = some p ∧ physical leaves i = some p := by
  induction leaves generalizing next with
  | nil =>
    simp only [Dense] at dense
    omega
  | cons l rest ih =>
    rcases dense with past | ⟨rfl, written, dense⟩
    · omega
    · have len : l.len = l.length := if_pos written
      rw [runsOf_cons, physical_cons, len]
      by_cases here : i < l.block + l.length
      · rw [if_pos ⟨from_next, here⟩, if_pos written, List.getElem?_append_left (by simp; omega),
          List.getElem?_range' (by omega), Nat.one_mul]
        exact ⟨_, rfl, rfl⟩
      · rw [if_neg (by omega), List.getElem?_append_right (by simp; omega), List.length_range',
          Nat.sub_sub]
        exact ih dense valid.tail.1 (by omega)

/-- Extents that are not dense leave a block without a run or a run without a block. -/
theorem exists_of_not_dense (sparse : ¬Dense stop next leaves) (valid : Valid leaves)
    (later : ∀ l ∈ leaves, next ≤ l.block) :
    ∃ i, next ≤ i ∧ i < stop ∧
      ((runsOf leaves)[i - next]? = none ∨ physical leaves i = none) := by
  induction leaves generalizing next with
  | nil =>
    simp only [Dense] at sparse
    exact ⟨next, le_refl _, by omega, .inr rfl⟩
  | cons l rest ih =>
    obtain ⟨valid', after⟩ := valid.tail
    have some := len_pos (valid.positive l (by simp))
    simp only [Dense, not_or, Nat.not_le] at sparse
    obtain ⟨short, sparse⟩ := sparse
    by_cases begins : l.block = next
    · by_cases written : l.Initialised
      · have len : l.len = l.length := if_pos written
        obtain ⟨i, low, high, missing⟩ := ih (fun dense => sparse ⟨begins, written, dense⟩) valid'
          fun k member => by have := after k member; omega
        refine ⟨i, by omega, high, ?_⟩
        rw [runsOf_cons, physical_cons, if_neg (by omega), List.getElem?_append_right
          (by simp; omega), List.length_range', Nat.sub_sub]
        exact missing
      · refine ⟨next, le_refl _, short, .inr ?_⟩
        rw [physical_cons, if_pos (by omega), if_neg written]
    · refine ⟨next, le_refl _, short, .inr (physical_before fun k member => ?_)⟩
      have first := later l (by simp)
      rcases List.mem_cons.mp member with rfl | member
      · omega
      · have := after k member
        omega

end

/-! ## Images with the same tree -/

/-- The image with a one at a place. -/
def Disk.poke (d : Disk) (place : Nat) : Disk := ⟨d.size, Function.update d.byte place 1⟩

theorem readBlock_poke {p q : Nat} (other : q ≠ p) :
    (d.poke (p * blockSize)).readBlock q = d.readBlock q := by
  have same : ∀ k, k < blockSize →
      Function.update d.byte (p * blockSize) 1 (q * blockSize + k) = d.byte (q * blockSize + k) := by
    intro k inside
    rw [Function.update_of_ne]
    simp only [blockSize] at inside ⊢
    omega
  simp +contextual [Disk.readBlock, Disk.poke, same]

/-- A node begins with the magic. -/
theorem byte_of_leafNode {p : Nat} {ls : List ExtentLeaf} (node : leafNode d p = .ok ls) :
    d.byte (p * blockSize) ≠ 0 := by
  obtain ⟨buf, read, node⟩ := bind_eq_ok.mp node
  simp only [Disk.readBlock] at read
  split at read
  · cases read
    simp only at node
    split at node
    · cases node
    · rename_i fine
      intro zero
      simp only [not_or, not_not] at fine
      have magic := fine.1
      simp only [ExtentHeader.readFrom, leU16, blockSize, extentHeaderMagic] at magic zero
      simp [zero] at magic
      omega
  · cases read

/-- A block that is no node of the tree may hold anything. -/
theorem extentLeaves_poke {block : Buffer} (tree : extentLeaves d block = .ok leaves) (p : Nat) :
    d.byte (p * blockSize) ≠ 0 ∨ extentLeaves (d.poke (p * blockSize)) block = .ok leaves := by
  unfold extentLeaves at tree ⊢
  simp only at tree ⊢
  split at tree
  · cases tree
  · rename_i fine
    rw [if_neg fine]
    split at tree
    · rename_i leaf
      rw [if_pos leaf]
      exact .inr tree
    · rename_i inner
      rw [if_neg inner]
      obtain ⟨nodes, read, tree⟩ := bind_eq_ok.mp tree
      by_cases used : ∃ i < (ExtentHeader.readFrom block).entries, indexLeaf block (entryAt i) = p
      · obtain ⟨i, inside, rfl⟩ := used
        obtain ⟨ls, node⟩ := ok_of_mapM read i (List.mem_range.mpr inside)
        exact .inl (byte_of_leafNode node)
      · have same := mapM_ok_of (g := fun i =>
            leafNode (d.poke (p * blockSize)) (indexLeaf block (entryAt i))) read fun i member ls ok => by
          have other : indexLeaf block (entryAt i) ≠ p :=
            fun is => used ⟨i, List.mem_range.mp member, is⟩
          rwa [leafNode, readBlock_poke other, ← leafNode]
        rw [same]
        exact .inr tree

theorem blocksOf_le {size n : Nat} : blocksOf size ≤ n ↔ size ≤ blockSize * n := by
  simp only [blocksOf, blockSize]
  omega

theorem lt_blocksOf {size k : Nat} (inside : k < size) : k / blockSize < blocksOf size := by
  simp only [blocksOf, blockSize]
  omega

section

variable {inode : Inode}

/-- Dense extents read correctly. -/
theorem correct_of_dense (flag : inode.extents = true)
    (tree : extentLeaves d inode.block = .ok leaves) (valid : Valid leaves)
    (dense : Dense (blocksOf inode.size) 0 leaves) : Correct d wants leaves inode := by
  by_cases empty : inode.size = 0
  · exact .inl (by simp [readData, contents, empty])
  have read := readData_eq wants empty flag tree valid.positive
  by_cases outside : ∃ p ∈ (runsOf leaves).take (blocksOf inode.size), d.size < (p + 1) * blockSize
  · exact .inr (read.trans (readFrom_error outside))
  · left
    have placed : ∀ i < blocksOf inode.size, ∃ p, (runsOf leaves)[i]? = some p ∧
        physical leaves i = some p := fun i below => runs_of_dense dense valid (Nat.zero_le i) below
    have enough : inode.size ≤ blockSize * (runsOf leaves).length := by
      rw [← blocksOf_le]
      by_contra short
      obtain ⟨p, found, -⟩ := placed _ (Nat.not_le.mp short)
      simp at found
    rw [read, readFrom_ok (by simpa using outside), Nat.min_eq_left enough, contents]
    apply congrArg
    apply List.map_congr_left
    intro k member
    obtain ⟨p, found, mapped⟩ := placed _ (lt_blocksOf (List.mem_range.mp member))
    simp [List.getD_eq_getElem?_getD, found, mapped]

/-- In other extents a block that belongs elsewhere is returned. -/
theorem not_correct_of_sparse (flag : inode.extents = true)
    (tree : extentLeaves d inode.block = .ok leaves) (valid : Valid leaves)
    (sparse : ¬Dense (blocksOf inode.size) 0 leaves)
    (inside : ∀ p ∈ (runsOf leaves).take (blocksOf inode.size), (p + 1) * blockSize ≤ d.size) :
    ∃ d', d'.size = d.size ∧ extentLeaves d' inode.block = .ok leaves ∧
      ¬Correct d' wants leaves inode := by
  have some : inode.size ≠ 0 := by
    intro empty
    apply sparse
    cases leaves <;> simp [Dense, empty, blocksOf, blockSize]
  obtain ⟨i, -, below, missing⟩ := exists_of_not_dense sparse valid fun l _ => Nat.zero_le _
  have first : i * blockSize < inode.size := by
    simp only [blocksOf, blockSize] at below ⊢
    omega
  -- what is read, for every image of the size with this tree
  have result : ∀ d' : Disk, d'.size = d.size → extentLeaves d' inode.block = .ok leaves →
      Correct d' wants leaves inode → (runsOf leaves)[i]? ≠ none ∧
        ∀ p, (runsOf leaves)[i]? = Option.some p → physical leaves i = none →
          d'.byte (p * blockSize) = 0 := by
    intro d' size tree correct
    have read := (readData_eq wants some flag tree valid.positive).trans
      (readFrom_ok (by rwa [size]))
    rcases correct with ok | error
    · have same := Except.ok.inj (ok.symm.trans read)
      have lengths := congrArg List.length same
      simp only [contents, List.length_map, List.length_range] at lengths
      have enough : blocksOf inode.size ≤ (runsOf leaves).length := blocksOf_le.mpr (by omega)
      refine ⟨by simp; omega, fun p found hole => ?_⟩
      have byte := congrArg (·[i * blockSize]?) same
      have place : i * blockSize / blockSize = i := Nat.mul_div_cancel i (by decide)
      rw [← lengths] at byte
      simpa [contents, first, place, hole, found, List.getD_eq_getElem?_getD, eq_comm] using byte
    · rw [read] at error
      cases error
  rcases missing with short | hole
  · exact ⟨d, rfl, tree, fun correct => (result d rfl tree correct).1 short⟩
  · cases found : (runsOf leaves)[i]? with
    | none => exact ⟨d, rfl, tree, fun correct => (result d rfl tree correct).1 found⟩
    | some p =>
      rcases extentLeaves_poke tree p with used | free
      · exact ⟨d, rfl, tree, fun correct => used ((result d rfl tree correct).2 p found hole)⟩
      · refine ⟨d.poke (p * blockSize), rfl, free, fun correct => ?_⟩
        have zero := (result (d.poke (p * blockSize)) rfl free correct).2 p found hole
        simp [Disk.poke] at zero

/-- **Files with holes.** An inode reads correctly whatever its blocks hold if its extents are
    written and follow one another from the file's first block on, until the size is reached, or if
    one of the blocks that are read lies beyond the image; and only then. -/
theorem sparse_read_iff (flag : inode.extents = true)
    (tree : extentLeaves d inode.block = .ok leaves) (valid : Valid leaves) :
    (∀ d', d'.size = d.size → extentLeaves d' inode.block = .ok leaves →
      Correct d' wants leaves inode) ↔
    Dense (blocksOf inode.size) 0 leaves ∨
      ∃ p ∈ (runsOf leaves).take (blocksOf inode.size), d.size < (p + 1) * blockSize := by
  constructor
  · intro all
    by_contra neither
    simp only [not_or, not_exists, not_and, Nat.not_lt] at neither
    obtain ⟨d', size, tree', wrong⟩ := not_correct_of_sparse flag tree valid neither.1 neither.2
    exact wrong (all d' size tree')
  · rintro (dense | outside) d' size tree'
    · exact correct_of_dense flag tree' valid dense
    · by_cases empty : inode.size = 0
      · exact .inl (by simp [readData, contents, empty])
      · have read := readData_eq wants empty flag tree' valid.positive
        exact .inr (read.trans (readFrom_error (by rwa [size])))

end

/-! ## A hole, a block that was not written, and a plain file -/

/-- An inode with one extent. -/
def oneExtent (block length size : Nat) : Inode where
  size := size
  extents := true
  block k := ([0x0a, 0xf3, 1, 0, 4, 0, 0, 0, 0, 0, 0, 0, UInt8.ofNat block, 0, 0, 0,
    UInt8.ofNat length, UInt8.ofNat (length / 256), 0, 0, 1, 0, 0, 0] : List UInt8).getD k 0

/-- Two blocks; the second one begins with a seven. -/
def twoBlocks : Disk := ⟨8192, fun k => if k = 4096 then 7 else 0⟩

/-- The first block of the file is a hole, and then one that was not written. -/
theorem holes_misread :
    (extentLeaves twoBlocks (oneExtent 1 1 8192).block = .ok [⟨1, 1, 1⟩] ∧
      ¬Correct twoBlocks (fun _ => 4095) [⟨1, 1, 1⟩] (oneExtent 1 1 8192)) ∧
    extentLeaves twoBlocks (oneExtent 0 32769 4096).block = .ok [⟨0, 32769, 1⟩] ∧
      ¬Correct twoBlocks (fun _ => 4095) [⟨0, 32769, 1⟩] (oneExtent 0 32769 4096) := by
  decide +kernel

/-- An inode with two extents: its first block is block 1 of the image and its second one block 0. -/
def swapped : Inode where
  size := 5000
  extents := true
  block k := ([0x0a, 0xf3, 2, 0, 4, 0, 0, 0, 0, 0, 0, 0, 0, 0, 0, 0, 1, 0, 0, 0, 1, 0, 0, 0,
    1, 0, 0, 0, 1, 0, 0, 0, 0, 0, 0, 0] : List UInt8).getD k 0

theorem swapped_valid : Valid [⟨0, 1, 1⟩, ⟨1, 1, 0⟩] := ⟨by simp, by simp [ExtentLeaf.len, ExtentLeaf.Initialised]⟩

/-- The second extent is read in part. -/
theorem swapped_blocks_read : Correct twoBlocks (fun _ => 511) [⟨0, 1, 1⟩, ⟨1, 1, 0⟩] swapped := by
  have tree : extentLeaves twoBlocks swapped.block = .ok [⟨0, 1, 1⟩, ⟨1, 1, 0⟩] := by
    decide +kernel
  have dense : Dense (blocksOf swapped.size) 0 [⟨0, 1, 1⟩, ⟨1, 1, 0⟩] := by
    simp [Dense, blocksOf, swapped, blockSize, ExtentLeaf.Initialised]
  exact (sparse_read_iff rfl tree swapped_valid).mpr (.inl dense) twoBlocks rfl tree

end GlideFS.Ext4.ExtentReader
