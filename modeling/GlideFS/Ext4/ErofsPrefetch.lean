import Mathlib.Algebra.Group.Nat.Defs
import Mathlib.Data.List.Nodup
import Mathlib.Logic.Function.Basic
import GlideFS.Lib.Runs

/-! # The layout of an EROFS image and its prefetch extent

Metadata comes first, in two passes over one order of the nodes: the root, the nodes of the priority
paths, and the others. The prefetch extent goes from the start of the image to the end of the last
data block of a priority node.
-/

namespace GlideFS.Ext4.Erofs

def blk : Nat := 4096
def islot : Nat := 32
def direntSize : Nat := 12
def firstInodeOff : Nat := 1024 + 128

abbrev Name := List UInt8

inductive Kind where
  | dir
  | reg
  | other
deriving DecidableEq

/-- `content` is the length of the spooled data of a file or of a link's target. A node keeps its
    children when it is made something else than a directory. -/
structure Node where
  kind : Kind
  xattrs : List (Name × List UInt8) := []
  content : Nat := 0
  children : List (Name × Nat) := []

structure Writer where
  nodes : List Node
  priority : List (List UInt8)
  dataAlign : Nat
  dataAlignMin : Nat

/-- The components of a path, without the empty ones and the dots. -/
def splitPath (name : List UInt8) : List Name :=
  (name.splitOn 47).filter fun c => c ≠ [] ∧ c ≠ [46]

def ascii (text : String) : List UInt8 := text.toList.map fun c => UInt8.ofNat c.toNat

def xattrPrefixes : List (List UInt8) :=
  ["user.", "trusted.", "security.", "system.posix_acl_default", "system.posix_acl_access"].map ascii

/-- The part of an attribute's name that is stored. -/
def storedName (name : Name) : Name :=
  match xattrPrefixes.find? (·.isPrefixOf name) with
  | some p => name.drop p.length
  | none => name

/-- The length of `encode_xattrs`. -/
def encodeXattrsLen (xattrs : List (Name × List UInt8)) : Nat :=
  if xattrs.isEmpty then 0
  else xattrs.foldl (fun out x => (out + 4 + (storedName x.1).length + x.2.length + 3) / 4 * 4) 12

/-- How many of the names go into one block, after `k` others. -/
def fitting : (k namesLen : Nat) → List Nat → Nat × Nat
  | k, namesLen, [] => (k, namesLen)
  | k, namesLen, nl :: rest =>
      if blk < (k + 1) * direntSize + namesLen + nl then (k, namesLen)
      else fitting (k + 1) (namesLen + nl) rest

/-- The length of `encode_dir` for names of these lengths. A name that does not fit into a block keeps
    the loop from going on. -/
def encodeDirLen : (turns : Nat) → List Nat → Option Nat
  | 0, _ => none
  | turns + 1, names =>
      if names.isEmpty then some 0
      else
        let (k, namesLen) := fitting 0 0 names
        if k = 0 then none
        else if (names.drop k).isEmpty then some (k * direntSize + namesLen)
        else (encodeDirLen turns (names.drop k)).map (blk + ·)

structure Layout where
  dataLen : Nat
  nfull : Nat
  tail : Nat
  xattrIsize : Nat

/-- The inode, its attributes and the inline tail fit into one block, or all data go to full
    blocks. -/
def Layout.of (dataLen xattrIsize : Nat) : Layout :=
  if blk < islot + xattrIsize + dataLen % blk then
    ⟨dataLen, (dataLen + (blk - 1)) / blk, 0, xattrIsize⟩
  else ⟨dataLen, dataLen / blk, dataLen % blk, xattrIsize⟩

namespace Writer

variable (w : Writer)

def node (i : Nat) : Node := w.nodes.getD i { kind := .other }

def resolve (path : List UInt8) : Option Nat :=
  (splitPath path).foldlM (fun cur c => (w.node cur).children.lookup c) 0

/-- The depth-first order from a node on; `depth` bounds the recursion. -/
def visit : (depth : Nat) → List Nat → Nat → List Nat
  | 0, order, _ => order
  | depth + 1, order, i =>
      if i ∈ order then order
      else (w.node i).children.foldl (fun order child => visit depth order child.2) (order ++ [i])

def traversal : List Nat := w.visit (w.nodes.length + 1) [] 0

def dataLen (i : Nat) : Option Nat :=
  let n := w.node i
  if n.kind = .dir then
    encodeDirLen (n.children.length + 3) (1 :: 2 :: n.children.map (·.1.length))
  else some n.content

def layoutFacts (i : Nat) : Option Layout :=
  (w.dataLen i).map (Layout.of · (encodeXattrsLen (w.node i).xattrs))

def fact (i : Nat) : Layout := (w.layoutFacts i).getD ⟨0, 0, 0, 0⟩

/-- Puts a node behind the others, once. -/
def place (placed : List Nat) (i : Nat) : List Nat := if i ∈ placed then placed else placed ++ [i]

/-- The root and the nodes of the priority paths. -/
def front : List Nat := (w.priority.filterMap w.resolve).foldl place [0]

/-- `layout_order`: the order and the priority nodes. -/
def layoutOrder : List Nat × List Nat :=
  if w.priority.isEmpty then (w.traversal, [])
  else (w.traversal.foldl place w.front, w.front.tail)

end Writer

/-- What pass 1 has assigned: the next free byte and the inode numbers. -/
structure Meta where
  off : Nat
  nid : Nat → Nat

def Layout.need (f : Layout) : Nat := islot + f.xattrIsize + f.tail

/-- The inode with its attributes and its tail does not go across the end of a block. -/
def Meta.fit (off need : Nat) : Nat :=
  if off / blk * blk + blk < off + need then off / blk * blk + blk else off

def Meta.assign (fact : Nat → Layout) (s : Meta) (i : Nat) : Meta :=
  let off := fit s.off (fact i).need
  ⟨(off + (fact i).need + islot - 1) / islot * islot, Function.update s.nid i (off / islot)⟩

/-- What pass 2 has assigned: the next free block, the end of the priority data, and where the data of
    the nodes begin. -/
structure Blocks where
  next : Nat
  priorityEnd : Nat
  start : Nat → Nat

def alignUp (n a : Nat) : Nat := if n % a = 0 then n else n + (a - n % a)

/-- Where the data of a node go. -/
def Writer.begins (w : Writer) (prio : List Nat) (i next : Nat) : Nat :=
  if 1 < w.dataAlign / blk ∧ i ∉ prio ∧ (w.node i).kind = .reg ∧ w.dataAlignMin ≤ (w.fact i).dataLen
  then alignUp next (w.dataAlign / blk) else next

def Blocks.assign (w : Writer) (prio : List Nat) (s : Blocks) (i : Nat) : Blocks :=
  if (w.fact i).nfull = 0 then s
  else
    let stop := w.begins prio i s.next + (w.fact i).nfull
    ⟨stop, if i ∈ prio then stop else s.priorityEnd,
      Function.update s.start i (w.begins prio i s.next)⟩

namespace Writer

variable (w : Writer)

/-- Pass 1. -/
def metas : Meta := w.layoutOrder.1.foldl (Meta.assign w.fact) ⟨firstInodeOff, fun _ => 0⟩

def dataRegionStart : Nat := (w.metas.off + (blk - 1)) / blk

/-- Pass 2. -/
def blocks : Blocks :=
  w.layoutOrder.1.foldl (Blocks.assign w w.layoutOrder.2)
    ⟨w.dataRegionStart, w.dataRegionStart, fun _ => 0⟩

end Writer

structure Placed where
  nid : Nat → Nat
  dataRegionStart : Nat
  start : Nat → Nat
  prefetchLen : Nat
  totalBlocks : Nat

/-- The passes of `serialize`; without a result when a directory cannot be encoded. -/
def Writer.serialize (w : Writer) : Option Placed :=
  if w.layoutOrder.1.all fun i => (w.layoutFacts i).isSome then
    some ⟨w.metas.nid, w.dataRegionStart, w.blocks.start,
      if w.layoutOrder.2.isEmpty then 0 else w.blocks.priorityEnd * blk,
      max (max w.blocks.next w.dataRegionStart) 1⟩
  else none

/-- The block number in the inode has 32 bits; the data are written where it says. -/
def Placed.blkaddr (p : Placed) (i : Nat) : Nat := p.start i % 2 ^ 32

/-! ## Coverage -/

/-- A priority path leads to the node. -/
def Writer.Resolved (w : Writer) (i : Nat) : Prop := ∃ path ∈ w.priority, w.resolve path = some i

def Writer.fullBytes (w : Writer) (i : Nat) : Nat :=
  min (w.fact i).dataLen ((w.fact i).nfull * blk)

/-- The extent has the metadata with the priority nodes' inodes, the data of the `whole` nodes, and
    no data block of another node but the root. -/
structure Covers (w : Writer) (p : Placed) (whole : Nat → Prop) : Prop where
  metadata : p.dataRegionStart * blk ≤ p.prefetchLen
  inodes : ∀ i, w.Resolved i → p.nid i * islot + (w.fact i).need ≤ p.dataRegionStart * blk
  data : ∀ i, whole i → ∀ k < w.fullBytes i, p.blkaddr i * blk + k < p.prefetchLen
  others : ∀ i ∈ w.layoutOrder.1, i ≠ 0 → ¬w.Resolved i →
    ∀ k < (w.fact i).nfull, p.prefetchLen ≤ (p.blkaddr i + k) * blk

/-! ## The order -/

theorem foldl_place (placed l : List Nat) : ∃ more, l.foldl Writer.place placed = placed ++ more ∧
    (placed.Nodup → (placed ++ more).Nodup) ∧ ∀ i, i ∈ placed ++ more ↔ i ∈ placed ∨ i ∈ l := by
  induction l generalizing placed with
  | nil => exact ⟨[], by simp⟩
  | cons a l ih =>
    rw [List.foldl_cons, Writer.place]
    by_cases old : a ∈ placed
    · obtain ⟨more, folded, nodup, members⟩ := ih placed
      rw [if_pos old]
      refine ⟨more, folded, nodup, fun i => ?_⟩
      rw [members, List.mem_cons]
      grind
    · obtain ⟨more, folded, nodup, members⟩ := ih (placed ++ [a])
      rw [if_neg old]
      refine ⟨a :: more, by simpa using folded, fun distinct => ?_, fun i => ?_⟩
      · simpa using nodup (distinct.append (by simp) (by simpa using old))
      · have here := members i
        simp only [List.append_assoc, List.singleton_append] at here
        rw [here, List.mem_append, List.mem_singleton, List.mem_cons, or_assoc]

section

variable {w : Writer}

/-- The root comes first, then the priority nodes, then the others, each once. -/
theorem layoutOrder_eq (some : w.priority ≠ []) : ∃ prio rest,
    w.layoutOrder = (0 :: prio ++ rest, prio) ∧ (0 :: prio ++ rest).Nodup ∧
      ∀ i, i ∈ 0 :: prio ↔ i = 0 ∨ w.Resolved i := by
  obtain ⟨prio, front, distinct, members⟩ := foldl_place [0] (w.priority.filterMap w.resolve)
  obtain ⟨rest, order, distinct', -⟩ := foldl_place w.front w.traversal
  have front' : w.front = 0 :: prio := front
  rw [front'] at order distinct'
  refine ⟨prio, rest, ?_, distinct' (distinct (by simp)), fun i => ?_⟩
  · simp [Writer.layoutOrder, some, order, front']
  · have here := members i
    simpa [Writer.Resolved] using here

end

/-! ## Pass 1 -/

theorem fit_ge (off need : Nat) : off ≤ Meta.fit off need := by
  unfold Meta.fit
  split
  · simp only [blk]
    omega
  · exact Nat.le_refl _

theorem fit_aligned {off : Nat} (aligned : off % islot = 0) (need : Nat) :
    Meta.fit off need % islot = 0 := by
  unfold Meta.fit
  split
  · simp only [blk, islot]
    omega
  · exact aligned

/-- What pass 1 has placed ends before the next free byte. -/
theorem assign_meta (fact : Nat → Layout) {l : List Nat} (distinct : l.Nodup) (s : Meta)
    (aligned : s.off % islot = 0) :
    s.off ≤ (l.foldl (Meta.assign fact) s).off ∧
    (∀ i, i ∉ l → (l.foldl (Meta.assign fact) s).nid i = s.nid i) ∧
    ∀ i ∈ l, (l.foldl (Meta.assign fact) s).nid i * islot + (fact i).need ≤
      (l.foldl (Meta.assign fact) s).off := by
  induction l generalizing s with
  | nil => simp
  | cons a l ih =>
    obtain ⟨fresh, distinct⟩ := List.nodup_cons.mp distinct
    have start := fit_ge s.off (fact a).need
    have even := fit_aligned aligned (fact a).need
    have next : (Meta.assign fact s a).off % islot = 0 := by simp [Meta.assign]
    have stop : Meta.fit s.off (fact a).need + (fact a).need ≤ (Meta.assign fact s a).off := by
      simp only [Meta.assign, islot]
      omega
    have number : (Meta.assign fact s a).nid a * islot = Meta.fit s.off (fact a).need := by
      simp only [Meta.assign, Function.update_self, islot] at even ⊢
      omega
    obtain ⟨grown, kept, placed⟩ := ih distinct (Meta.assign fact s a) next
    rw [List.foldl_cons]
    refine ⟨by omega, fun i other => ?_, fun i member => ?_⟩
    · rw [kept i (fun member => other (List.mem_cons_of_mem a member))]
      exact Function.update_of_ne (fun same => other (by simp [same])) _ _
    · rcases List.mem_cons.mp member with rfl | member
      · rw [kept i fresh]
        omega
      · exact placed i member

/-! ## Pass 2 -/

theorem le_alignUp (n a : Nat) : n ≤ alignUp n a := by
  unfold alignUp
  split <;> omega

theorem le_begins (w : Writer) (prio : List Nat) (i next : Nat) : next ≤ w.begins prio i next := by
  unfold Writer.begins
  split
  · exact le_alignUp _ _
  · exact Nat.le_refl _

/-- What a part of pass 2 does from `s` to `t`. -/
structure Assigned (w : Writer) (prio : List Nat) (l : List Nat) (s t : Blocks) : Prop where
  next : s.next ≤ t.next
  kept : ∀ i, i ∉ l → t.start i = s.start i
  placed : ∀ i ∈ l, 0 < (w.fact i).nfull → s.next ≤ t.start i ∧
    t.start i + (w.fact i).nfull ≤ t.next
  priority : ∀ i ∈ l, i ∈ prio → 0 < (w.fact i).nfull → t.start i + (w.fact i).nfull ≤ t.priorityEnd
  grown : s.priorityEnd ≤ s.next → s.priorityEnd ≤ t.priorityEnd ∧ t.priorityEnd ≤ t.next
  still : (∀ i ∈ l, i ∈ prio → (w.fact i).nfull = 0) → t.priorityEnd = s.priorityEnd

theorem assigned_one (w : Writer) (prio : List Nat) (s : Blocks) (i : Nat) :
    Assigned w prio [i] s (s.assign w prio i) := by
  have start := le_begins w prio i s.next
  unfold Blocks.assign
  split
  · rename_i none
    constructor <;> simp [none]
  · constructor <;> grind [Function.update_self, Function.update_of_ne]

theorem Assigned.trans {w : Writer} {prio l l' : List Nat} {s t u : Blocks}
    (first : Assigned w prio l s t) (second : Assigned w prio l' t u)
    (apart : ∀ i ∈ l, i ∉ l') (fits : s.priorityEnd ≤ s.next) :
    Assigned w prio (l ++ l') s u := by
  have early := first.grown fits
  have late := second.grown early.2
  constructor
  · exact Nat.le_trans first.next second.next
  · intro i other
    simp only [List.mem_append, not_or] at other
    rw [second.kept i other.2, first.kept i other.1]
  · intro i member some
    rcases List.mem_append.mp member with here | there
    · rw [second.kept i (apart i here)]
      have placed := first.placed i here some
      exact ⟨placed.1, Nat.le_trans placed.2 second.next⟩
    · have placed := second.placed i there some
      exact ⟨Nat.le_trans first.next placed.1, placed.2⟩
  · intro i member chosen some
    rcases List.mem_append.mp member with here | there
    · rw [second.kept i (apart i here)]
      exact Nat.le_trans (first.priority i here chosen some) late.1
    · exact second.priority i there chosen some
  · exact fun _ => ⟨Nat.le_trans early.1 late.1, late.2⟩
  · intro none
    rw [second.still fun i there => none i (by simp [there]),
      first.still fun i here => none i (by simp [here])]

theorem assigned_foldl (w : Writer) (prio : List Nat) {l : List Nat} (distinct : l.Nodup)
    (s : Blocks) (fits : s.priorityEnd ≤ s.next) :
    Assigned w prio l s (l.foldl (Blocks.assign w prio) s) := by
  induction l generalizing s with
  | nil => constructor <;> simp
  | cons i l ih =>
    obtain ⟨fresh, distinct⟩ := List.nodup_cons.mp distinct
    have one := assigned_one w prio s i
    exact one.trans (ih distinct _ (one.grown fits).2) (by simpa using fresh) fits

/-! ## The extent -/

/-- Where the passes put the root, the priority nodes and the others. -/
structure Arranged (w : Writer) (prio rest : List Nat) : Prop where
  region : w.dataRegionStart ≤ w.blocks.priorityEnd
  inodes : ∀ i ∈ 0 :: prio ++ rest,
    w.metas.nid i * islot + (w.fact i).need ≤ w.dataRegionStart * blk
  priority : ∀ i ∈ prio, 0 < (w.fact i).nfull →
    w.blocks.start i + (w.fact i).nfull ≤ w.blocks.priorityEnd
  others : ∀ i ∈ rest, 0 < (w.fact i).nfull → w.blocks.priorityEnd ≤ w.blocks.start i
  last : ∀ i ∈ 0 :: prio ++ rest, 0 < (w.fact i).nfull →
    w.blocks.start i + (w.fact i).nfull ≤ w.blocks.next

theorem arranged_of_order {w : Writer} {prio rest : List Nat}
    (order : w.layoutOrder = (0 :: prio ++ rest, prio)) (distinct : (0 :: prio ++ rest).Nodup) :
    Arranged w prio rest := by
  obtain ⟨front, last, apart⟩ := List.nodup_append.mp distinct
  obtain ⟨fresh, middle⟩ := List.nodup_cons.mp front
  have inodes := (assign_meta w.fact distinct ⟨firstInodeOff, fun _ => 0⟩ (by decide)).2.2
  have passed : w.metas = (0 :: prio ++ rest).foldl (Meta.assign w.fact)
      ⟨firstInodeOff, fun _ => 0⟩ := by
    rw [Writer.metas, order]
  rw [← passed] at inodes
  have ends : w.metas.off ≤ w.dataRegionStart * blk := by
    simp only [Writer.dataRegionStart, blk]
    omega
  have one := assigned_one w prio ⟨w.dataRegionStart, w.dataRegionStart, fun _ => 0⟩ 0
  have fits₁ := one.grown (Nat.le_refl _)
  have two := assigned_foldl w prio middle _ fits₁.2
  have fits₂ := two.grown fits₁.2
  have three := assigned_foldl w prio last _ fits₂.2
  have still := three.still fun i member also =>
    absurd rfl (apart i (List.mem_cons_of_mem 0 also) i member)
  have whole : w.blocks = rest.foldl (Blocks.assign w prio) (prio.foldl (Blocks.assign w prio)
      (Blocks.assign w prio ⟨w.dataRegionStart, w.dataRegionStart, fun _ => 0⟩ 0)) := by
    rw [Writer.blocks, order, List.cons_append, List.foldl_cons, List.foldl_append]
  have all := assigned_foldl w prio distinct
    ⟨w.dataRegionStart, w.dataRegionStart, fun _ => 0⟩ (Nat.le_refl _)
  have passed : w.blocks = (0 :: prio ++ rest).foldl (Blocks.assign w prio)
      ⟨w.dataRegionStart, w.dataRegionStart, fun _ => 0⟩ := by
    rw [Writer.blocks, order]
  rw [← passed] at all
  generalize Blocks.assign w prio _ 0 = b₁ at *
  generalize prio.foldl (Blocks.assign w prio) b₁ = b₂ at *
  generalize rest.foldl (Blocks.assign w prio) b₂ = b₃ at *
  rw [← whole] at three still
  constructor
  · rw [still]
    exact Nat.le_trans fits₁.1 fits₂.1
  · intro i member
    exact Nat.le_trans (inodes i member) ends
  · intro i member some
    have outside : i ∉ rest := fun also => apart i (List.mem_cons_of_mem 0 member) i also rfl
    rw [three.kept i outside, still]
    exact two.priority i member member some
  · intro i member some
    rw [still]
    exact Nat.le_trans fits₂.2 (three.placed i member some).1
  · intro i member some
    exact (all.placed i member some).2

/-- **The prefetch extent.** In an image of at most 2³² blocks it has the metadata, the priority
    files and nothing else but data of the root. -/
theorem prefetch_covers {w : Writer} {p : Placed} (made : w.serialize = some p)
    (chosen : ∃ i ≠ 0, w.Resolved i) (fits : p.totalBlocks ≤ 2 ^ 32) :
    Covers w p fun i => i ≠ 0 ∧ w.Resolved i := by
  obtain ⟨i₀, nonroot, resolved⟩ := chosen
  have listed : w.priority ≠ [] := by
    obtain ⟨path, member, -⟩ := resolved
    exact List.ne_nil_of_mem member
  obtain ⟨prio, rest, order, distinct, members⟩ := layoutOrder_eq listed
  have in_prio : ∀ i ≠ 0, w.Resolved i → i ∈ prio := fun i other resolved =>
    (List.mem_cons.mp ((members i).mpr (.inr resolved))).resolve_left other
  have arranged := arranged_of_order order distinct
  have result : p = ⟨w.metas.nid, w.dataRegionStart, w.blocks.start, w.blocks.priorityEnd * blk,
      max (max w.blocks.next w.dataRegionStart) 1⟩ := by
    have nonempty := List.ne_nil_of_mem (in_prio i₀ nonroot resolved)
    simp only [Writer.serialize, order, List.isEmpty_iff, nonempty, if_false] at made
    split at made
    · exact (Option.some.inj made).symm
    · cases made
  subst result
  have limit : w.blocks.next ≤ 2 ^ 32 := by
    dsimp only at fits
    omega
  have uncut (i : Nat) (member : i ∈ 0 :: prio ++ rest) (some : 0 < (w.fact i).nfull) :
      w.blocks.start i % 2 ^ 32 = w.blocks.start i :=
    Nat.mod_eq_of_lt (by have last := arranged.last i member some; omega)
  constructor
  · exact Nat.mul_le_mul_right _ arranged.region
  · intro i resolved
    exact arranged.inodes i (List.mem_append_left _ ((members i).mpr (.inr resolved)))
  · rintro i ⟨other, resolved⟩ k inside
    have member := in_prio i other resolved
    have small : k < (w.fact i).nfull * blk := Nat.lt_of_lt_of_le inside (Nat.min_le_right _ _)
    have some : 0 < (w.fact i).nfull := Nat.pos_of_ne_zero fun none => by simp [none] at small
    have stops := Nat.mul_le_mul_right blk (arranged.priority i member some)
    rw [Nat.add_mul] at stops
    dsimp only [Placed.blkaddr]
    rw [uncut i (List.mem_append_left _ (List.mem_cons_of_mem 0 member)) some]
    omega
  · intro i member other unlisted k inside
    have some : 0 < (w.fact i).nfull := Nat.lt_of_le_of_lt (Nat.zero_le k) inside
    rw [order] at member
    have later : i ∈ rest := (List.mem_append.mp member).resolve_left fun front =>
      unlisted (((members i).mp front).resolve_left other)
    dsimp only [Placed.blkaddr]
    rw [uncut i member some]
    exact Nat.mul_le_mul_right _
      (Nat.le_trans (arranged.others i later some) (Nat.le_add_right _ _))

/-! ## Trees -/

/-- A root with the files `a`, `b` and `c` of these lengths, and a file with a name of 4080 bytes if
    `long` is set. -/
def smallTree (long : Bool) (a b c : Nat) (priority : List (List UInt8)) : Writer where
  nodes := [
    { kind := .dir
      children := ([97], 1) :: (if long then [(List.replicate 4080 97, 4)] else []) ++
        [([98], 2), ([99], 3)] },
    { kind := .reg, content := a }, { kind := .reg, content := b }, { kind := .reg, content := c },
    { kind := .reg }]
  priority := priority
  dataAlign := 0
  dataAlignMin := 0

theorem small_tree_covered : ∃ p, (smallTree false 5000 9000 1 [[97]]).serialize = some p ∧
    p.prefetchLen = 2 * blk ∧ p.totalBlocks = 4 ∧
    Covers (smallTree false 5000 9000 1 [[97]]) p
      fun i => i ≠ 0 ∧ (smallTree false 5000 9000 1 [[97]]).Resolved i := by
  have run : (smallTree false 5000 9000 1 [[97]]).serialize.any (fun p =>
      p.prefetchLen = 2 * blk ∧ p.totalBlocks = 4) = true := by
    decide +kernel
  obtain ⟨p, made, facts⟩ := Lib.exists_of_any run
  obtain ⟨len, total⟩ := of_decide_eq_true facts
  have resolved : ∃ i ≠ 0, (smallTree false 5000 9000 1 [[97]]).Resolved i :=
    ⟨1, by decide, [97], by decide +kernel⟩
  exact ⟨p, made, len, total, prefetch_covers made resolved (by rw [total]; decide)⟩

/-- The root's directory takes two blocks behind the extent when the paths are `/` and `a`. In a tree
    of more than 2³² blocks, the data of `c` are put over those of the priority file `a`. -/
theorem extents_wrong :
    (∃ p, (smallTree true 1 1 1 [[47], [97]]).serialize = some p ∧
      (∃ i ≠ 0, (smallTree true 1 1 1 [[47], [97]]).Resolved i) ∧
      ¬Covers (smallTree true 1 1 1 [[47], [97]]) p
        (smallTree true 1 1 1 [[47], [97]]).Resolved) ∧
    ∃ p, (smallTree false 4096 (4096 * (2 ^ 32 - 1)) 4096 [[97]]).serialize = some p ∧
      (∃ i ≠ 0, (smallTree false 4096 (4096 * (2 ^ 32 - 1)) 4096 [[97]]).Resolved i) ∧
      ¬Covers (smallTree false 4096 (4096 * (2 ^ 32 - 1)) 4096 [[97]]) p
        (smallTree false 4096 (4096 * (2 ^ 32 - 1)) 4096 [[97]]).Resolved := by
  constructor
  · have run : (smallTree true 1 1 1 [[47], [97]]).serialize.any
        (fun p => p.prefetchLen ≤ p.blkaddr 0 * blk) = true := by
      decide +kernel
    obtain ⟨p, made, short⟩ := Lib.exists_of_any run
    have root : (smallTree true 1 1 1 [[47], [97]]).resolve [47] = some 0 := by
      decide +kernel
    have full : 0 < (smallTree true 1 1 1 [[47], [97]]).fullBytes 0 := by
      decide +kernel
    refine ⟨p, made, ⟨1, by decide, [97], by decide +kernel⟩, fun covers => ?_⟩
    have data := covers.data 0 ⟨[47], List.mem_cons_self, root⟩ 0 full
    rw [Nat.add_zero] at data
    exact absurd (of_decide_eq_true short) (Nat.not_le.mpr data)
  · have run : (smallTree false 4096 (4096 * (2 ^ 32 - 1)) 4096 [[97]]).serialize.any
        (fun p => p.blkaddr 3 * blk < p.prefetchLen) = true := by
      decide +kernel
    obtain ⟨p, made, inside⟩ := Lib.exists_of_any run
    refine ⟨p, made, ⟨1, by decide, [97], ?_⟩, fun covers => ?_⟩
    · decide +kernel
    · have unlisted : ¬∃ path ∈ [[97]],
          (smallTree false 4096 (4096 * (2 ^ 32 - 1)) 4096 [[97]]).resolve path = some 3 := by
        decide +kernel
      have beyond := covers.others 3 (by decide +kernel) (by decide) unlisted 0 (by decide +kernel)
      rw [Nat.add_zero] at beyond
      exact absurd (of_decide_eq_true inside) (Nat.not_lt.mpr beyond)

end GlideFS.Ext4.Erofs
