import GlideFS.Block.BlockMap
import GlideFS.Block.Wal
import Mathlib.Logic.Function.Basic

/-! # Saved block states and the marks of the log

The metadata file holds a copy of the state map, the sequence number read before
the copy was made and the rotation sequence read after it. Opening a cache loads
the copy and marks every block with a later log entry DIRTY.
-/

namespace GlideFS.WriteCache

open Block

structure CacheConfig where
  deviceSize : Nat
  blockSize : Nat
  deviceSize_pos : 0 < deviceSize
  blockSize_pos : 0 < blockSize
  deviceSize_fits : deviceSize < 2 ^ 64

def CacheConfig.numBlocks (c : CacheConfig) : Nat := (c.deviceSize + c.blockSize - 1) / c.blockSize

theorem CacheConfig.numBlocks_le (c : CacheConfig) : c.numBlocks ≤ c.deviceSize := by
  obtain ⟨size, hsize⟩ := Nat.exists_eq_succ_of_ne_zero c.deviceSize_pos.ne'
  obtain ⟨block, hblock⟩ := Nat.exists_eq_succ_of_ne_zero c.blockSize_pos.ne'
  unfold numBlocks
  apply Nat.div_le_of_le_mul
  rw [hsize, hblock, Nat.succ_mul, Nat.mul_succ]
  omega

abbrev StateMap := Nat → SparseBlockState

structure Metadata where
  states : StateMap
  maxSequence : Nat
  rotationSeq : Nat

/-- What a missing metadata file stands for. -/
def Metadata.fresh : Metadata := ⟨fun _ => .notPresent, 0, 0⟩

def loadMetadata (file : Option Metadata) : Metadata := file.getD .fresh

def u64Max : Nat := 2 ^ 64 - 1

/-- `SequenceNumber::next`, which stays at the largest number. -/
def nextSequence (n : Nat) : Nat := if n = u64Max then n else n + 1

def ckptMaxSkips : Nat := 2

/-- A checkpoint during a handoff only saves; after `ckptMaxSkips` checkpoints that kept the
    log, the next one holds appends off while it saves. -/
inductive CkptMode where
  | saveOnly
  | truncating
  | exclusive
deriving DecidableEq

/-- Where replay starts: at the rotation when the metadata was saved during a flush. -/
def walMinSeq (m : Metadata) : Nat :=
  if 0 < m.rotationSeq ∧ m.rotationSeq < m.maxSequence then m.rotationSeq else m.maxSequence

theorem walMinSeq_le (m : Metadata) : walMinSeq m ≤ m.maxSequence := by
  unfold walMinSeq
  split <;> omega

/-- The mark a log entry leaves on the loaded states. -/
def applyEntry (numBlocks : Nat) (states : StateMap) (e : WalEntry) : StateMap :=
  if e.blockIndex < numBlocks then Function.update states e.blockIndex .dirty else states

def applyEntries (numBlocks : Nat) (states : StateMap) (es : List WalEntry) : StateMap :=
  es.foldl (applyEntry numBlocks) states

theorem applyEntry_eq (numBlocks : Nat) (states : StateMap) (e : WalEntry) (b : Nat) :
    applyEntry numBlocks states e b =
      if b < numBlocks ∧ e.blockIndex = b then .dirty else states b := by
  unfold applyEntry
  by_cases same : e.blockIndex = b
  · subst same
    split <;> simp [*]
  · have other : b ≠ e.blockIndex := fun h => same h.symm
    split <;> simp [same, other]

/-- Replay marks exactly the blocks that have an entry. -/
theorem applyEntries_eq (numBlocks : Nat) (states : StateMap) (es : List WalEntry) (b : Nat) :
    applyEntries numBlocks states es b =
      if b < numBlocks ∧ ∃ e ∈ es, e.blockIndex = b then .dirty else states b := by
  induction es generalizing states with
  | nil => simp [applyEntries]
  | cons e rest ih =>
    have unfolded : applyEntries numBlocks states (e :: rest) =
        applyEntries numBlocks (applyEntry numBlocks states e) rest := rfl
    rw [unfolded, ih, applyEntry_eq]
    by_cases later : b < numBlocks ∧ ∃ x ∈ rest, x.blockIndex = b
    · have somewhere : b < numBlocks ∧ ∃ x ∈ e :: rest, x.blockIndex = b :=
        ⟨later.1, later.2.imp fun x hx => ⟨List.mem_cons_of_mem e hx.1, hx.2⟩⟩
      rw [if_pos later, if_pos somewhere]
    · rw [if_neg later]
      by_cases here : b < numBlocks ∧ e.blockIndex = b
      · rw [if_pos here, if_pos ⟨here.1, e, List.mem_cons_self, here.2⟩]
      · rw [if_neg here, if_neg]
        rintro ⟨inside, x, listed, at_b⟩
        cases listed with
        | head => exact here ⟨inside, at_b⟩
        | tail _ listed => exact later ⟨inside, x, listed, at_b⟩

end GlideFS.WriteCache
