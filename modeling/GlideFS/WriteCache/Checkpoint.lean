import GlideFS.Lib.Runs
import GlideFS.WriteCache.Metadata

/-! # Writers, the log and checkpoints

Any number of writers mark the blocks of their ranges, number them and append the
numbers to the log while checkpoints save the state map and truncate the log. A
crash leaves the metadata file and the log behind, so a statement about every
crash is a statement about these two in every state.

A writer that finds a block DIRTY neither numbers nor logs it. It relies on the
call that made the mark, whose append may still be to come or may have failed:
`unlogged` follows the marks that nothing on disk records yet.
-/

namespace GlideFS.WriteCache.Checkpoint

open Lib Block

/-- One call of `wal_append_and_mark_dirty`. -/
structure Writer where
  blocks : List Nat
  todo : List Nat
  /-- The block that is marked and has no number yet. -/
  marked : Option Nat
  batch : List WalEntry
  /-- The blocks that were DIRTY already. -/
  found : List Nat
  appended : Bool

/-- Where the checkpoint that holds `ckpt_lock` is. The state map is copied block by block. -/
inductive Ckpt where
  | idle
  | saving (mode : CkptMode) (coveredSeq next : Nat) (entries : StateMap)
  | saved (mode : CkptMode) (coveredSeq : Nat)

/-- Whether the checkpoint keeps appends out of the log. -/
def Ckpt.holdsWal : Ckpt → Bool
  | saving .exclusive _ _ _ | saved .exclusive _ => true
  | _ => false

structure State where
  states : StateMap
  sequence : Nat
  wal : List UInt8
  metadata : Option Metadata
  ckptSkips : Nat
  ckpt : Ckpt
  writers : Nat → Option Writer
  acknowledged : Nat → Bool
  unlogged : Nat → Bool

inductive Act where
  | start (w first last : Nat)
  | mark (w : Nat)
  | number (w : Nat)
  /-- `written` bytes of the batch reach the file; fewer than all is an error. -/
  | append (w written : Nat)
  | acknowledge (w : Nat)
  | abandon (w : Nat)
  | ckptStart (handoff : Bool)
  | ckptCopy
  | ckptPublish
  | ckptTruncate (handoff : Bool)
  | ckptFail

section Steps

variable (crc32 : List UInt8 → UInt32) (cfg : CacheConfig)

def Writer.new (first last : Nat) : Writer :=
  let blocks := (List.range' first (last + 1 - first)).filter (· < cfg.numBlocks)
  { blocks, todo := blocks, marked := none, batch := [], found := [], appended := false }

/-- The marked block gets its number and its entry. -/
def Writer.number (x : Writer) (b seq : Nat) : Writer :=
  { x with marked := none, batch := x.batch ++ [(⟨b, seq⟩ : WalEntry)] }

namespace State

def setSequence (s : State) (seq : Nat) : State := { s with sequence := seq }

def setWriter (s : State) (w : Nat) (x : Option Writer) : State :=
  { s with writers := Function.update s.writers w x }

def markDirty (s : State) (b : Nat) : State :=
  { s with
    states := Function.update s.states b .dirty
    unlogged := Function.update s.unlogged b true }

/-- The marks whose entries are among `es` are on disk. -/
def settle (s : State) (es : List WalEntry) : State :=
  { s with unlogged := fun b => s.unlogged b && !(es.any fun e => e.blockIndex = b) }

def appendBytes (s : State) (bytes : List UInt8) : State := { s with wal := s.wal ++ bytes }

def setAcknowledged (s : State) (bs : List Nat) : State :=
  { s with acknowledged := fun b => s.acknowledged b || bs.contains b }

def setCkpt (s : State) (skips : Nat) (c : Ckpt) : State := { s with ckptSkips := skips, ckpt := c }

/-- The metadata file is replaced by the copy, which records its DIRTY blocks. -/
def publish (s : State) (mode : CkptMode) (covered : Nat) (copy : StateMap) : State :=
  { s with
    metadata := some ⟨copy, covered, 0⟩
    ckpt := .saved mode covered
    unlogged := fun b => s.unlogged b && !(decide (copy b = .dirty)) }

def truncate (s : State) : State := { s with wal := [] }

end State

def Act.step (s : State) : Act → Option State
  | .start w first last =>
      match s.writers w with
      | some _ => none
      | none => some (s.setWriter w (some (.new cfg first last)))
  | .mark w =>
      match s.writers w with
      | none => none
      | some x =>
          match x.marked, x.todo with
          | none, b :: rest =>
              if s.states b = .dirty then
                some (s.setWriter w (some { x with todo := rest, found := b :: x.found }))
              else
                some ((s.markDirty b).setWriter w (some { x with todo := rest, marked := some b }))
          | _, _ => none
  | .number w =>
      match s.writers w with
      | none => none
      | some x =>
          match x.marked with
          | none => none
          | some b =>
              let seq := nextSequence s.sequence
              some ((s.setSequence seq).setWriter w (some (x.number b seq)))
  | .append w written =>
      match s.writers w with
      | none => none
      | some x =>
          let bytes := Wal.serializeBatch crc32 x.batch
          if x.todo = [] ∧ x.marked = none ∧ x.batch ≠ [] ∧ x.appended = false ∧
              s.ckpt.holdsWal = false ∧ written ≤ bytes.length then
            let logged := (s.appendBytes (bytes.take written)).settle
              (x.batch.take (written / Wal.recordSize))
            if written = bytes.length then some (logged.setWriter w (some { x with appended := true }))
            else some (logged.setWriter w none)
          else none
  | .acknowledge w =>
      match s.writers w with
      | none => none
      | some x =>
          if x.todo = [] ∧ x.marked = none ∧ (x.batch = [] ∨ x.appended = true) then
            some ((s.setAcknowledged x.blocks).setWriter w none)
          else none
  | .abandon w =>
      -- syncing the data file or the log fails after the append
      match s.writers w with
      | none => none
      | some x => if x.appended = true then some (s.setWriter w none) else none
  | .ckptStart handoff =>
      match s.ckpt with
      | .idle =>
          let mode := if handoff then CkptMode.saveOnly
            else if ckptMaxSkips ≤ s.ckptSkips then .exclusive else .truncating
          some (s.setCkpt s.ckptSkips (.saving mode s.sequence 0 fun _ => .notPresent))
      | _ => none
  | .ckptCopy =>
      match s.ckpt with
      | .saving mode covered next copy =>
          if next < cfg.numBlocks then
            some (s.setCkpt s.ckptSkips
              (.saving mode covered (next + 1) (Function.update copy next (s.states next))))
          else none
      | _ => none
  | .ckptPublish =>
      match s.ckpt with
      | .saving mode covered next copy =>
          if next = cfg.numBlocks then some (s.publish mode covered copy) else none
      | _ => none
  | .ckptTruncate handoff =>
      match s.ckpt with
      | .saved .saveOnly _ => some (s.setCkpt s.ckptSkips .idle)
      | .saved .truncating covered =>
          if s.sequence = covered ∧ handoff = false then some (s.truncate.setCkpt 0 .idle)
          else some (s.setCkpt (s.ckptSkips + 1) .idle)
      | .saved .exclusive _ =>
          if handoff = false then some (s.truncate.setCkpt 0 .idle)
          else some (s.setCkpt 0 .idle)
      | _ => none
  | .ckptFail =>
      match s.ckpt with
      | .idle => none
      | _ => some (s.setCkpt s.ckptSkips .idle)

/-- The states a crash leaves: the saved ones and the marks of the log after them. -/
def recovered (file : Option Metadata) (wal : List UInt8) : StateMap :=
  let m := loadMetadata file
  applyEntries cfg.numBlocks m.states (Wal.replay crc32 wal m.maxSequence)

/-- `open` on files with no flushing file: the log keeps what was replayed, SYNCING becomes
    DIRTY and CLEAN becomes NOT_PRESENT. -/
def openCache (file : Option Metadata) (wal : List UInt8) : State :=
  let m := loadMetadata file
  let es := Wal.replay crc32 wal (walMinSeq m)
  let states := fun b =>
    match applyEntries cfg.numBlocks m.states es b with
    | .syncing => SparseBlockState.dirty
    | .clean => .notPresent
    | other => other
  let kept := Wal.serializeBatch crc32 es
  { states
    sequence := es.foldl (fun top e => max top e.sequence) m.maxSequence
    wal := kept
    metadata := file
    ckptSkips := 0
    ckpt := .idle
    writers := fun _ => none
    acknowledged := fun _ => false
    unlogged := fun b => decide (recovered crc32 cfg file kept b ≠ .dirty) }

/-- No writer is acknowledged for a block it found DIRTY while nothing on disk records the
    mark, no batch follows a torn record and the sequence numbers do not run out. -/
def Act.Logged (s : State) : Act → Prop
  | .number _ => s.sequence < u64Max
  | .append _ _ => Wal.recordSize ∣ s.wal.length
  | .acknowledge w => ∀ x ∈ s.writers w, ∀ b ∈ x.found, s.unlogged b = false
  | _ => True

instance (s : State) (a : Act) : Decidable (a.Logged s) := by
  cases a <;> unfold Act.Logged <;> infer_instance

end Steps

end GlideFS.WriteCache.Checkpoint
