import GlideFS.WriteCache.FlushResolves
import GlideFS.WriteCache.Metadata

/-! # The write cache

One export's cache: the block states, the active data file and the flushing file
left by a rotation, the log and the metadata file, and the manifest in memory and
in S3. A guest write is one step here. A flush and a checkpoint go through their
stages one step at a time, and any step of theirs may come between two of the
other's.

Data files are kept block by block. `unsynced` has the older contents that a power
loss may bring back because the file was not synced since. `acked` is no part of
the cache: it is what the guest last wrote.
-/

namespace GlideFS.WriteCache

open Block Lib

structure DataFile (n : Nat) where
  cur : Nat → BlockData n
  unsynced : Nat → List (BlockData n)

namespace DataFile

variable {n : Nat}

/-- A new file. -/
def sparse : DataFile n := ⟨fun _ => 0, fun _ => []⟩

def writeBlock (f : DataFile n) (b : Nat) (d : BlockData n) : DataFile n where
  cur := Function.update f.cur b d
  unsynced := Function.update f.unsynced b (f.cur b :: f.unsynced b)

def syncAll (f : DataFile n) : DataFile n := { f with unsynced := fun _ => [] }

end DataFile

def numBlocks (g : Geometry) : Nat := (g.size + g.blockSize - 1) / g.blockSize

theorem lt_numBlocks {g : Geometry} {b : Nat} : b < numBlocks g ↔ g.InRange b := by
  have pos := g.blockSize_pos
  unfold numBlocks Geometry.InRange
  rw [Nat.lt_div_iff_mul_lt pos]
  omega

/-- The blocks one flush cycle has claimed. -/
structure Claim (g : Geometry) where
  blocks : List Nat
  distinct : blocks.Nodup
  inRange : ∀ b ∈ blocks, g.InRange b

/-- What the flush reads for the blocks it does not skip. -/
def Claim.read {g : Geometry} (c : Claim g) (f : DataFile g.blockSize) (skipped : List Nat) :
    Snapshot g (BlockData g.blockSize) where
  blocks := (c.blocks.filter (· ∉ skipped)).map fun b => (b, f.cur b)
  distinct := by
    rw [List.map_map]
    exact (List.map_id' _).symm ▸ c.distinct.filter _
  inRange := by
    intro p mem
    obtain ⟨b, listed, rfl⟩ := List.mem_map.mp mem
    exact c.inRange b (List.mem_of_mem_filter listed)

inductive CkptStage where
  | copying (next : Nat) (copy : StateMap)
  | sealed (saved : Metadata)
  | published

/-- A checkpoint that holds `ckpt_lock`. -/
structure CkptRun where
  mode : CkptMode
  coveredSeq : Nat
  stage : CkptStage
  /-- Whether the flush waits for it. -/
  awaited : Bool

section Stages

variable {D Hash PackId : Type} [Zero D] [DecidableEq D] [DecidableEq Hash] [DecidableEq PackId]
  (C : Codec D Hash PackId) (g : Geometry)

/-- Where a flush is. The stages up to `deleting` are those of a cycle that succeeds, those
    from `failed` to `redirtying` the recovery of one that fails. -/
inductive FlushStage where
  | starting
  | removing
  | rotating
  | rotated (claim : Claim g)
  | emptied
  | uploading (claim : Claim g) (plans pending : List (ChunkPlan C))
  | putting (claim : Claim g) (plans : List (ChunkPlan C))
  | evicting (claim : Claim g) (plans : List (ChunkPlan C))
  | checkpointing (started : Bool)
  | clearing (checkpointOk : Bool)
  | closing (checkpointOk : Bool)
  | deleting
  | finished
  | failed (claim : Claim g)
  | copied (claim : Claim g) (recovered : List Nat)
  | cleared (claim : Claim g) (recovered : List Nat)
  | stranded (recovered : List Nat)
  | closed (recovered : List Nat)
  | redirtying (recovered : List Nat)
  | publishing
  | syncPutting
  | syncCheckpointing (started : Bool)
  | syncDeleting

/-- The counters of `FlushStats` that callers read, and whether the pass ended before it
    rotated. -/
structure FlushStats where
  blocksClaimed : Nat
  packsUploaded : Nat
  blocksCrcMismatched : Nat
  early : Bool

def FlushStats.default : FlushStats := ⟨0, 0, 0, false⟩

/-- A flush that holds `flush_lock`: `flush_packs`, or pass number `pass` of `flush_to_s3`. -/
structure FlushRun where
  pass : Option Nat
  stage : FlushStage C g
  stats : FlushStats

end Stages

/-- Which name the inode of the active file has. -/
inductive ActiveName where
  | active
  | flushing
  | none
deriving DecidableEq

variable {Hash PackId : Type} [DecidableEq Hash] [DecidableEq PackId] {g : Geometry}

structure Cache (g : Geometry) (C : Codec (BlockData g.blockSize) Hash PackId) where
  states : StateMap
  dirtyBlockCount : UInt64
  syncingBlockCount : UInt64
  sequence : Nat
  active : DataFile g.blockSize
  activeName : ActiveName
  /-- The flushing file on disk and the handle the cache has on it. -/
  flushingPath : Option (DataFile g.blockSize)
  flushingFile : Option (DataFile g.blockSize)
  flushingActive : Bool
  rotationSeq : Nat
  wal : List WalEntry
  walSynced : Nat
  metadata : Option Metadata
  ckptSkips : Nat
  ckpt : Option CkptRun
  store : PackStore C
  volumeManifest : VolumeManifest PackId
  /-- The manifest object in S3. -/
  durable : VolumeManifest PackId
  flush : Option (FlushRun C g)
  /-- What the last call of `flush_to_s3` returned. -/
  returned : Option FlushStats
  /-- What `teardown_export` is about to return, once its drain loop is over. -/
  remaining : Option UInt64
  acked : Nat → BlockData g.blockSize
  /-- Whether a write was acknowledged since the last pass began. -/
  written : Bool

namespace Cache

variable {C : Codec (BlockData g.blockSize) Hash PackId}

/-- The bytes reads get from S3 for a block. -/
def content (s : Cache g C) (m : VolumeManifest PackId) (b : Nat) : BlockData g.blockSize :=
  (resolveBlock g s.store m b).getD 0

def setState (s : Cache g C) (b : Nat) (st : SparseBlockState) : Cache g C :=
  { s with states := Function.update s.states b st }

def transitionToDirty (s : Cache g C) (b : Nat) : Cache g C :=
  match s.states b with
  | .dirty => s
  | .syncing => { s.setState b .dirty with
      syncingBlockCount := s.syncingBlockCount - 1
      dirtyBlockCount := s.dirtyBlockCount + 1 }
  | .clean | .notPresent => { s.setState b .dirty with dirtyBlockCount := s.dirtyBlockCount + 1 }

def transitionDirtyToSyncing (s : Cache g C) (b : Nat) : Cache g C :=
  match s.states b with
  | .dirty => { s.setState b .syncing with
      dirtyBlockCount := s.dirtyBlockCount - 1
      syncingBlockCount := s.syncingBlockCount + 1 }
  | _ => s

def transitionSyncingToNotPresent (s : Cache g C) (b : Nat) : Cache g C :=
  match s.states b with
  | .syncing => { s.setState b .notPresent with syncingBlockCount := s.syncingBlockCount - 1 }
  | _ => s

def hasAnySyncing (s : Cache g C) : Bool :=
  (List.range (numBlocks g)).any fun b => s.states b = .syncing

def writeActive (s : Cache g C) (b : Nat) (d : BlockData g.blockSize) : Cache g C :=
  { s with active := s.active.writeBlock b d }

/-! ## Guest writes -/

/-- How a write changes the bytes of each block. -/
abbrev Patch (g : Geometry) := Nat → BlockData g.blockSize → BlockData g.blockSize

/-- `promote_syncing_blocks` without `require_promotion`, for one block. -/
def promoteBlock (s : Cache g C) (b : Nat) : Cache g C :=
  match s.flushingFile with
  | none => s
  | some f =>
      match s.states b with
      | .dirty | .clean => s
      | .syncing => (s.writeActive b (f.cur b)).transitionToDirty b
      | .notPresent =>
          if f.cur b = 0 then s else (s.writeActive b (f.cur b)).transitionToDirty b

/-- `wal_append_and_mark_dirty` for one block. -/
def walAppendAndMarkDirty (s : Cache g C) (b : Nat) : Cache g C :=
  if s.states b = .dirty then s
  else
    let seq := nextSequence s.sequence
    { s.transitionToDirty b with sequence := seq, wal := s.wal ++ [⟨b, seq⟩] }

/-- What a write to the block starts from: the guest's bytes, or for a block without local
    data the bytes the cache finds. -/
def base (s : Cache g C) (b : Nat) : BlockData g.blockSize :=
  if (s.states b).hasLocalData then s.acked b else (s.promoteBlock b).active.cur b

def acknowledge (s : Cache g C) (b : Nat) (d : BlockData g.blockSize) : Cache g C :=
  { s with acked := Function.update s.acked b d, written := true }

/-- A write as far as it concerns one block. -/
def putBlock (patch : Patch g) (s : Cache g C) (b : Nat) : Cache g C :=
  let p := s.promoteBlock b
  ((p.writeActive b (patch b (p.active.cur b))).walAppendAndMarkDirty b).acknowledge b
    (patch b (s.base b))

/-- The bytes of block `b` that the range covers are replaced. -/
def overwrite (g : Geometry) (offset len : Nat) (src : Nat → UInt8) : Patch g := fun b old => {
  byte i := overlay offset len src (fun k => old.get (k - b * g.blockSize))
    (b * g.blockSize + i) }

def blocksIn (g : Geometry) (offset len : Nat) : List Nat :=
  let first := offset / g.blockSize
  List.range' first ((offset + len - 1) / g.blockSize + 1 - first)

/-- Whether the running checkpoint keeps appends out of the log. -/
def walHeld (s : Cache g C) : Bool :=
  match s.ckpt with
  | some run => run.mode = .exclusive
  | none => false

def putBlocks (s : Cache g C) (patch : Patch g) (offset len : Nat) : Cache g C :=
  (blocksIn g offset len).foldl (putBlock patch) s

/-- A write that would append waits for a checkpoint that holds the log. -/
def putRange (s : Cache g C) (patch : Patch g) (offset len : Nat) : Option (Cache g C) :=
  if g.size < offset + len then none
  else if len = 0 then some s
  else if s.walHeld = true ∧ (s.putBlocks patch offset len).wal.length ≠ s.wal.length then none
  else some (s.putBlocks patch offset len)

def write (s : Cache g C) (offset : Nat) (data : List UInt8) : Option (Cache g C) :=
  s.putRange (overwrite g offset data.length fun k => data.getD (k - offset) 0) offset data.length

def zeroRange (s : Cache g C) (offset len : Nat) : Option (Cache g C) :=
  s.putRange (overwrite g offset len fun _ => 0) offset len

end Cache

end GlideFS.WriteCache
