import GlideFS.WriteCache.Cache

/-! # Checkpoints, flush cycles and opening the cache

`Act.step` is the step function of one cache: guest writes, the stages of a
checkpoint and the stages of a flush with every way they can fail. `crash` keeps
the files of a state and `openCache` is `WriteCache::open` on them.
-/

namespace GlideFS.WriteCache

open Block Lib

/-- How a rotation ends. Its rename can fail, or the creation of the new file, and after that
    the rename back. -/
inductive RotateOutcome where
  | ok
  | renameFails
  | createFails
  | undoFails
deriving DecidableEq

/-- How the PUT of a manifest ends; `applied` is one that is stored and reported as failed. -/
inductive PutOutcome where
  | ok
  | failed
  | applied
deriving DecidableEq

inductive Act where
  | write (offset : Nat) (data : List UInt8)
  | zeroRange (offset len : Nat)
  | ckptStart
  | ckptCopy
  | ckptSeal
  | ckptPublish
  | ckptTruncate
  | ckptFail
  | flushPacks
  | flushToS3
  | pass
  | removeOrphan (ok : Bool)
  | rotate (outcome : RotateOutcome)
  | cleanEmpty
  | removeEmpty (ok : Bool)
  /-- `skipped` fail their page CRC and go back to DIRTY, except those whose copy to the
      active file fails. -/
  | compute (level : Int) (skipped uncopied : List Nat)
  | upload (k : Nat)
  | append
  | put (outcome : PutOutcome)
  | evict
  | flushCkpt
  | clearFlags
  | dropHandle
  | deleteFile (ok : Bool)
  | flushFail
  | copyBack (uncopied : List Nat)
  | unflag
  | strand
  | closeHandle
  | unlink (ok : Bool)
  | redirty
  | finish (unexplained : Bool)
  | finishSync
  | publish (outcome : PutOutcome)
  | syncPut (outcome : PutOutcome)
  | syncCkpt
  | syncDelete (ok : Bool)
  | teardown (drainDone : Bool)
  /-- The future of the flush is dropped at an await; `applied` tells whether the call it was
      waiting for takes effect all the same. -/
  | dropFlush (applied : Bool)

def publishFlushPasses : Nat := 3

variable {Hash PackId : Type} [DecidableEq Hash] [DecidableEq PackId] {g : Geometry}
  {C : Codec (BlockData g.blockSize) Hash PackId}

namespace Cache

/-! ## Checkpoints -/

def startCkpt (s : Cache g C) (awaited : Bool) : Option (Cache g C) :=
  match s.ckpt with
  | some _ => none
  | none => some { s with
      ckpt := some
        { mode := if ckptMaxSkips ≤ s.ckptSkips then .exclusive else .truncating
          coveredSeq := s.sequence
          stage := .copying 0 fun _ => .notPresent
          awaited } }

def setCkpt (s : Cache g C) (run : CkptRun) (stage : CkptStage) : Cache g C :=
  { s with ckpt := some { run with stage } }

/-- What a flush does when its checkpoint is over. -/
def checkpointed (ok : Bool) (r : FlushRun C g) : Option (FlushRun C g) :=
  match r.stage with
  | .checkpointing true => some { r with stage := .clearing ok }
  | .syncCheckpointing true => if ok then some { r with stage := .syncDeleting } else none
  | _ => some r

def endCkpt (s : Cache g C) (run : CkptRun) (ok : Bool) : Cache g C :=
  { s with
    ckpt := none
    flush := if run.awaited then s.flush.bind (checkpointed ok) else s.flush }

def truncateWal (s : Cache g C) : Cache g C := { s with wal := [], walSynced := 0, ckptSkips := 0 }

def keepWal (s : Cache g C) : Cache g C := { s with ckptSkips := s.ckptSkips + 1 }

/-! ## Flush cycles -/

def setStage (s : Cache g C) (r : FlushRun C g) (stage : FlushStage C g) : Cache g C :=
  { s with flush := some { r with stage } }

def setStats (s : Cache g C) (r : FlushRun C g) (stage : FlushStage C g) (stats : FlushStats) :
    Cache g C :=
  { s with flush := some { r with stage, stats } }

/-- The flush ends; `returned` is what `flush_to_s3` gives back. -/
def endFlush (s : Cache g C) (returned : Option FlushStats) : Cache g C :=
  { s with flush := none, returned }

def flushingExists (s : Cache g C) : Bool :=
  s.flushingPath.isSome || decide (s.activeName = .flushing)

def setFlags (s : Cache g C) (active : Bool) (rotationSeq : Nat) : Cache g C :=
  { s with flushingActive := active, rotationSeq }

def closeFlushing (s : Cache g C) : Cache g C := { s with flushingFile := none }

def removeFlushing (s : Cache g C) : Cache g C :=
  { s with
    flushingPath := none
    activeName := if s.activeName = .flushing then .none else s.activeName }

def setWritten (s : Cache g C) (w : Bool) : Cache g C := { s with written := w }

def startPass (s : Cache g C) (r : FlushRun C g) : Cache g C :=
  let s := s.setWritten (s.written && r.pass.isNone)
  let activeRotation := s.flushingActive || s.flushingFile.isSome
  let staleRotation := activeRotation && !s.hasAnySyncing
  if s.flushingExists then
    if staleRotation then ((s.setFlags false 0).closeFlushing).setStage r .removing
    else if activeRotation then
      s.setStats r .finished { FlushStats.default with early := true }
    else s.setStage r .removing
  else s.setStage r .rotating

def dirtyBlocks (s : Cache g C) : Claim g where
  blocks := (List.range (numBlocks g)).filter fun b => s.states b = .dirty
  distinct := List.nodup_range.filter _
  inRange _ mem := lt_numBlocks.mp (List.mem_range.mp (List.mem_of_mem_filter mem))

def claimDirty (s : Cache g C) : Cache g C :=
  s.dirtyBlocks.blocks.foldl transitionDirtyToSyncing s

/-- The active file becomes the flushing file and an empty one takes its place. -/
def swapFiles (s : Cache g C) : Cache g C :=
  { s with flushingPath := some s.active, flushingFile := some s.active, active := .sparse }

def rotateDataFile (s : Cache g C) (r : FlushRun C g) : RotateOutcome → Option (Cache g C)
  | .ok =>
      if s.activeName = .active then
        some (((s.setFlags true s.sequence).claimDirty.swapFiles).setStage r
          (.rotated s.dirtyBlocks))
      else none
  | .renameFails => some ((s.setFlags true s.sequence).endFlush none)
  | .createFails => some ((s.setFlags false 0).endFlush none)
  | .undoFails =>
      if s.activeName = .active then
        some ({ s.setFlags false 0 with activeName := .flushing }.endFlush none)
      else none

/-- A skipped block is copied back unless a write has taken it already. -/
def unskipBlock (f : DataFile g.blockSize) (uncopied : List Nat) (s : Cache g C) (b : Nat) :
    Cache g C :=
  if s.states b = .syncing then
    if b ∈ uncopied then s else (s.writeActive b (f.cur b)).transitionToDirty b
  else s.transitionToDirty b

def computeFlush (s : Cache g C) (r : FlushRun C g) (claim : Claim g) (level : Int)
    (skipped uncopied : List Nat) : Option (Cache g C) :=
  s.flushingFile.bind fun f =>
    (planFlush s.store s.volumeManifest level (claim.read f skipped)).map fun plans =>
      let back := claim.blocks.filter (· ∈ skipped)
      (back.foldl (unskipBlock f uncopied) s).setStats r
        (.uploading claim plans (staged s.volumeManifest plans))
        ⟨claim.blocks.length, 0, back.length, false⟩

def uploadPack (s : Cache g C) (p : ChunkPlan C) : Cache g C :=
  { s with store := s.store.streamChunkPack p.chunkIdx p.pack }

def appendPacks (s : Cache g C) (packs : List (ChunkPlan C)) : Cache g C :=
  { s with volumeManifest := appendStaged s.volumeManifest packs }

def putManifest (s : Cache g C) (outcome : PutOutcome) : Cache g C :=
  { s with durable := if outcome = .failed then s.durable else s.volumeManifest }

def evictBlocks (s : Cache g C) (bs : List Nat) : Cache g C :=
  bs.foldl transitionSyncingToNotPresent s

/-- The blocks that recovery saves: those a write has taken and those it copies. -/
def recoverable (s : Cache g C) (claim : Claim g) (uncopied : List Nat) : List Nat :=
  claim.blocks.filter fun b =>
    decide (s.states b ≠ .syncing) || (s.flushingFile.isSome && decide (b ∉ uncopied))

def copyBackBlock (f : DataFile g.blockSize) (s : Cache g C) (b : Nat) : Cache g C :=
  if s.states b = .syncing then s.writeActive b (f.cur b) else s

def copyBack (s : Cache g C) (claim : Claim g) (uncopied : List Nat) : Cache g C :=
  match s.flushingFile with
  | none => s
  | some f => (s.recoverable claim uncopied).foldl (copyBackBlock f) s

def strandBlock (recovered : List Nat) (s : Cache g C) (b : Nat) : Cache g C :=
  if b ∈ recovered then s else s.transitionSyncingToNotPresent b

def dropFlush (s : Cache g C) : Cache g C :=
  { s with flush := none, ckpt := s.ckpt.map fun run => { run with awaited := false } }

end Cache

open Cache

/-- The steps of a flush from the stage it is at. -/
def Act.flushStep (s : Cache g C) (r : FlushRun C g) : Act → Option (Cache g C)
  | .pass => match r.stage with
      | .starting => some (s.startPass r)
      | _ => none
  | .removeOrphan ok => match r.stage with
      | .removing => some (if ok then s.removeFlushing.setStage r .rotating
          else s.setStats r .finished { FlushStats.default with early := true })
      | _ => none
  | .rotate outcome => match r.stage with
      | .rotating => s.rotateDataFile r outcome
      | _ => none
  | .cleanEmpty => match r.stage with
      | .rotated claim =>
          if claim.blocks = [] then some (((s.setFlags false 0).closeFlushing).setStage r .emptied)
          else none
      | _ => none
  | .removeEmpty ok => match r.stage with
      | .emptied => some ((if ok then s.removeFlushing else s).setStage r .finished)
      | _ => none
  | .compute level skipped uncopied => match r.stage with
      | .rotated claim =>
          if claim.blocks = [] then none else s.computeFlush r claim level skipped uncopied
      | _ => none
  | .upload k => match r.stage with
      | .uploading claim plans pending => (pending[k]?).map fun p =>
          (s.uploadPack p).setStats r (.uploading claim plans (pending.eraseIdx k))
            { r.stats with packsUploaded := r.stats.packsUploaded + 1 }
      | _ => none
  | .append => match r.stage with
      | .uploading claim plans [] =>
          let packs := staged s.volumeManifest plans
          some ((s.appendPacks packs).setStage r
            (if packs = [] then .evicting claim plans else .putting claim plans))
      | _ => none
  | .put outcome => match r.stage with
      | .putting claim plans => some ((s.putManifest outcome).setStage r
          (if outcome = .ok then .evicting claim plans else .failed claim))
      | _ => none
  | .evict => match r.stage with
      | .evicting _ plans => some ((s.evictBlocks (flushedBlocks plans)).setStage r
          (.checkpointing false))
      | _ => none
  | .flushCkpt => match r.stage with
      | .checkpointing false => (s.startCkpt true).map fun s => s.setStage r (.checkpointing true)
      | _ => none
  | .clearFlags => match r.stage with
      | .clearing ok => some ((s.setFlags false 0).setStage r (.closing ok))
      | _ => none
  | .dropHandle => match r.stage with
      | .closing ok => some (s.closeFlushing.setStage r (if ok then .deleting else .finished))
      | _ => none
  | .deleteFile ok => match r.stage with
      | .deleting => some ((if ok then s.removeFlushing else s).setStage r .finished)
      | _ => none
  | .flushFail => match r.stage with
      | .rotated claim => if claim.blocks = [] then none else some (s.setStage r (.failed claim))
      | .uploading claim _ _ => some (s.setStage r (.failed claim))
      | _ => none
  | .copyBack uncopied => match r.stage with
      | .failed claim => some ((s.copyBack claim uncopied).setStage r
          (.copied claim (s.recoverable claim uncopied)))
      | _ => none
  | .unflag => match r.stage with
      | .copied claim recovered => some ((s.setFlags false 0).setStage r (.cleared claim recovered))
      | _ => none
  | .strand => match r.stage with
      | .cleared claim recovered => some ((claim.blocks.foldl (strandBlock recovered) s).setStage r
          (.stranded recovered))
      | _ => none
  | .closeHandle => match r.stage with
      | .stranded recovered => some (s.closeFlushing.setStage r (.closed recovered))
      | _ => none
  | .unlink ok => match r.stage with
      | .closed recovered => some ((if ok then s.removeFlushing else s).setStage r
          (.redirtying recovered))
      | _ => none
  | .redirty => match r.stage with
      | .redirtying recovered => some ((recovered.foldl transitionToDirty s).endFlush none)
      | _ => none
  | .finish unexplained => match r.stage with
      | .finished => match r.pass with
          | none => some (s.endFlush s.returned)
          | some n =>
              if r.stats.blocksCrcMismatched = 0 then
                if r.stats.packsUploaded = 0 then some (s.setStage r .publishing)
                else some (s.endFlush (some r.stats))
              else if unexplained = true ∨ publishFlushPasses ≤ n then some (s.endFlush none)
              else some { s with flush := some ⟨some (n + 1), .starting, .default⟩ }
      | _ => none
  | .finishSync => match r.stage with
      | .finished =>
          if r.pass = none ∧ 0 < r.stats.packsUploaded then some (s.setStage r .syncPutting)
          else none
      | _ => none
  | .publish outcome => match r.stage with
      | .publishing => some ((s.putManifest outcome).endFlush
          (if outcome = .ok then some r.stats else none))
      | _ => none
  | .syncPut outcome => match r.stage with
      | .syncPutting =>
          if outcome = .ok then some ((s.putManifest .ok).setStage r (.syncCheckpointing false))
          else some ((s.putManifest outcome).endFlush s.returned)
      | _ => none
  | .syncCkpt => match r.stage with
      | .syncCheckpointing false =>
          (s.startCkpt true).map fun s => s.setStage r (.syncCheckpointing true)
      | _ => none
  | .syncDelete ok => match r.stage with
      | .syncDeleting => some ((if ok then s.removeFlushing else s).endFlush s.returned)
      | _ => none
  | .dropFlush applied => match r.stage with
      | .removing | .emptied | .deleting | .syncDeleting =>
          some (if applied then s.removeFlushing.dropFlush else s.dropFlush)
      | .putting _ _ | .publishing | .syncPutting =>
          some (if applied then (s.putManifest .applied).dropFlush else s.dropFlush)
      | .starting | .rotated _ | .uploading _ _ _ | .checkpointing _ | .syncCheckpointing _ =>
          some s.dropFlush
      | _ => none
  | _ => none

/-- The steps of the checkpoint that holds `ckpt_lock`. -/
def Act.ckptStep (s : Cache g C) (run : CkptRun) : Act → Option (Cache g C)
  | .ckptCopy => match run.stage with
      | .copying next copy =>
          if next < numBlocks g then
            some (s.setCkpt run
              (.copying (next + 1) (Function.update copy next (s.states next))))
          else none
      | _ => none
  | .ckptSeal => match run.stage with
      | .copying next copy =>
          if next = numBlocks g then
            some (s.setCkpt run (.sealed ⟨copy, run.coveredSeq, s.rotationSeq⟩))
          else none
      | _ => none
  | .ckptPublish => match run.stage with
      | .sealed saved => some ({ s with metadata := some saved }.setCkpt run .published)
      | _ => none
  | .ckptTruncate => match run.stage with
      | .published =>
          if run.mode = .exclusive ∨ s.sequence = run.coveredSeq then
            some (s.truncateWal.endCkpt run true)
          else some (s.keepWal.endCkpt run true)
      | _ => none
  | .ckptFail => some (s.endCkpt run false)
  | _ => none

def Act.step (s : Cache g C) (a : Act) : Option (Cache g C) :=
  match a with
  | .write offset data => s.write offset data
  | .zeroRange offset len => s.zeroRange offset len
  | .ckptStart => s.startCkpt false
  -- after its teardown nobody flushes the export any more
  | .flushPacks =>
      if s.flush.isNone ∧ s.remaining = none then
        some { s with flush := some ⟨none, .starting, .default⟩ }
      else none
  | .flushToS3 =>
      if s.flush.isNone ∧ s.remaining = none then
        some { s with flush := some ⟨some 1, .starting, .default⟩, returned := none }
      else none
  | .teardown drainDone =>
      -- the drain loop is over; the last manifest sync follows
      if s.flush.isNone ∧ s.remaining = none then
        let last := some ⟨none, .syncPutting, .default⟩
        if drainDone = false then some { s with flush := last, remaining := some s.dirtyBlockCount }
        else if (s.returned.map FlushStats.blocksClaimed) = some 0 ∧ s.dirtyBlockCount = 0 then
          some { s with flush := last, remaining := some 0 }
        else none
      else none
  | .ckptCopy | .ckptSeal | .ckptPublish | .ckptTruncate | .ckptFail =>
      s.ckpt.bind fun run => a.ckptStep s run
  | _ => s.flush.bind fun r => a.flushStep s r

/-! ## Crash and open -/

structure Disk (n : Nat) where
  active : DataFile n
  flushing : Option (DataFile n)
  wal : List WalEntry
  metadata : Option Metadata

/-- A process crash keeps the files as they were written. -/
def Cache.crash (s : Cache g C) : Disk g.blockSize where
  active := if s.activeName = .active then s.active else .sparse
  flushing := if s.activeName = .flushing then some s.active else s.flushingPath
  wal := s.wal
  metadata := s.metadata

namespace Disk

variable (d : Disk g.blockSize)

def loaded : Metadata := loadMetadata d.metadata

def walEntries : List WalEntry := d.wal.filter fun e => walMinSeq d.loaded < e.sequence

/-- The states after replay. -/
def replayed (g : Geometry) (d : Disk g.blockSize) : StateMap := fun b =>
  if b < numBlocks g then applyEntries (numBlocks g) d.loaded.states d.walEntries b
  else .notPresent

/-- The blocks `open` takes for written after the rotation. -/
def postRotation (g : Geometry) (d : Disk g.blockSize) (b : Nat) : Bool :=
  (decide (0 < d.loaded.rotationSeq) && decide (replayed g d b = .dirty)) ||
    d.walEntries.any fun e => e.blockIndex = b

/-- Blocks with local data from before the rotation are copied from the flushing file. -/
def recoveredActive (g : Geometry) (d : Disk g.blockSize) : DataFile g.blockSize :=
  match d.flushing with
  | none => d.active
  | some f =>
      ((List.range (numBlocks g)).filter fun b =>
        (replayed g d b).hasLocalData && !postRotation g d b).foldl
          (fun a b => a.writeBlock b (f.cur b)) d.active

def openStates (g : Geometry) (d : Disk g.blockSize) : StateMap := fun b =>
  match replayed g d b with
  | .dirty | .syncing => .dirty
  | .clean | .notPresent => .notPresent

/-- `open` counts a replayed block again when it was SYNCING, and takes one off for every CLEAN
    block though none was counted. -/
def openDirtyCount (g : Geometry) (d : Disk g.blockSize) : Nat :=
  let saved := (List.range (numBlocks g)).countP fun b => (d.loaded.states b).hasLocalData
  let marked := (d.walEntries.foldl (fun (acc : StateMap × Nat) e =>
    (applyEntry (numBlocks g) acc.1 e,
      if e.blockIndex < numBlocks g ∧ acc.1 e.blockIndex ≠ .dirty then acc.2 + 1 else acc.2))
    (d.loaded.states, saved)).2
  marked - (List.range (numBlocks g)).countP fun b => replayed g d b = .clean

end Disk

/-- An empty cache directory. -/
def Disk.new {n : Nat} : Disk n := ⟨.sparse, none, [], none⟩

/-- `WriteCache::open` with the manifest object of S3. -/
def openCache (d : Disk g.blockSize) (store : PackStore C) (durable : VolumeManifest PackId) :
    Cache g C where
  states := d.openStates g
  dirtyBlockCount := .ofNat (d.openDirtyCount g)
  syncingBlockCount := 0
  sequence := d.walEntries.foldl (fun top e => max top e.sequence) d.loaded.maxSequence
  active := d.recoveredActive g
  activeName := .active
  flushingPath := none
  flushingFile := none
  flushingActive := false
  rotationSeq := 0
  wal := d.walEntries
  walSynced := d.walEntries.length
  metadata := d.metadata
  ckptSkips := 0
  ckpt := none
  store
  volumeManifest := durable
  durable
  flush := none
  returned := none
  remaining := none
  acked b := if d.openStates g b = .dirty then (d.recoveredActive g).cur b
    else (resolveBlock g store durable b).getD 0
  written := false

/-- A device of one block of 16 bytes. -/
def oneBlockDevice : Geometry where
  size := 16
  blockSize := 16
  chunkSize := 134217728
  blockSize_pos := Nat.zero_lt_succ _
  chunkSize_pos := Nat.zero_lt_succ _
  blockSize_dvd := ⟨8388608, rfl⟩
  chunks_fit := Nat.le_of_ble_eq_true rfl

/-- Its cache, opened in an empty directory for a new volume. -/
def newCache : Cache oneBlockDevice (.plain 16) := openCache .new .empty .new

/-- A write of one byte and a flush up to its rotation. -/
def writeAndRotate : List Act := [.write 0 [1], .flushPacks, .pass, .rotate .ok]

end GlideFS.WriteCache
