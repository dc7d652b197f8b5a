import GlideFS.Router.Manifests
import GlideFS.WriteCache.LiveCounts

/-! # Re-attaches during a flush

A flush and `enforce_attach_fence` share the manifest in memory, its ETag and the
object in S3, and only the flush holds `flush_lock`. Both are taken here one access at
a time: the flush reads a chunk's packs, plans and uploads its pack, appends what it has
staged, serializes, reads the ETag, PUTs and evicts; an attach reads the token and the
ETag, stamps and serializes, PUTs, and after a failed precondition reads the object and
installs it, first the manifest and then its ETag. Compactions swap packs in memory and
other nodes store manifests of their own meanwhile. ETags are whatever the store gives.
-/

namespace GlideFS.Router.Reattach

open Block Lib WriteCache

variable {D Hash PackId E : Type} [Zero D] [DecidableEq D] [DecidableEq Hash]
  [DecidableEq PackId] [DecidableEq E] {C : Codec D Hash PackId}

/-- A manifest with the token stamped into it. -/
structure Stamped (PackId : Type) where
  manifest : VolumeManifest PackId
  token : Token

/-- The manifest object in S3. A store may give it no ETag. -/
structure Stored (PackId E : Type) where
  content : Stamped PackId
  etag : Option E

/-- Where a flush stands. -/
inductive Stage (PackId E : Type) where
  | planning
  | appended
  | serialized (bytes : Stamped PackId)
  | putting (bytes : Stamped PackId) (expected : Option E) (attempts : Nat)
  | stored (etag : Option E)
  | evicting
  | failed

/-- A flush under `flush_lock`. Every block of the snapshot is packed or found in place, so all
    of them are evicted in the end. -/
structure Cycle (C : Codec D Hash PackId) (E : Type) where
  plan : LiveCounts.Flush C
  stage : Stage PackId E

/-- `enforce_attach_fence`, with `tries` rounds left after this one. -/
inductive Attach (PackId E : Type) where
  | fencing (tries : Nat) (my : Token)
  | seizing (tries : Nat) (my accepted : Token)
  | stamping (tries : Nat) (my accepted : Token) (expected : Option E)
  | seizePut (tries : Nat) (my : Token) (bytes : Stamped PackId) (expected : Option E)
  | seized (etag : Option E)
  | contended (tries : Nat) (my : Token)
  | reloading (tries : Nat) (my : Token) (found : Stored PackId E)
  | reloaded (tries : Nat) (my : Token) (etag : Option E)

/-- `publish_tag` under the export's own name, which holds `flush_lock`. -/
inductive Publish (PackId E : Type) where
  | locked
  | serialized (bytes : Stamped PackId)
  | putting (bytes : Stamped PackId) (expected : Option E)
  | stored (etag : Option E)

/-- An open export, its packs and its manifest object. -/
structure State (C : Codec D Hash PackId) (E : Type) where
  store : PackStore C
  object : Option (Stored PackId E)
  memory : Stamped PackId
  /-- `manifest_etag`. -/
  etag : Option E
  /-- `current_generation` and `current_lease_revision`. -/
  held : Token
  flush : Option (Cycle C E)
  publish : Option (Publish PackId E)
  attach : Nat → Option (Attach PackId E)
  compacting : Nat → Option (LiveCounts.Compaction C)
  blocks : Nat → SparseBlockState

inductive FlushAct (E : Type) where
  /-- Reads a chunk's packs, plans its pack or uploads one. -/
  | plan (a : LiveCounts.FlushAct)
  | append
  | serialize
  | readEtag
  | put (reply : Reply) (etag : Option E)
  | storeEtag
  | evict
  /-- An error before the PUT. -/
  | fail
  /-- After an error: the blocks are copied back from the flushing file, but for `lost`. -/
  | recover (lost : List Nat)

inductive Act (D PackId E : Type) where
  | flushBegin (g : Geometry) (snap : Snapshot g D)
  | flush (a : FlushAct E)
  | attach (j : Nat) (my : Token)
  /-- The next access of an attach. -/
  | fence (j : Nat) (reply : Reply) (etag : Option E)
  | publishTag
  | publish (reply : Reply) (etag : Option E)
  | compactList (j c : Nat)
  | compact (j : Nat) (a : LiveCounts.CompactAct)
  /-- A guest write or trim of a block. -/
  | guest (b : Nat)
  /-- Another node stores its manifest. -/
  | foreign (content : Stamped PackId) (etag : Option E)

/-! ## The object -/

/-- If-Match, or no condition at all. -/
def Matches (object : Option (Stored PackId E)) : Option E → Bool
  | none => true
  | some e => object.any fun o => o.etag = some e

inductive Outcome where
  | accepted
  | refused
  | error
deriving DecidableEq

/-- Whether `put_manifest` changes the object. -/
def puts (object : Option (Stored PackId E)) (expected : Option E) (reply : Reply) : Bool :=
  Matches object expected && reply ≠ .failed

/-- The object after `put_manifest`. -/
def putManifest (object : Option (Stored PackId E)) (bytes : Stamped PackId) (expected : Option E)
    (reply : Reply) (etag : Option E) : Option (Stored PackId E) :=
  if puts object expected reply then some ⟨bytes, etag⟩ else object

/-- What the caller of `put_manifest` sees. -/
def outcome (object : Option (Stored PackId E)) (expected : Option E) : Reply → Outcome
  | .ok => if Matches object expected then .accepted else .refused
  | .failed | .applied => .error

/-! ## The steps -/

def setStage (x : Cycle C E) (stage : Stage PackId E) : Option (Cycle C E) := some { x with stage }

namespace State

/-- `flush_dirty_body`, and what `flush_dirty_inner` does after its error. -/
def flushStep (t : State C E) (x : Cycle C E) : FlushAct E → Option (State C E)
  | .plan a =>
      match x.stage with
      | .planning =>
          ((LiveCounts.Volume.opened t.memory.manifest).flushStep t.store x.plan a).bind
            fun (s, v) => v.flush.map fun f =>
              { t with store := s, flush := some ⟨f, .planning⟩ }
      | _ => none
  | .append =>
      match x.stage with
      | .planning =>
          if x.plan.todo.isEmpty ∧ x.plan.reading.isNone ∧ x.plan.uploading.isEmpty then
            -- with nothing staged there is nothing to sync
            if x.plan.staged.isEmpty then some { t with flush := setStage x .evicting }
            else some { t with
              memory := ⟨appendStaged t.memory.manifest x.plan.staged, t.held⟩
              flush := setStage x .appended }
          else none
      | _ => none
  | .serialize =>
      match x.stage with
      | .appended => some { t with flush := setStage x (.serialized t.memory) }
      | _ => none
  | .readEtag =>
      match x.stage with
      | .serialized bytes => some { t with flush := setStage x (.putting bytes t.etag 3) }
      | _ => none
  | .put reply etag =>
      match x.stage with
      | .putting bytes expected (attempts + 1) =>
          some { t with
            object := putManifest t.object bytes expected reply etag
            flush := setStage x (match outcome t.object expected reply with
              | .accepted => .stored etag
              | .refused => .failed
              | .error => if attempts = 0 then .failed else .putting bytes expected attempts) }
      | _ => none
  | .storeEtag =>
      match x.stage with
      | .stored etag => some { t with etag, flush := setStage x .evicting }
      | _ => none
  | .evict =>
      match x.stage with
      | .evicting => some { t with
          flush := none
          blocks := fun b =>
            if b ∈ x.plan.snap.blocks.map Prod.fst ∧ t.blocks b = .syncing then .notPresent
            else t.blocks b }
      | _ => none
  | .fail =>
      match x.stage with
      | .planning | .appended => some { t with flush := setStage x .failed }
      | _ => none
  | .recover lost =>
      match x.stage with
      | .failed => some { t with
          flush := none
          blocks := fun b =>
            if b ∈ x.plan.snap.blocks.map Prod.fst then
              if t.blocks b = .syncing ∧ b ∈ lost then .notPresent else .dirty
            else t.blocks b }
      | _ => none

def setAttach (t : State C E) (j : Nat) (call : Option (Attach PackId E)) : State C E :=
  { t with attach := Function.update t.attach j call }

/-- `enforce_attach_fence`. -/
def attachStep (t : State C E) (j : Nat) (reply : Reply) (etag : Option E) :
    Attach PackId E → State C E
  | .fencing tries my =>
      if fenceAttach t.memory.token my = .reject then t.setAttach j none
      else
        let accepted := effective t.memory.token my
        let t := { t with held := accepted }
        if my = .none ∨ accepted.composite = t.memory.token.composite then t.setAttach j none
        else t.setAttach j (some (.seizing tries my accepted))
  | .seizing tries my accepted => t.setAttach j (some (.stamping tries my accepted t.etag))
  | .stamping tries my accepted expected =>
      let memory := { t.memory with token := accepted }
      { t with memory }.setAttach j (some (.seizePut tries my memory expected))
  | .seizePut tries my bytes expected =>
      { t with object := putManifest t.object bytes expected reply etag }.setAttach j
        (match outcome t.object expected reply with
          | .accepted => some (.seized etag)
          | .refused => some (.contended tries my)
          | .error => none)
  | .seized etag => { t with etag }.setAttach j none
  | .contended tries my =>
      t.setAttach j (match reply, t.object with
        | .ok, some found => some (.reloading tries my found)
        | .ok, none => some (.reloaded tries my none)
        | _, _ => none)
  | .reloading tries my found =>
      { t with memory := found.content }.setAttach j (some (.reloaded tries my found.etag))
  | .reloaded tries my etag =>
      { t with etag }.setAttach j
        (match tries with
          | 0 => none
          | tries + 1 => some (.fencing tries my))

/-- `publish_tag`. -/
def publishStep (t : State C E) (reply : Reply) (etag : Option E) :
    Publish PackId E → State C E
  | .locked => { t with publish := some (.serialized t.memory) }
  | .serialized bytes => { t with publish := some (.putting bytes t.etag) }
  | .putting bytes expected =>
      { t with
        object := putManifest t.object bytes expected reply etag
        publish := match outcome t.object expected reply with
          | .accepted => some (.stored etag)
          | _ => none }
  | .stored etag => { t with etag, publish := none }

end State

def step (t : State C E) : Act D PackId E → Option (State C E)
  | .flushBegin g snap =>
      if t.flush.isNone ∧ t.publish.isNone ∧ ∀ p ∈ snap.blocks, t.blocks p.1 = .dirty then
        some { t with
          flush := some ⟨⟨g, snap, snap.chunks, none, [], []⟩, .planning⟩
          blocks := fun b => if b ∈ snap.blocks.map Prod.fst then .syncing else t.blocks b }
      else none
  | .flush a => t.flush.bind fun x => t.flushStep x a
  | .attach j my =>
      if (t.attach j).isNone then some (t.setAttach j (some (.fencing 2 my))) else none
  | .fence j reply etag => (t.attach j).map (t.attachStep j reply etag)
  | .publishTag =>
      if t.flush.isNone ∧ t.publish.isNone then some { t with publish := some .locked } else none
  | .publish reply etag => t.publish.map (t.publishStep reply etag)
  | .compactList j c =>
      if (t.compacting j).isNone then
        let job := LiveCounts.Compaction.listed c (t.memory.manifest.chunkPackIds c)
        some { t with compacting := Function.update t.compacting j (some job) }
      else none
  | .compact j a =>
      (t.compacting j).bind fun job =>
        (LiveCounts.Volume.compactStep t.store t.memory.manifest job a).map fun (s, m, job) =>
          { t with
            store := s
            memory := { t.memory with manifest := m }
            compacting := Function.update t.compacting j job }
  | .guest b => some { t with blocks := Function.update t.blocks b .dirty }
  | .foreign content etag => some { t with object := some ⟨content, etag⟩ }

/-! ## Manifests that take the place of others -/

/-- Whatever is uploaded from now on, the new manifest resolves the block to its content where
    the old one does. -/
def Covers (g : Geometry) (s : PackStore C) (old new : VolumeManifest PackId) (p : Nat × D) : Prop :=
  ∀ s', s.Extends s' → resolveBlock g s' old p.1 = some p.2 → resolveBlock g s' new p.1 = some p.2

/-- The new manifest has the blocks of the flush that the old one has, in the chunks the flush
    has read. -/
def Cycle.KeptBy (x : Cycle C E) (s : PackStore C) (old new : VolumeManifest PackId) : Prop :=
  ∀ p ∈ x.plan.snap.blocks, x.plan.geometry.chunkIdxForBlock p.1 ∉ x.plan.todo →
    Covers x.plan.geometry s old new p

/-- The flush goes by the manifest in memory. -/
def Stage.UsesMemory : Stage PackId E → Prop
  | .planning | .appended => True
  | _ => False

/-- The flush goes by the object. -/
def Stage.UsesObject : Stage PackId E → Prop
  | .stored _ | .evicting => True
  | _ => False

/-- A manifest stored between the flush's PUT and its eviction has the flush's blocks. -/
def State.StoresKept (t : State C E) (bytes : Stamped PackId) : Prop :=
  ∀ x o, t.flush = some x → x.stage.UsesObject → t.object = some o →
    x.KeptBy t.store o.content.manifest bytes.manifest

/-- The step loses no block of the flush to another manifest: one that is installed in memory
    while the flush goes by that, or stored while it goes by the object, has the blocks of the one
    it replaces, and so has the object when the flush finds nothing to store. A new pack that the
    chunk lists already is what reads resolve to. An error of the flush is followed by copies that
    succeed. -/
def Careful (t : State C E) : Act D PackId E → Prop
  | .flush (.plan (.compute level)) => ∀ x c m, t.flush = some x → x.plan.reading = some (c, m) →
      changedBlocks t.store m level x.plan.snap c ≠ [] →
      C.contentPackId (changedBlocks t.store m level x.plan.snap c) ∈
        t.memory.manifest.chunkPackIds c →
      ∀ p ∈ x.plan.snap.inChunk c,
        resolveBlock x.plan.geometry t.store t.memory.manifest p.1 = some p.2
  | .flush .append => ∀ x, t.flush = some x → x.plan.staged = [] →
      ∃ o, t.object = some o ∧ x.KeptBy t.store t.memory.manifest o.content.manifest
  | .flush (.recover lost) => ∀ x, t.flush = some x → ∀ p ∈ x.plan.snap.blocks,
      t.blocks p.1 = .syncing → p.1 ∉ lost
  | .fence j reply _ => ∀ call, t.attach j = some call →
      match call with
      | .reloading _ _ found => ∀ x, t.flush = some x → x.stage.UsesMemory →
          x.KeptBy t.store t.memory.manifest found.content.manifest
      | .seizePut _ _ bytes expected => puts t.object expected reply → t.StoresKept bytes
      | _ => True
  | .foreign content _ => t.StoresKept content
  | _ => True

/-- No flush and no compaction is under way. -/
structure Start (t : State C E) : Prop where
  flush : t.flush = none
  compacting : ∀ j, t.compacting j = none

end GlideFS.Router.Reattach
