import GlideFS.Lib.Runs
import GlideFS.Block.Keys
import Mathlib.Data.Finmap
import Mathlib.Data.Finset.Prod
import Mathlib.Logic.Function.Basic

/-! # The pool of image layers

A layered bless stores every layer of an image that is not there yet, packs first
and the manifest last, and then puts the descriptor `images/{name}` that lists them.
A layer is there if its manifest is. `reconcile_layers` reads all descriptors, lists
the layers, and marks those that none of the descriptors lists; once a mark is as
old as the grace period it deletes the layer's objects one by one.

Any number of blesses and collections work side by side. A bless stops at any point
and is over before the grace period is; a collection fails at any call, and may be
killed. A collection finds any saved state.
-/

namespace GlideFS.Gc.Layers

open GlideFS.Lib GlideFS.Block.Keys

abbrev Digest := ℕ

abbrev PackId := ℕ

abbrev Manifests := Finmap fun _ : Digest => Finset PackId

abbrev Images := Finmap fun _ : List Char => Finset Digest

/-! ## The dead marks -/

/-- `GcState.dead_layers`: since when a layer is dead, `none` for a text that does not parse. -/
abbrev DeadLayers := Digest → Option (Option ℕ)

/-- `is_layer_eligible`. -/
def isLayerEligible (state : DeadLayers) (grace now : ℕ) (d : Digest) : Bool :=
  match state d with
  | some (some stamp) => grace ≤ now - stamp
  | _ => false

theorem eligible_stamp {state : DeadLayers} {grace now : ℕ} {d : Digest} (positive : 0 < grace)
    (h : isLayerEligible state grace now d = true) :
    ∃ stamp, state d = some (some stamp) ∧ stamp + grace ≤ now := by
  unfold isLayerEligible at h
  split at h
  · rename_i stamp marked
    have age := of_decide_eq_true h
    exact ⟨stamp, marked, by omega⟩
  · cases h

/-- The layer part of `GcStateDelta`. -/
structure Delta where
  newlyDead : List (Digest × ℕ)
  revived : Finset Digest
  deleted : Finset Digest

def applyDelta (state : DeadLayers) (delta : Delta) : DeadLayers := fun d =>
  if d ∈ delta.revived ∨ d ∈ delta.deleted then none
  else (state d).or ((delta.newlyDead.lookup d).map some)

/-! ## Blesses and collections -/

/-- `run_bless_oci_layered` between two of its calls: the layers still to come, those that are
    stored, and the one that is being uploaded with its packs so far. -/
structure Bless where
  name : List Char
  began : ℕ
  todo : List Digest
  done : List Digest
  upload : Option (Digest × Finset PackId)

/-- The layers the bless has come to. -/
def Bless.reached (b : Bless) : List Digest := b.done ++ (b.upload.map Prod.fst).toList

inductive Object where
  | manifest
  | pack (p : PackId)
  deriving DecidableEq

/-- Where `reconcile_layers` stands between two of its calls. -/
inductive Stage where
  | listImages
  | readImages (todo : Finset (List Char)) (live : Finset Digest)
  | reconcile (todo live : Finset Digest)
  /-- The layer is going to be deleted; its objects have not been listed yet. -/
  | doomed (d : Digest) (todo live : Finset Digest)
  | deleting (d : Digest) (objects : Finset Object) (todo live : Finset Digest)

namespace Stage

/-- The descriptors have been listed. -/
def listed : Stage → Prop
  | listImages => False
  | _ => True

def unread : Stage → Finset (List Char)
  | readImages todo _ => todo
  | _ => ∅

def live : Stage → Finset Digest
  | listImages => ∅
  | readImages _ live | reconcile _ live | doomed _ _ live | deleting _ _ _ live => live

/-- The layer that is being deleted. -/
def target : Stage → Option Digest
  | doomed d _ _ | deleting d _ _ _ => some d
  | _ => none

end Stage

/-- One `reconcile_layers` with the state it was given. No code reads when the descriptors were
    listed and the layers of descriptors put since, with the time their blesses began. -/
structure Run where
  state : DeadLayers
  grace : ℕ
  dryRun : Bool
  budget : ℕ
  stage : Stage
  delta : Delta
  listedAt : ℕ
  missed : List (Digest × ℕ)

inductive Verdict where
  | revive
  | doom
  | mark
  | skip
  deriving DecidableEq

/-- What becomes of a layer that is there. -/
def Run.verdict (run : Run) (now : ℕ) (live : Finset Digest) (d : Digest) : Verdict :=
  if d ∈ live then if (run.state d).isSome then .revive else .skip
  else if isLayerEligible run.state run.grace now d then
    if run.dryRun || run.budget = 0 then .skip else .doom
  else if (run.state d).isNone then .mark
  else .skip

/-- The objects in S3, the state file and everything at work. A descriptor is stored under what
    `ObjectPath::from` makes of its name; `blessed` are those put by a bless. -/
structure State where
  now : ℕ
  manifests : Manifests
  packs : Finset (Digest × PackId)
  images : Images
  blessed : Finset (List Char)
  file : DeadLayers
  blesses : ℕ → Option Bless
  runs : ℕ → Option Run

inductive BlessCall where
  /-- `head_manifest`. -/
  | head
  | putPack (p : PackId)
  | putManifest
  | putDescriptor
  deriving DecidableEq

inductive GcCall where
  | listImages
  | readImage (n : List Char) (ok : Bool)
  | listLayers
  | take (d : Digest)
  | listObjects
  /-- A delete that fails may still have been applied. -/
  | delete (o : Object) (gone ok : Bool)
  | next
  | finish

inductive Act where
  | tick (n : ℕ)
  /-- The next collection finds another state file. -/
  | setFile (file : DeadLayers)
  | blessStart (b : ℕ) (name : List Char) (layers : List Digest)
  | bless (b : ℕ) (call : BlessCall)
  | blessStop (b : ℕ)
  | gcStart (r : ℕ) (grace : ℕ) (dryRun : Bool) (budget : ℕ)
  | gc (r : ℕ) (call : GcCall)
  | gcAbort (r : ℕ)

-- `PathPart::from`
variable (encode : List Char → List Char)

namespace State

def setBless (s : State) (b : ℕ) (bless : Option Bless) : State :=
  { s with blesses := Function.update s.blesses b bless }

def setRun (s : State) (r : ℕ) (run : Option Run) : State :=
  { s with runs := Function.update s.runs r run }

/-- The digests under `layers/`. -/
def present (s : State) : Finset Digest := s.manifests.keys ∪ s.packs.image Prod.fst

def objects (s : State) (d : Digest) : Finset Object :=
  (if d ∈ s.manifests then {.manifest} else ∅) ∪
    (s.packs.filter fun x => x.1 = d).image fun x => .pack x.2

def erase (s : State) (d : Digest) : Object → State
  | .manifest => { s with manifests := s.manifests.erase d }
  | .pack p => { s with packs := s.packs.erase (d, p) }

/-- A descriptor is put; the collections that have listed the descriptors miss it. -/
def putDescriptor (s : State) (bless : Bless) : State :=
  { s with
    images := s.images.insert (objectPath encode bless.name) bless.done.toFinset
    blessed := insert (objectPath encode bless.name) s.blessed
    runs := fun r => (s.runs r).map fun run =>
      { run with missed := bless.done.map (·, bless.began) ++ run.missed } }

end State

/-- A call of a bless. -/
def blessStep (s : State) (b : ℕ) (bless : Bless) (call : BlessCall) : Option State :=
  match call, bless.upload, bless.todo with
  | .head, none, d :: rest =>
      if d ∈ s.manifests then
        some (s.setBless b (some { bless with todo := rest, done := bless.done ++ [d] }))
      else some (s.setBless b (some { bless with todo := rest, upload := some (d, ∅) }))
  | .putPack p, some (d, up), _ =>
      some ({ s with packs := insert (d, p) s.packs }.setBless b
        (some { bless with upload := some (d, insert p up) }))
  | .putManifest, some (d, up), _ =>
      some ({ s with manifests := s.manifests.insert d up }.setBless b
        (some { bless with done := bless.done ++ [d], upload := none }))
  | .putDescriptor, none, [] => some ((s.putDescriptor encode bless).setBless b none)
  | _, _, _ => none

/-- What the loop of `reconcile_layers` does with a layer. -/
def Run.take (run : Run) (now : ℕ) (todo live : Finset Digest) (d : Digest) : Run :=
  match run.verdict now live d with
  | .revive => { run with
      stage := .reconcile (todo.erase d) live
      delta := { run.delta with revived := insert d run.delta.revived } }
  | .doom => { run with stage := .doomed d (todo.erase d) live, budget := run.budget - 1 }
  | .mark => { run with
      stage := .reconcile (todo.erase d) live
      delta := { run.delta with newlyDead := run.delta.newlyDead ++ [(d, now)] } }
  | .skip => { run with stage := .reconcile (todo.erase d) live }

/-- A call of a collection. -/
def gcStep (s : State) (r : ℕ) (run : Run) (call : GcCall) : Option State :=
  match call, run.stage with
  | .listImages, .listImages => some (s.setRun r (some { run with
      stage := .readImages (s.images.keys.filter (· ≠ [])) ∅, listedAt := s.now, missed := [] }))
  | .readImage n true, .readImages todo live =>
      -- the listed name is taken for a plain one, and encoded again
      let layers := (s.images.lookup (objectPath encode n)).getD ∅
      if n ∈ todo then
        some (s.setRun r (some { run with stage := .readImages (todo.erase n) (live ∪ layers) }))
      else none
  | .readImage n false, .readImages todo _ => if n ∈ todo then some (s.setRun r none) else none
  | .listLayers, .readImages todo live =>
      if todo = ∅ then some (s.setRun r (some { run with stage := .reconcile s.present live }))
      else none
  | .take d, .reconcile todo live =>
      if d ∈ todo then some (s.setRun r (some (run.take s.now todo live d))) else none
  | .listObjects, .doomed d todo live =>
      some (s.setRun r (some { run with stage := .deleting d (s.objects d) todo live }))
  | .delete o gone ok, .deleting d objects todo live =>
      if o ∈ objects ∧ (ok → gone) then
        some ((if gone then s.erase d o else s).setRun r
          (if ok then some { run with stage := .deleting d (objects.erase o) todo live } else none))
      else none
  | .next, .deleting d objects todo live =>
      if objects = ∅ then
        some (s.setRun r (some { run with
          stage := .reconcile todo live
          delta := { run.delta with deleted := insert d run.delta.deleted } }))
      else none
  | .finish, .reconcile todo _ =>
      if todo = ∅ then some ({ s with file := applyDelta run.state run.delta }.setRun r none) else none
  | _, _ => none

/-- One step. A bless makes its calls less than `limit` after it began, which is at most the
    grace period of every collection. -/
def step (limit : ℕ) (s : State) : Act → Option State
  | .tick n => some { s with now := s.now + n }
  | .setFile file => some { s with file := file }
  | .blessStart b name layers =>
      if (s.blesses b).isNone then some (s.setBless b (some ⟨name, s.now, layers, [], none⟩)) else none
  | .bless b call =>
      match s.blesses b with
      | some bless => if s.now < bless.began + limit then blessStep encode s b bless call else none
      | none => none
  | .blessStop b => some (s.setBless b none)
  | .gcStart r grace dryRun budget =>
      if (s.runs r).isNone ∧ 0 < grace ∧ limit ≤ grace then
        some (s.setRun r (some ⟨s.file, grace, dryRun, budget, .listImages, ⟨[], ∅, ∅⟩, 0, []⟩))
      else none
  | .gc r call =>
      match s.runs r with
      | some run => gcStep encode s r run call
      | none => none
  | .gcAbort r => some (s.setRun r none)

/-- A pool nothing works on, with any objects and any state file; no descriptor in it counts as
    put by a bless. -/
def idle (manifests : Manifests) (packs : Finset (Digest × PackId)) (images : Images)
    (file : DeadLayers) (now : ℕ) : State :=
  ⟨now, manifests, packs, images, ∅, file, fun _ => none, fun _ => none⟩

/-! ## What is kept, and what leads to it -/

/-- The layer's manifest is stored, and every pack it lists. -/
def State.Whole (s : State) (d : Digest) : Prop :=
  ∃ packs, s.manifests.lookup d = some packs ∧ ∀ p ∈ packs, (d, p) ∈ s.packs

/-- Every layer of a descriptor put by a bless is whole. -/
def State.Complete (s : State) : Prop :=
  ∀ n ∈ s.blessed, ∀ layers, s.images.lookup n = some layers → ∀ d ∈ layers, s.Whole d

/-- A collection is deleting the layer. -/
def State.Doomed (s : State) (d : Digest) : Prop :=
  ∃ r run, s.runs r = some run ∧ run.stage.target = some d

/-- A mark that a collection may act on: its grace period was over when the descriptors were
    listed, and no bless that began later has come to the layer and is at work, or has put its
    descriptor since. -/
structure Unused (s : State) (run : Run) (d : Digest) (stamp : ℕ) : Prop where
  over_at_listing : stamp + run.grace ≤ run.listedAt
  at_work : ∀ b bless, s.blesses b = some bless → d ∈ bless.reached → bless.began ≤ stamp
  put : ∀ began, (d, began) ∈ run.missed → began ≤ stamp

/-- A collection lists the descriptor of this name, and finds it under the name it has listed. -/
def Found (name : List Char) : Prop :=
  objectPath encode name ≠ [] ∧
    objectPath encode (objectPath encode name) = objectPath encode name

/-- Collections delete only unused layers, a bless does not come to a layer that is being
    deleted or was left half deleted, and its descriptor has a name that collections find. -/
def Careful (s : State) : Act → Prop
  | .gc r (.take d) => ∀ run, s.runs r = some run → run.verdict s.now run.stage.live d = .doom →
      ∀ stamp, run.state d = some (some stamp) → Unused s run d stamp
  | .bless b .head => ∀ bless d rest, s.blesses b = some bless → bless.todo = d :: rest →
      ¬s.Doomed d ∧ (d ∈ s.manifests → s.Whole d)
  | .bless b .putDescriptor => ∀ bless, s.blesses b = some bless → Found encode bless.name
  | _ => True

end GlideFS.Gc.Layers
