import Mathlib.Data.List.Permutation
import GlideFS.Gc.Prefix

/-! # `gc_orchestrate`: all prefixes under one state file

A collection reconciles every prefix against the state file as it was loaded and
applies the deltas one after another before it saves the file. The entries of the
file name a pack by its `(chunk_idx, pack_id)` pair alone; two prefixes that hold
packs of one pair share an entry.

Collections run one at a time. Within one, the prefixes advance in any order, and
writers upload packs and store or delete manifests between any two steps. The log
keeps what the collections saw and what writers created, newest first; no code
reads it.
-/

namespace GlideFS.Gc.Orchestrate

open GlideFS.Lib

variable {π ν P : Type}

/-- What the grace period of a pack object depends on. -/
inductive Event (π P : Type) where
  /-- Collection `run` found the packs present and listed by no manifest. -/
  | observed (run : ℕ) (x : π) (packs : Finset P) (time : ℕ)
  /-- A collection read a manifest or snapshot that lists the packs. -/
  | referenced (x : π) (packs : Finset P)
  /-- An upload stored the pack, which was not there or was written again. -/
  | created (x : π) (p : P)

/-- A run of `gc_orchestrate`; `prefixes` is what `discover_s3_prefixes` returned,
    and `budget` is what is left of the delete budget they share. -/
structure Orchestration (π ν P : Type) where
  state : GcState P
  budget : ℕ
  prefixes : List π
  runs : π → Option (Run ν P)

/-- The pool in S3, the state file and the collection at work. `serial` numbers
    the collections. -/
structure State (π ν P : Type) where
  now : ℕ
  serial : ℕ
  packs : π → Finset P
  objects : π → Finmap fun _ : Key ν => Finset P
  file : GcState P
  active : Option (Orchestration π ν P)
  log : List (Event π P)

/-- The S3 calls of `reconcile_prefix`. A delete that fails may still have been
    applied (`gone`). -/
inductive Pass (ν P : Type) where
  | listManifests
  | readManifest (k : Key ν) (ok : Bool)
  | listPacks
  | listSnapshots
  | readSnapshot (k : Key ν) (ok : Bool)
  | decide (chosen : Finset P)
  | delete (p : P) (gone ok : Bool)

inductive Act (π ν P : Type) where
  | tick (d : ℕ)
  /-- `stream_chunk_pack`; a large pack is a multipart upload. -/
  | upload (x : π) (p : P) (large : Bool)
  | publish (x : π) (k : Key ν) (packs : Finset P)
  | unpublish (x : π) (k : Key ν)
  /-- The state file is removed. -/
  | loseFile
  | gcStart (prefixes : List π) (dryRun : Bool) (maxDeletes : ℕ)
  | gcPass (x : π) (pass : Pass ν P)
  /-- The deltas are applied in the order in which the prefixes completed. -/
  | gcFinish (order : List π)
  /-- A listing fails, the file cannot be saved, or the process is killed. -/
  | gcAbort

variable [DecidableEq π] [DecidableEq ν] [ManifestName ν] [DecidableEq P]

/-- The delete slots a step claims; a dry run claims them too. -/
def Pass.slots : Pass ν P → ℕ
  | .decide chosen => chosen.card
  | _ => 0

/-- One S3 call of `reconcile_prefix`, with the packs it leaves and what it saw. -/
def pass (grace : ℕ) (s : State π ν P) (x : π) (run : Run ν P) :
    Pass ν P → Option (Run ν P × Finset P × List (Event π P))
  | .listManifests =>
      match run.stage with
      | .listManifests => some ({ run with
          stage := .readManifests ((s.objects x).keys.filter fun k => k.isRead) ∅ false },
          s.packs x, [])
      | _ => none
  | .readManifest k ok => do
      let run' ← run.readManifest ((s.objects x).lookup k) k ok
      some (run', s.packs x,
        if ok then [.referenced x (((s.objects x).lookup k).getD ∅)] else [])
  | .listPacks => do
      let run' ← run.listPacks (s.packs x)
      some (run', s.packs x, [])
  | .listSnapshots =>
      match run.stage with
      | .listSnapshots maybeDead => some ({ run with
          stage := .readSnapshots ((s.objects x).keys.filter fun k => ¬k.isManifest) maybeDead },
          s.packs x, [])
      | _ => none
  | .readSnapshot k ok => do
      let run' ← run.readSnapshot ((s.objects x).lookup k) k ok
      some (run', s.packs x,
        if ok then [.referenced x (((s.objects x).lookup k).getD ∅)] else [])
  | .decide chosen =>
      match run.stage with
      | .readSnapshots _ maybeDead => do
          let run' ← run.decide grace s.now chosen
          some (run', s.packs x, [.observed run.begun x maybeDead s.now])
      | _ => none
  | .delete p gone ok =>
      match run.stage with
      | .deletePacks eligible =>
          if p ∈ eligible ∧ (ok → gone) then
            some ({ run with
                stage := .deletePacks (eligible.erase p)
                delta := if ok then { run.delta with deleted := insert p run.delta.deleted }
                  else run.delta },
              if gone then (s.packs x).erase p else s.packs x, [])
          else none
      | _ => none

/-- The deltas applied in turn. -/
def applyDeltas (runs : π → Option (Run ν P)) (begun : ℕ) (state : GcState P)
    (order : List π) : GcState P :=
  order.foldl (fun state x =>
    match runs x with
    | some run => applyDelta state begun run.delta
    | none => state) state

def step (grace : ℕ) (s : State π ν P) : Act π ν P → Option (State π ν P)
  | .tick d => some { s with now := s.now + d }
  -- `PutMode::Create` leaves a pack that exists as it is, a multipart upload replaces it
  | .upload x p large =>
      if p ∈ s.packs x ∧ ¬large then some s
      else some { s with
        packs := Function.update s.packs x (insert p (s.packs x))
        log := .created x p :: s.log }
  | .publish x k packs => some { s with
      objects := Function.update s.objects x ((s.objects x).insert k packs) }
  | .unpublish x k => some { s with
      objects := Function.update s.objects x ((s.objects x).erase k) }
  | .loseFile => some { s with file := fun _ => none }
  | .gcStart prefixes dryRun maxDeletes =>
      match s.active with
      | some _ => none
      | none => some { s with
          active := some
            { state := s.file
              budget := maxDeletes
              prefixes := prefixes
              runs := fun x =>
                if x ∈ prefixes then
                  some ⟨s.serial, s.file, dryRun, maxDeletes, .listManifests, ⟨∅, 0, ∅, ∅⟩⟩
                else none } }
  | .gcPass x call => do
      let o ← s.active
      let run ← o.runs x
      let (run', packs, events) ← pass grace s x run call
      if call.slots ≤ o.budget then
        some { s with
          packs := Function.update s.packs x packs
          active := some { o with
            budget := o.budget - call.slots
            runs := Function.update o.runs x (some run') }
          log := events ++ s.log }
      else none
  | .gcFinish order => do
      let o ← s.active
      if order.Perm o.prefixes ∧
          ∀ x ∈ order, ((o.runs x).map fun run => run.stage.isOver) = some true then
        some { s with
          serial := s.serial + 1
          file := applyDeltas o.runs s.serial o.state order
          active := none }
      else none
  | .gcAbort => some { s with
      serial := s.serial + 1
      active := none }

/-- A pool no collection has run on. -/
structure Start (s : State π ν P) : Prop where
  file : ∀ p, s.file p = none
  active : s.active = none
  log : s.log = []

end GlideFS.Gc.Orchestrate
