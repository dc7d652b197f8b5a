import Mathlib.Data.Finmap
import Mathlib.Data.Finset.Image
import Mathlib.Logic.Function.Basic
import GlideFS.Lib.Runs

/-! # One S3 prefix: packs, manifests, and everything that writes or collects them

The exports of a prefix share its packs. Flushes, blesses, promotes, forks and
snapshots publish manifests that list packs; `glidefs gc` deletes packs that it
finds listed nowhere. Every S3 call is a step of its own, so a collection and
the writers interleave in any order.

A pack is its `(chunk_idx, pack_id)` pair; a manifest is the set of packs it
lists (`all_pack_ids`), all that a collection reads of it.
-/

namespace GlideFS.Gc

variable {ν P ρ φ : Type}

/-- Where a manifest is stored: `manifests/bases/{b}`, `manifests/{n}` or
    `snapshots/{n}/{seq}`. -/
inductive Key (ν : Type) where
  | base (b : ν)
  | live (n : ν)
  | snapshot (n : ν) (seq : ℕ)
  deriving DecidableEq

/-- The keys listed under `manifests/`; the others are under `snapshots/`. -/
def Key.isManifest : Key ν → Bool
  | .base _ | .live _ => true
  | .snapshot .. => false

/-- The names of exports and bases, with the test by which a collection takes an
    object for a legacy sidecar. -/
class ManifestName (ν : Type) where
  isSidecar : ν → Bool

instance : ManifestName (List Char) where
  isSidecar n :=
    ['.', 'b', 'o', 'o', 't', '-', 's', 'e', 't'].isSuffixOf n ||
      ['.', 'h', 'o', 't', '-', 's', 'e', 't'].isSuffixOf n

/-- Numbers stand for names that have neither suffix. -/
instance : ManifestName ℕ where
  isSidecar _ := false

/-- The manifests a collection reads: it passes over a sidecar's name, although an
    export or base may well have one. -/
def Key.isRead [ManifestName ν] : Key ν → Bool
  | .base n | .live n => !ManifestName.isSidecar n
  | .snapshot .. => false

/-! ## The collector's memory -/

/-- An entry of `dead_packs`: when the pack was first seen dead, `none` for a text
    that does not parse. `scan` is not in the file: it is the serial number of the
    moment the run that made the entry began, for statements about runs. -/
structure Mark where
  stamp : Option ℕ
  scan : ℕ
  deriving DecidableEq

/-- `GcState.dead_packs`. -/
abbrev GcState (P : Type) := P → Option Mark

/-- `is_pack_eligible`: an entry from the future has age zero. -/
def isPackEligible (state : GcState P) (grace now : ℕ) (p : P) : Bool :=
  match state p with
  | some ⟨some stamp, _⟩ => grace ≤ now - stamp
  | _ => false

/-- `GcStateDelta`, the pack part. All new entries of a run carry one `now_ts`. -/
structure Delta (P : Type) where
  newlyDead : Finset P
  stamp : ℕ
  revived : Finset P
  deleted : Finset P

/-- `GcState::apply_delta`. -/
def applyDelta [DecidableEq P] (state : GcState P) (begun : ℕ) (delta : Delta P) : GcState P :=
  fun p =>
    if p ∈ delta.deleted ∨ p ∈ delta.revived then none
    else match state p with
      | some mark => some mark
      | none => if p ∈ delta.newlyDead then some ⟨some delta.stamp, begun⟩ else none

/-- With a positive grace period an eligible pack was marked that long ago. -/
theorem isPackEligible_stamp {state : GcState P} {grace now : ℕ} {p : P} (positive : 0 < grace)
    (h : isPackEligible state grace now p ∨ grace = 0 ∧ state p = none) :
    ∃ m stamp, state p = some m ∧ m.stamp = some stamp ∧ stamp + grace ≤ now := by
  rcases h with old | ⟨zero, -⟩
  · unfold isPackEligible at old
    split at old
    · rename_i stamp scan at_p
      have age := of_decide_eq_true old
      exact ⟨_, stamp, at_p, rfl, by omega⟩
    · cases old
  · omega

/-- An entry after a delta was there before, or is one of its new entries. -/
theorem applyDelta_some [DecidableEq P] {state : GcState P} {begun : ℕ} {delta : Delta P} {p : P}
    {m : Mark} (h : applyDelta state begun delta p = some m) :
    p ∉ delta.deleted ∧ p ∉ delta.revived ∧
      (state p = some m ∨ p ∈ delta.newlyDead ∧ m = ⟨some delta.stamp, begun⟩) := by
  unfold applyDelta at h
  split at h
  · cases h
  · rename_i kept
    obtain ⟨undeleted, unrevived⟩ := not_or.mp kept
    refine ⟨undeleted, unrevived, ?_⟩
    split at h
    · rename_i at_p
      exact .inl (at_p.trans h)
    · split at h
      · cases h
        exact .inr ⟨‹_›, rfl⟩
      · cases h

/-- Where `reconcile_prefix` stands between two of its S3 calls. -/
inductive Stage (ν P : Type) where
  | listManifests
  /-- Pass 1a: the keys still to fetch, and the packs found live so far. -/
  | readManifests (todo : Finset (Key ν)) (live : Finset P) (failed : Bool)
  /-- Pass 1b is done. -/
  | listSnapshots (maybeDead : Finset P)
  /-- Pass 2. -/
  | readSnapshots (todo : Finset (Key ν)) (maybeDead : Finset P)
  /-- The eligible packs that got a slot of the delete budget. -/
  | deletePacks (eligible : Finset P)
  | returned

/-- Nothing is left to do before the delta is returned. -/
def Stage.isOver [DecidableEq P] : Stage ν P → Bool
  | .deletePacks eligible => eligible = ∅
  | .returned => true
  | _ => false

/-- One `reconcile_prefix`, with the state file as it was loaded. -/
structure Run (ν P : Type) where
  begun : ℕ
  state : GcState P
  dryRun : Bool
  budget : ℕ
  stage : Stage ν P
  delta : Delta P

/-! ## The writers -/

/-- An attached export: the packs of its in-memory manifest, the uploads of the
    current flush, and the appended packs no stored manifest lists yet; uploads
    carry the time they were made. -/
structure Export (P : Type) where
  packs : Finset P
  staged : Finset (P × ℕ)
  unsynced : Finset (P × ℕ)

inductive JobKind where
  | bless
  | promote
  | fork
  deriving DecidableEq

/-- A manifest on its way to S3: a bless that uploads packs, or a promote or fork
    that copies a manifest. Each pack carries the time since which the job relies
    on it, its upload or the start of the copy. -/
structure Job (ν P : Type) where
  kind : JobKind
  target : Key ν
  packs : Finset (P × ℕ)

/-- The pack ids of dated packs. -/
def ids [DecidableEq P] (dated : Finset (P × ℕ)) : Finset P := dated.image Prod.fst

/-- Packs relied on from one moment. -/
def datedAt [DecidableEq P] (packs : Finset P) (now : ℕ) : Finset (P × ℕ) :=
  packs.image fun p => (p, now)

@[simp] theorem mem_ids [DecidableEq P] {dated : Finset (P × ℕ)} {p : P} :
    p ∈ ids dated ↔ ∃ since, (p, since) ∈ dated := by
  simp [ids]

@[simp] theorem mem_datedAt [DecidableEq P] {packs : Finset P} {now since : ℕ} {p : P} :
    (p, since) ∈ datedAt packs now ↔ p ∈ packs ∧ since = now := by
  simp [datedAt, eq_comm]

/-- The prefix in S3, the state file, the router's manifest cache and all processes
    at work. `serial` counts steps and `touch` holds the step after which a pack was
    last uploaded or newly listed; no code reads either. -/
structure State (ν P ρ φ : Type) where
  now : ℕ
  serial : ℕ
  packs : Finset P
  objects : Finmap fun _ : Key ν => Finset P
  touch : P → ℕ
  saved : GcState P
  runs : ρ → Option (Run ν P)
  exports : ν → Option (Export P)
  jobs : φ → Option (Job ν P)
  cache : Key ν → Option (Finset P)

inductive Act (ν P ρ φ : Type) where
  | tick (d : ℕ)
  -- exports and their flushes
  | openExport (n : ν)
  | closeExport (n : ν)
  | upload (n : ν) (p : P)
  | failFlush (n : ν)
  | append (n : ν) (dropped : Finset P)
  | putManifest (n : ν)
  | putSnapshot (n : ν) (seq : ℕ)
  | deleteSnapshot (n : ν) (seq : ℕ)
  | deleteManifest (n : ν)
  -- blesses, promotes and forks
  | bless (j : φ) (b : ν)
  | blessUpload (j : φ) (p : P)
  | promote (j : φ) (n : ν) (seq : ℕ) (b : ν)
  | fork (j : φ) (source : Key ν) (n : ν)
  | putJob (j : φ)
  | abandon (j : φ)
  -- the router's manifest cache
  | prewarm (b : ν)
  | evict (k : Key ν)
  -- collections
  | gcStart (r : ρ) (dryRun : Bool) (budget : ℕ)
  | gcListManifests (r : ρ)
  | gcReadManifest (r : ρ) (k : Key ν) (ok : Bool)
  | gcListPacks (r : ρ)
  | gcListSnapshots (r : ρ)
  | gcReadSnapshot (r : ρ) (k : Key ν) (ok : Bool)
  | gcDecide (r : ρ) (chosen : Finset P)
  | gcDelete (r : ρ) (p : P) (ok : Bool)
  | gcFinish (r : ρ)
  | gcCrash (r : ρ)

variable [DecidableEq ν] [DecidableEq P] [DecidableEq ρ] [DecidableEq φ]

namespace State

/-- The stored object under `k` lists `p`. -/
def Lists (s : State ν P ρ φ) (k : Key ν) (p : P) : Prop :=
  ∃ packs, s.objects.lookup k = some packs ∧ p ∈ packs

/-- Some manifest or snapshot manifest stored in S3 lists `p`. -/
def Referenced (s : State ν P ρ φ) (p : P) : Prop := ∃ k, s.Lists k p

def setExport (s : State ν P ρ φ) (n : ν) (e : Option (Export P)) : State ν P ρ φ :=
  { s with exports := Function.update s.exports n e }

def setJob (s : State ν P ρ φ) (j : φ) (job : Option (Job ν P)) : State ν P ρ φ :=
  { s with jobs := Function.update s.jobs j job }

def setRun (s : State ν P ρ φ) (r : ρ) (run : Option (Run ν P)) : State ν P ρ φ :=
  { s with runs := Function.update s.runs r run }

def setCache (s : State ν P ρ φ) (k : Key ν) (entry : Option (Finset P)) : State ν P ρ φ :=
  { s with cache := Function.update s.cache k entry }

/-- `manifest_cache.insert` where the key is absent. -/
def fillCache (s : State ν P ρ φ) (k : Key ν) (packs : Finset P) : State ν P ρ φ :=
  if s.cache k = none then s.setCache k (some packs) else s

/-- `stream_chunk_pack`: an object that exists already is a success
    (`PutMode::Create`), a large pack is written again. -/
def storePack (s : State ν P ρ φ) (p : P) : State ν P ρ φ :=
  { s with
    packs := insert p s.packs
    touch := Function.update s.touch p (s.serial + 1) }

theorem storePack_self (s : State ν P ρ φ) (p : P) :
    p ∈ (s.storePack p).packs ∧ (s.storePack p).touch p = s.serial + 1 :=
  ⟨Finset.mem_insert_self .., Function.update_self ..⟩

/-- The PUT of a manifest or snapshot manifest; it touches the packs the object
    did not list before. -/
def publish (s : State ν P ρ φ) (k : Key ν) (packs : Finset P) : State ν P ρ φ :=
  { s with
    objects := s.objects.insert k packs
    touch := fun p =>
      if p ∈ packs ∧ p ∉ (s.objects.lookup k).getD ∅ then s.serial + 1 else s.touch p }

/-- DELETE of a manifest or snapshot manifest. -/
def unpublish (s : State ν P ρ φ) (k : Key ν) : State ν P ρ φ :=
  { s with objects := s.objects.erase k }

/-- The manifest a fork starts from: a live manifest is always fetched, a base or
    snapshot comes from the cache when it is there. -/
def forkSource (s : State ν P ρ φ) : Key ν → Option (Finset P)
  | .live m => s.objects.lookup (.live m)
  | k => (s.cache k).or (s.objects.lookup k)

/-- A fetched base or snapshot is inserted into the cache, a live manifest never. -/
def cacheSource (s : State ν P ρ φ) (k : Key ν) (packs : Finset P) : State ν P ρ φ :=
  match k with
  | .live _ => s
  | k => s.fillCache k packs

end State

/-- The steps of the exports: attach, flush, compact, snapshot, purge. -/
def exportStep (s : State ν P ρ φ) : Act ν P ρ φ → Option (State ν P ρ φ)
  | .openExport n =>
      match s.exports n with
      | some _ => none
      | none => some (s.setExport n (some ⟨(s.objects.lookup (.live n)).getD ∅, ∅, ∅⟩))
  | .closeExport n => some (s.setExport n none)
  | .upload n p => do
      let e ← s.exports n
      -- a pack the in-memory manifest lists already is not uploaded again
      if p ∈ e.packs then none
      else some ((s.storePack p).setExport n (some { e with staged := insert (p, s.now) e.staged }))
  | .failFlush n => do
      let e ← s.exports n
      some (s.setExport n (some { e with staged := ∅ }))
  -- `append_pack` of a flush, which drops nothing, or `replace_packs_cas` of a compaction
  | .append n dropped => do
      let e ← s.exports n
      some (s.setExport n (some
        { packs := (e.packs \ dropped) ∪ ids e.staged
          staged := ∅
          unsynced := e.unsynced.filter (fun q => q.1 ∉ dropped) ∪ e.staged }))
  | .putManifest n => do
      let e ← s.exports n
      some ((s.publish (.live n) e.packs).setExport n (some { e with unsynced := ∅ }))
  | .putSnapshot n seq => do
      let e ← s.exports n
      some ((s.publish (.snapshot n seq) e.packs).fillCache (.snapshot n seq) e.packs)
  | .deleteSnapshot n seq => some (s.unpublish (.snapshot n seq))
  -- `purge_s3_state` runs after the export left the router
  | .deleteManifest n =>
      match s.exports n with
      | some _ => none
      | none => some (s.unpublish (.live n))
  | _ => none

/-- The steps of blesses, promotes and forks, and of the manifest cache. -/
def jobStep (s : State ν P ρ φ) : Act ν P ρ φ → Option (State ν P ρ φ)
  | .bless j b => if s.jobs j = none then some (s.setJob j (some ⟨.bless, .base b, ∅⟩)) else none
  | .blessUpload j p => do
      let job ← s.jobs j
      if job.kind = .bless then
        some ((s.storePack p).setJob j (some { job with packs := insert (p, s.now) job.packs }))
      else none
  | .promote j n seq b =>
      if s.jobs j = none ∧ s.objects.lookup (.base b) = none then do
        let packs ← s.objects.lookup (.snapshot n seq)
        some (s.setJob j (some ⟨.promote, .base b, datedAt packs s.now⟩))
      else none
  | .fork j source n =>
      if s.jobs j = none ∧ s.exports n = none then do
        let packs ← s.forkSource source
        some ((s.cacheSource source packs).setJob j (some ⟨.fork, .live n, datedAt packs s.now⟩))
      else none
  | .putJob j => do
      let job ← s.jobs j
      match job.target with
      | .live n =>
          if s.exports n = none then
            some (((s.publish (.live n) (ids job.packs)).setJob j none).setExport n
              (some ⟨ids job.packs, ∅, ∅⟩))
          else none
      | k => some ((s.publish k (ids job.packs)).setJob j none)
  | .abandon j => some (s.setJob j none)
  | .prewarm b => do
      let packs ← s.objects.lookup (.base b)
      some (s.fillCache (.base b) packs)
  | .evict k => some (s.setCache k none)
  | _ => none

/-- Pass 1a: a manifest that is gone is skipped; one that cannot be read stops the
    run before it deletes anything. -/
def Run.readManifest (run : Run ν P) (packs : Option (Finset P)) (k : Key ν) (ok : Bool) :
    Option (Run ν P) :=
  match run.stage with
  | .readManifests todo live failed =>
      if k ∈ todo then
        some { run with
          stage :=
            if ok then .readManifests (todo.erase k) (live ∪ packs.getD ∅) failed
            else .readManifests (todo.erase k) live true }
      else none
  | _ => none

/-- Pass 1b: what no live manifest lists may be dead. -/
def Run.listPacks (run : Run ν P) (packs : Finset P) : Option (Run ν P) :=
  match run.stage with
  | .readManifests todo live failed =>
      if todo = ∅ then
        if failed then some { run with stage := .returned }
        else
          let delta := { run.delta with
            revived := packs.filter fun p => p ∈ live ∧ run.state p ≠ none }
          if packs \ live = ∅ then some { run with stage := .returned, delta }
          else some { run with stage := .listSnapshots (packs \ live), delta }
      else none
  | _ => none

/-- Pass 2: what a snapshot lists is not dead; an unreadable snapshot stops the run. -/
def Run.readSnapshot (run : Run ν P) (packs : Option (Finset P)) (k : Key ν) (ok : Bool) :
    Option (Run ν P) :=
  match run.stage with
  | .readSnapshots todo maybeDead =>
      if k ∈ todo then
        some { run with
          stage :=
            if ok then .readSnapshots (todo.erase k) (maybeDead \ packs.getD ∅) else .returned }
      else none
  | _ => none

/-- Marks the dead packs and claims delete slots; the set iteration decides which
    eligible packs get the slots. -/
def Run.decide (run : Run ν P) (grace now : ℕ) (chosen : Finset P) : Option (Run ν P) :=
  match run.stage with
  | .readSnapshots todo maybeDead =>
      if (todo = ∅ ∨ maybeDead = ∅) ∧
          chosen ⊆ maybeDead.filter (fun p =>
            isPackEligible run.state grace now p ∨ grace = 0 ∧ run.state p = none) ∧
          chosen.card ≤ run.budget then
        some { run with
          stage := if run.dryRun then .returned else .deletePacks chosen
          delta := { run.delta with
            newlyDead := maybeDead.filter fun p => run.state p = none
            stamp := now } }
      else none
  | _ => none

variable [ManifestName ν]

/-- The steps of the collections. -/
def gcStep (grace : ℕ) (s : State ν P ρ φ) : Act ν P ρ φ → Option (State ν P ρ φ)
  | .gcStart r dryRun budget =>
      match s.runs r with
      | some _ => none
      | none => some (s.setRun r (some
          ⟨s.serial, s.saved, dryRun, budget, .listManifests, ⟨∅, 0, ∅, ∅⟩⟩))
  | .gcListManifests r => do
      let run ← s.runs r
      match run.stage with
      | .listManifests => some (s.setRun r (some { run with
          stage := .readManifests (s.objects.keys.filter fun k => k.isRead) ∅ false }))
      | _ => none
  | .gcReadManifest r k ok => do
      let run ← s.runs r
      let run ← run.readManifest (s.objects.lookup k) k ok
      some (s.setRun r (some run))
  | .gcListPacks r => do
      let run ← s.runs r
      let run ← run.listPacks s.packs
      some (s.setRun r (some run))
  | .gcListSnapshots r => do
      let run ← s.runs r
      match run.stage with
      | .listSnapshots maybeDead => some (s.setRun r (some { run with
          stage := .readSnapshots (s.objects.keys.filter fun k => ¬k.isManifest) maybeDead }))
      | _ => none
  | .gcReadSnapshot r k ok => do
      let run ← s.runs r
      let run ← run.readSnapshot (s.objects.lookup k) k ok
      some (s.setRun r (some run))
  | .gcDecide r chosen => do
      let run ← s.runs r
      let run ← run.decide grace s.now chosen
      some (s.setRun r (some run))
  | .gcDelete r p ok => do
      let run ← s.runs r
      match run.stage with
      | .deletePacks eligible =>
          if p ∈ eligible then
            if ok then
              some ({ s with packs := s.packs.erase p }.setRun r (some { run with
                stage := .deletePacks (eligible.erase p)
                delta := { run.delta with deleted := insert p run.delta.deleted } }))
            else some (s.setRun r (some { run with stage := .deletePacks (eligible.erase p) }))
          else none
      | _ => none
  | .gcFinish r => do
      let run ← s.runs r
      if run.stage.isOver then
        some ({ s with saved := applyDelta run.state run.begun run.delta }.setRun r none)
      else none
  | .gcCrash r => some (s.setRun r none)
  | _ => none

/-- The step without its serial number. -/
def Act.effect (grace : ℕ) (s : State ν P ρ φ) : Act ν P ρ φ → Option (State ν P ρ φ)
  | .tick d => some { s with now := s.now + d }
  | a => ((exportStep s a).or (jobStep s a)).or (gcStep grace s a)

def step (grace : ℕ) (s : State ν P ρ φ) (a : Act ν P ρ φ) : Option (State ν P ρ φ) :=
  (Act.effect grace s a).map fun t => { t with serial := s.serial + 1 }

/-- A prefix nothing works on yet, with any objects and any saved state file. -/
def idle (packs : Finset P) (objects : Finmap fun _ : Key ν => Finset P) (saved : GcState P) :
    State ν P ρ φ where
  now := 0
  serial := 0
  packs := packs
  objects := objects
  touch := fun _ => 0
  saved := saved
  runs := fun _ => none
  exports := fun _ => none
  jobs := fun _ => none
  cache := fun _ => none

end GlideFS.Gc
