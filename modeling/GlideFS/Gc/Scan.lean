import GlideFS.Gc.Prefix

/-! # What a collection's scan is worth

`reconcile_prefix` reads the manifests one by one while exports go on publishing.
A pack that was neither uploaded nor newly listed since the run began can only
lose references in the meantime. So an object the run saw without the pack
still does not list it, and a pack that came through both passes is listed
nowhere.
-/

namespace GlideFS.Gc

open GlideFS.Lib

variable {ν P ρ φ : Type} [DecidableEq ν] [ManifestName ν] [DecidableEq P] [DecidableEq ρ]
  [DecidableEq φ]
variable {grace : ℕ} {s t : State ν P ρ φ} {a : Act ν P ρ φ} {k : Key ν} {p : P}

theorem effect_cases (h : a.effect grace s = some t) :
    (∃ d, a = .tick d ∧ t = { s with now := s.now + d }) ∨
      exportStep s a = some t ∨ jobStep s a = some t ∨ gcStep grace s a = some t := by
  unfold Act.effect at h
  split at h
  case h_1 d => exact .inl ⟨d, rfl, (Option.some.inj h).symm⟩
  case h_2 =>
    rcases Option.or_eq_some_iff.mp h with first | ⟨_, third⟩
    · rcases Option.or_eq_some_iff.mp first with first | ⟨_, second⟩
      · exact .inr (.inl first)
      · exact .inr (.inr (.inl second))
    · exact .inr (.inr (.inr third))

/-! ## What the writers change -/

/-- A step of an export or job: it may add packs and references, and every pack
    that some object newly lists is touched. -/
structure Writes (s t : State ν P ρ φ) : Prop where
  now : t.now = s.now
  serial : t.serial = s.serial
  packs : s.packs ⊆ t.packs
  saved : t.saved = s.saved
  runs : t.runs = s.runs
  lists : ∀ k p, t.Lists k p → s.Lists k p ∨ t.touch p = s.serial + 1
  touch : ∀ p, t.touch p = s.touch p ∨ t.touch p = s.serial + 1

theorem lists_of_unpublish {k' : Key ν} (h : (s.unpublish k).Lists k' p) : s.Lists k' p := by
  obtain ⟨listed, there, inside⟩ := h
  by_cases same : k' = k
  · subst same
    rw [show (s.unpublish k').objects.lookup k' = none from Finmap.lookup_erase _ _] at there
    cases there
  · rw [show (s.unpublish k).objects.lookup k' = s.objects.lookup k' from
      Finmap.lookup_erase_ne same] at there
    exact ⟨listed, there, inside⟩

namespace Writes

theorem refl (s : State ν P ρ φ) : Writes s s :=
  ⟨rfl, rfl, Finset.Subset.refl _, rfl, rfl, fun _ _ => .inl, fun _ => .inl rfl⟩

theorem setExport {n : ν} {e : Option (Export P)} (h : Writes s t) : Writes s (t.setExport n e) :=
  ⟨h.now, h.serial, h.packs, h.saved, h.runs, h.lists, h.touch⟩

theorem setJob {j : φ} {job : Option (Job ν P)} (h : Writes s t) : Writes s (t.setJob j job) :=
  ⟨h.now, h.serial, h.packs, h.saved, h.runs, h.lists, h.touch⟩

theorem setCache {entry : Option (Finset P)} (h : Writes s t) : Writes s (t.setCache k entry) :=
  ⟨h.now, h.serial, h.packs, h.saved, h.runs, h.lists, h.touch⟩

theorem fillCache {packs : Finset P} (h : Writes s t) : Writes s (t.fillCache k packs) := by
  unfold State.fillCache
  split
  · exact h.setCache
  · exact h

theorem storePack (s : State ν P ρ φ) (p : P) : Writes s (s.storePack p) where
  now := rfl
  serial := rfl
  packs := Finset.subset_insert p s.packs
  saved := rfl
  runs := rfl
  lists := fun _ _ => .inl
  touch := fun q => by
    by_cases same : q = p
    · subst same
      exact .inr (Function.update_self ..)
    · exact .inl (Function.update_of_ne same ..)

theorem publish (s : State ν P ρ φ) (k : Key ν) (packs : Finset P) :
    Writes s (s.publish k packs) where
  now := rfl
  serial := rfl
  packs := Finset.Subset.refl _
  saved := rfl
  runs := rfl
  lists := by
    rintro k' q ⟨listed, there, inside⟩
    by_cases same : k' = k
    · subst same
      rw [show (s.publish k' packs).objects.lookup k' = some packs from
        Finmap.lookup_insert _] at there
      cases there
      by_cases known : q ∈ (s.objects.lookup k').getD ∅
      · left
        cases old : s.objects.lookup k' with
        | none => simp [old] at known
        | some before => exact ⟨before, old, by simpa [old] using known⟩
      · exact .inr (if_pos ⟨inside, known⟩)
    · rw [show (s.publish k packs).objects.lookup k' = s.objects.lookup k' from
        Finmap.lookup_insert_of_ne _ same] at there
      exact .inl ⟨listed, there, inside⟩
  touch := fun q => by
    by_cases fresh : q ∈ packs ∧ q ∉ (s.objects.lookup k).getD ∅
    · exact .inr (if_pos fresh)
    · exact .inl (if_neg fresh)

theorem unpublish (s : State ν P ρ φ) (k : Key ν) : Writes s (s.unpublish k) where
  now := rfl
  serial := rfl
  packs := Finset.Subset.refl _
  saved := rfl
  runs := rfl
  lists := fun _ _ lists => .inl (lists_of_unpublish lists)
  touch := fun _ => .inl rfl

end Writes

/-- What a step of an export or job comes to, with what it found. -/
inductive Moves (s : State ν P ρ φ) : Act ν P ρ φ → State ν P ρ φ → Prop where
  | openExport {n} (closed : s.exports n = none) :
      Moves s (.openExport n)
        (s.setExport n (some ⟨(s.objects.lookup (.live n)).getD ∅, ∅, ∅⟩))
  | closeExport {n} : Moves s (.closeExport n) (s.setExport n none)
  | upload {n} {p : P} {e} (at_n : s.exports n = some e)
      (fresh : p ∉ e.packs) :
      Moves s (.upload n p)
        ((s.storePack p).setExport n (some { e with staged := insert (p, s.now) e.staged }))
  | failFlush {n e} (at_n : s.exports n = some e) :
      Moves s (.failFlush n) (s.setExport n (some { e with staged := ∅ }))
  | append {n dropped e} (at_n : s.exports n = some e) :
      Moves s (.append n dropped) (s.setExport n (some
        { packs := (e.packs \ dropped) ∪ ids e.staged
          staged := ∅
          unsynced := e.unsynced.filter (fun q => q.1 ∉ dropped) ∪ e.staged }))
  | putManifest {n e} (at_n : s.exports n = some e) :
      Moves s (.putManifest n)
        ((s.publish (.live n) e.packs).setExport n (some { e with unsynced := ∅ }))
  | putSnapshot {n seq e} (at_n : s.exports n = some e) :
      Moves s (.putSnapshot n seq)
        ((s.publish (.snapshot n seq) e.packs).fillCache (.snapshot n seq) e.packs)
  | deleteSnapshot {n seq} : Moves s (.deleteSnapshot n seq) (s.unpublish (.snapshot n seq))
  | deleteManifest {n} (closed : s.exports n = none) :
      Moves s (.deleteManifest n) (s.unpublish (.live n))
  | bless {j b} (idle : s.jobs j = none) :
      Moves s (.bless j b) (s.setJob j (some ⟨.bless, .base b, ∅⟩))
  | blessUpload {j} {p : P} {job} (at_j : s.jobs j = some job)
      (kind : job.kind = .bless) :
      Moves s (.blessUpload j p)
        ((s.storePack p).setJob j (some { job with packs := insert (p, s.now) job.packs }))
  | promote {j n seq b packs} (idle : s.jobs j = none)
      (stored : s.objects.lookup (.snapshot n seq) = some packs) :
      Moves s (.promote j n seq b) (s.setJob j (some ⟨.promote, .base b, datedAt packs s.now⟩))
  | fork {j source n packs} (idle : s.jobs j = none)
      (closed : s.exports n = none)
      (found : s.forkSource source = some packs) :
      Moves s (.fork j source n)
        ((s.cacheSource source packs).setJob j (some ⟨.fork, .live n, datedAt packs s.now⟩))
  | putFork {j job n} (at_j : s.jobs j = some job)
      (target : job.target = .live n)
      (closed : s.exports n = none) :
      Moves s (.putJob j)
        (((s.publish (.live n) (ids job.packs)).setJob j none).setExport n
          (some ⟨ids job.packs, ∅, ∅⟩))
  | putBase {j job} (at_j : s.jobs j = some job)
      (target : ∀ n, job.target ≠ .live n) :
      Moves s (.putJob j) ((s.publish job.target (ids job.packs)).setJob j none)
  | abandon {j} : Moves s (.abandon j) (s.setJob j none)
  | prewarm {b packs} (stored : s.objects.lookup (.base b) = some packs) :
      Moves s (.prewarm b) (s.fillCache (.base b) packs)
  | evict {k : Key ν} : Moves s (.evict k) (s.setCache k none)

theorem exportStep_moves (h : exportStep s a = some t) : Moves s a t := by
  cases a with
  | openExport n =>
    simp only [exportStep] at h
    split at h
    · cases h
    · cases h
      exact .openExport ‹_›
  | closeExport n =>
    cases h
    exact .closeExport
  | upload n p =>
    obtain ⟨e, at_n, h⟩ := Option.bind_eq_some_iff.mp h
    obtain ⟨fresh, ⟨⟩⟩ := Option.ite_none_left_eq_some.mp h
    exact .upload at_n fresh
  | failFlush n =>
    obtain ⟨e, at_n, ⟨⟩⟩ := Option.bind_eq_some_iff.mp h
    exact .failFlush at_n
  | append n dropped =>
    obtain ⟨e, at_n, ⟨⟩⟩ := Option.bind_eq_some_iff.mp h
    exact .append at_n
  | putManifest n =>
    obtain ⟨e, at_n, ⟨⟩⟩ := Option.bind_eq_some_iff.mp h
    exact .putManifest at_n
  | putSnapshot n seq =>
    obtain ⟨e, at_n, ⟨⟩⟩ := Option.bind_eq_some_iff.mp h
    exact .putSnapshot at_n
  | deleteSnapshot n seq =>
    cases h
    exact .deleteSnapshot
  | deleteManifest n =>
    simp only [exportStep] at h
    split at h
    · cases h
    · cases h
      exact .deleteManifest ‹_›
  | _ => cases h

theorem jobStep_moves (h : jobStep s a = some t) : Moves s a t := by
  cases a with
  | bless j b =>
    obtain ⟨idle, ⟨⟩⟩ := Option.ite_none_right_eq_some.mp h
    exact .bless idle
  | blessUpload j p =>
    obtain ⟨job, at_j, h⟩ := Option.bind_eq_some_iff.mp h
    obtain ⟨kind, ⟨⟩⟩ := Option.ite_none_right_eq_some.mp h
    exact .blessUpload at_j kind
  | promote j n seq b =>
    obtain ⟨⟨idle, -⟩, h⟩ := Option.ite_none_right_eq_some.mp h
    obtain ⟨packs, stored, ⟨⟩⟩ := Option.bind_eq_some_iff.mp h
    exact .promote idle stored
  | fork j source n =>
    obtain ⟨⟨idle, closed⟩, h⟩ := Option.ite_none_right_eq_some.mp h
    obtain ⟨packs, found, ⟨⟩⟩ := Option.bind_eq_some_iff.mp h
    exact .fork idle closed found
  | putJob j =>
    obtain ⟨job, at_j, h⟩ := Option.bind_eq_some_iff.mp h
    split at h
    case h_1 n target =>
      obtain ⟨closed, ⟨⟩⟩ := Option.ite_none_right_eq_some.mp h
      exact .putFork at_j target closed
    case h_2 other =>
      cases h
      exact .putBase at_j fun n is_live => other n is_live
  | abandon j =>
    cases h
    exact .abandon
  | prewarm b =>
    obtain ⟨packs, stored, ⟨⟩⟩ := Option.bind_eq_some_iff.mp h
    exact .prewarm stored
  | evict k =>
    cases h
    exact .evict
  | _ => cases h

theorem Moves.writes (h : Moves s a t) : Writes s t := by
  cases h with
  | openExport | closeExport | failFlush | append => exact (Writes.refl s).setExport
  | upload => exact (Writes.storePack s _).setExport
  | putManifest => exact (Writes.publish s _ _).setExport
  | putSnapshot => exact (Writes.publish s _ _).fillCache
  | deleteSnapshot | deleteManifest => exact Writes.unpublish s _
  | bless | promote | abandon => exact (Writes.refl s).setJob
  | blessUpload => exact (Writes.storePack s _).setJob
  | @fork _ source =>
    refine Writes.setJob ?_
    cases source with
    | live m => exact Writes.refl s
    | base b => exact (Writes.refl s).fillCache
    | snapshot m seq => exact (Writes.refl s).fillCache
  | putFork => exact (Writes.publish s _ _).setJob.setExport
  | putBase => exact (Writes.publish s _ _).setJob
  | prewarm => exact (Writes.refl s).fillCache
  | evict => exact (Writes.refl s).setCache

/-! ## What a collection changes -/

/-- What a step of a collection comes to, with what it found. -/
inductive Collects (grace : ℕ) (s : State ν P ρ φ) : Act ν P ρ φ → State ν P ρ φ → Prop where
  | start {r dryRun budget} (idle : s.runs r = none) :
      Collects grace s (.gcStart r dryRun budget) (s.setRun r (some
        ⟨s.serial, s.saved, dryRun, budget, .listManifests, ⟨∅, 0, ∅, ∅⟩⟩))
  | listManifests {r run} (at_r : s.runs r = some run)
      (at_stage : run.stage = .listManifests) :
      Collects grace s (.gcListManifests r) (s.setRun r (some { run with
        stage := .readManifests (s.objects.keys.filter fun k => k.isRead) ∅ false }))
  | readManifest {r} {k : Key ν} {ok run run'} (at_r : s.runs r = some run)
      (read : run.readManifest (s.objects.lookup k) k ok = some run') :
      Collects grace s (.gcReadManifest r k ok) (s.setRun r (some run'))
  | listPacks {r run run'} (at_r : s.runs r = some run)
      (listed : run.listPacks s.packs = some run') :
      Collects grace s (.gcListPacks r) (s.setRun r (some run'))
  | listSnapshots {r run maybeDead} (at_r : s.runs r = some run)
      (at_stage : run.stage = .listSnapshots maybeDead) :
      Collects grace s (.gcListSnapshots r) (s.setRun r (some { run with
        stage := .readSnapshots (s.objects.keys.filter fun k => ¬k.isManifest) maybeDead }))
  | readSnapshot {r} {k : Key ν} {ok run run'} (at_r : s.runs r = some run)
      (read : run.readSnapshot (s.objects.lookup k) k ok = some run') :
      Collects grace s (.gcReadSnapshot r k ok) (s.setRun r (some run'))
  | decide {r chosen run run'} (at_r : s.runs r = some run)
      (decided : run.decide grace s.now chosen = some run') :
      Collects grace s (.gcDecide r chosen) (s.setRun r (some run'))
  | delete {r} {p : P} {run eligible} (at_r : s.runs r = some run)
      (at_stage : run.stage = .deletePacks eligible) (mem : p ∈ eligible) :
      Collects grace s (.gcDelete r p true)
        ({ s with packs := s.packs.erase p }.setRun r (some { run with
          stage := .deletePacks (eligible.erase p)
          delta := { run.delta with deleted := insert p run.delta.deleted } }))
  | keep {r} {p : P} {run eligible} (at_r : s.runs r = some run)
      (at_stage : run.stage = .deletePacks eligible) (mem : p ∈ eligible) :
      Collects grace s (.gcDelete r p false)
        (s.setRun r (some { run with stage := .deletePacks (eligible.erase p) }))
  | finish {r run} (at_r : s.runs r = some run) (ended : run.stage.isOver) :
      Collects grace s (.gcFinish r)
        ({ s with saved := applyDelta run.state run.begun run.delta }.setRun r none)
  | crash {r} : Collects grace s (.gcCrash r) (s.setRun r none)

theorem gcStep_collects (h : gcStep grace s a = some t) : Collects grace s a t := by
  cases a with
  | gcStart r dryRun budget =>
    simp only [gcStep] at h
    split at h
    · cases h
    · cases h
      exact .start ‹_›
  | gcListManifests r =>
    obtain ⟨run, at_r, h⟩ := Option.bind_eq_some_iff.mp h
    split at h
    · cases h
      exact .listManifests at_r ‹_›
    · cases h
  | gcReadManifest r k ok =>
    obtain ⟨run, at_r, h⟩ := Option.bind_eq_some_iff.mp h
    obtain ⟨run', read, ⟨⟩⟩ := Option.bind_eq_some_iff.mp h
    exact .readManifest at_r read
  | gcListPacks r =>
    obtain ⟨run, at_r, h⟩ := Option.bind_eq_some_iff.mp h
    obtain ⟨run', listed, ⟨⟩⟩ := Option.bind_eq_some_iff.mp h
    exact .listPacks at_r listed
  | gcListSnapshots r =>
    obtain ⟨run, at_r, h⟩ := Option.bind_eq_some_iff.mp h
    split at h
    · cases h
      exact .listSnapshots at_r ‹_›
    · cases h
  | gcReadSnapshot r k ok =>
    obtain ⟨run, at_r, h⟩ := Option.bind_eq_some_iff.mp h
    obtain ⟨run', read, ⟨⟩⟩ := Option.bind_eq_some_iff.mp h
    exact .readSnapshot at_r read
  | gcDecide r chosen =>
    obtain ⟨run, at_r, h⟩ := Option.bind_eq_some_iff.mp h
    obtain ⟨run', decided, ⟨⟩⟩ := Option.bind_eq_some_iff.mp h
    exact .decide at_r decided
  | gcDelete r p ok =>
    obtain ⟨run, at_r, h⟩ := Option.bind_eq_some_iff.mp h
    split at h
    · obtain ⟨mem, h⟩ := Option.ite_none_right_eq_some.mp h
      cases ok with
      | false =>
        cases h
        exact .keep at_r ‹_› mem
      | true =>
        cases h
        exact .delete at_r ‹_› mem
    · cases h
  | gcFinish r =>
    obtain ⟨run, at_r, h⟩ := Option.bind_eq_some_iff.mp h
    obtain ⟨ended, ⟨⟩⟩ := Option.ite_none_right_eq_some.mp h
    exact .finish at_r ended
  | gcCrash r =>
    cases h
    exact .crash
  | _ => cases h

/-- A collection changes nothing of what the writers know or have stored, packs apart. -/
structure Leaves (s t : State ν P ρ φ) : Prop where
  now : t.now = s.now
  serial : t.serial = s.serial
  objects : t.objects = s.objects
  touch : t.touch = s.touch
  exports : t.exports = s.exports
  jobs : t.jobs = s.jobs

theorem Collects.leaves (h : Collects grace s a t) : Leaves s t := by
  cases h <;> exact ⟨rfl, rfl, rfl, rfl, rfl, rfl⟩

/-- A step is the clock, a writer's or a collection's. -/
theorem step_cases (h : step grace s a = some t) :
    ∃ u, t = { u with serial := s.serial + 1 } ∧
      ((∃ d, a = .tick d ∧ u = { s with now := s.now + d }) ∨ Moves s a u ∨
        Collects grace s a u) := by
  obtain ⟨u, taken, rfl⟩ := Option.map_eq_some_iff.mp h
  refine ⟨u, rfl, ?_⟩
  rcases effect_cases taken with tick | exported | worked | collected
  · exact .inl tick
  · exact .inr (.inl (exportStep_moves exported))
  · exact .inr (.inl (jobStep_moves worked))
  · exact .inr (.inr (gcStep_collects collected))

/-! ## Cleared objects -/

/-- At this stage the object under `k` has been seen without `p`. -/
def Stage.Cleared (k : Key ν) (p : P) : Stage ν P → Prop
  | .listManifests | .returned => False
  | .readManifests todo live failed =>
      failed = false ∧ k.isManifest = true ∧ k ∉ todo ∧ p ∉ live
  | .listSnapshots maybeDead => p ∈ maybeDead ∧ k.isManifest = true
  | .readSnapshots todo maybeDead => p ∈ maybeDead ∧ (k.isManifest = true ∨ k ∉ todo)
  | .deletePacks eligible => p ∈ eligible

/-- A pack the run marked is one it cleared of every object. -/
def Run.Cleared (run : Run ν P) (k : Key ν) (p : P) : Prop :=
  run.stage.Cleared k p ∨ p ∈ run.delta.newlyDead

theorem not_lists_of_lookup (h : p ∉ (s.objects.lookup k).getD ∅) : ¬s.Lists k p := by
  rintro ⟨packs, stored, inside⟩
  rw [stored] at h
  exact h inside

theorem not_lists_of_notMem_keys (h : k ∉ s.objects.keys) : ¬s.Lists k p := by
  rintro ⟨packs, stored, -⟩
  exact h (Finmap.mem_keys.mpr (Finmap.mem_iff.mpr ⟨packs, stored⟩))

/-! ## What a collection makes of its run -/

/-- The run goes on, and an object it has cleared of a pack was cleared before or does not list
    the pack. -/
structure Run.Next (s : State ν P ρ φ) (run run' : Run ν P) : Prop where
  begun : run'.begun = run.begun
  state : run'.state = run.state
  cleared : ∀ k p, run'.Cleared k p → run.Cleared k p ∨ ¬s.Lists k p

/-- Nothing is marked or picked for deletion. -/
structure Run.Continues (run run' : Run ν P) : Prop where
  newlyDead : run'.delta.newlyDead = run.delta.newlyDead
  stamp : run'.delta.stamp = run.delta.stamp
  eligible : ∀ eligible, run'.stage = .deletePacks eligible →
    ∃ before, run.stage = .deletePacks before ∧ eligible ⊆ before

/-- What is marked is stamped now, and what is picked for deletion is eligible. -/
structure Run.Decides (grace now : ℕ) (run run' : Run ν P) : Prop where
  stamp : run'.delta.stamp = now
  eligible : ∀ eligible, run'.stage = .deletePacks eligible → ∀ p ∈ eligible,
    isPackEligible run.state grace now p ∨ grace = 0 ∧ run.state p = none

section

variable {run run' : Run ν P} {ok : Bool}

theorem Run.readManifest_next (h : run.readManifest (s.objects.lookup k) k ok = some run') :
    run.Next s run' ∧ run.Continues run' := by
  unfold Run.readManifest at h
  split at h
  case h_2 => cases h
  case h_1 todo live failed at_stage =>
    obtain ⟨mem, ⟨⟩⟩ := Option.ite_none_right_eq_some.mp h
    refine ⟨⟨rfl, rfl, fun k' p cleared => ?_⟩, rfl, rfl, by cases ok <;> nofun⟩
    rcases cleared with at_new | marked
    · cases ok with
      | false => exact absurd at_new.1 (by decide)
      | true =>
        obtain ⟨sound, is_manifest, done, unseen⟩ := at_new
        rw [Finset.notMem_union] at unseen
        by_cases same : k' = k
        · exact .inr (same ▸ not_lists_of_lookup unseen.2)
        · refine .inl (.inl ?_)
          rw [at_stage]
          exact ⟨sound, is_manifest, fun waiting => done (Finset.mem_erase.mpr ⟨same, waiting⟩),
            unseen.1⟩
    · exact .inl (.inr marked)

theorem Run.listPacks_next {packs : Finset P} (h : run.listPacks packs = some run') :
    run.Next s run' ∧ run.Continues run' := by
  unfold Run.listPacks at h
  split at h
  case h_2 => cases h
  case h_1 todo live failed at_stage =>
    obtain ⟨complete, taken⟩ := Option.ite_none_right_eq_some.mp h
    dsimp only at taken
    split at taken
    · cases taken
      exact ⟨⟨rfl, rfl, fun k p cleared => .inl (cleared.elim False.elim .inr)⟩, rfl, rfl, nofun⟩
    · rename_i sound
      split at taken
      · cases taken
        exact ⟨⟨rfl, rfl, fun k p cleared => .inl (cleared.elim False.elim .inr)⟩, rfl, rfl, nofun⟩
      · cases taken
        refine ⟨⟨rfl, rfl, fun k p cleared => .inl (cleared.imp_left fun seen => ?_)⟩, rfl, rfl, nofun⟩
        rw [at_stage]
        exact ⟨Bool.eq_false_iff.mpr sound, seen.2,
          complete ▸ Finset.notMem_empty k, (Finset.mem_sdiff.mp seen.1).2⟩

theorem Run.readSnapshot_next (h : run.readSnapshot (s.objects.lookup k) k ok = some run') :
    run.Next s run' ∧ run.Continues run' := by
  unfold Run.readSnapshot at h
  split at h
  case h_2 => cases h
  case h_1 todo maybeDead at_stage =>
    obtain ⟨mem, ⟨⟩⟩ := Option.ite_none_right_eq_some.mp h
    refine ⟨⟨rfl, rfl, fun k' p cleared => ?_⟩, rfl, rfl, by cases ok <;> nofun⟩
    rcases cleared with at_new | marked
    · cases ok with
      | false => exact at_new.elim
      | true =>
        obtain ⟨dead, seen⟩ := at_new
        rw [Finset.mem_sdiff] at dead
        by_cases same : k' = k
        · exact .inr (same ▸ not_lists_of_lookup dead.2)
        · refine .inl (.inl ?_)
          rw [at_stage]
          exact ⟨dead.1, seen.imp_right fun done waiting =>
            done (Finset.mem_erase.mpr ⟨same, waiting⟩)⟩
    · exact .inl (.inr marked)

theorem Run.decide_next {now : ℕ} {chosen : Finset P}
    (h : run.decide grace now chosen = some run') :
    run.Next s run' ∧ run.Decides grace now run' := by
  unfold Run.decide at h
  split at h
  case h_2 => cases h
  case h_1 todo maybeDead at_stage =>
    obtain ⟨⟨complete, among, -⟩, ⟨⟩⟩ := Option.ite_none_right_eq_some.mp h
    have picked (eligible : Finset P) (stage : (if run.dryRun then Stage.returned else
        .deletePacks chosen : Stage ν P) = .deletePacks eligible) (p : P) (mem : p ∈ eligible) :=
      Finset.mem_filter.mp (among (show p ∈ chosen by
        split at stage <;> cases stage
        exact mem))
    refine ⟨⟨rfl, rfl, fun k p cleared => .inl (.inl ?_)⟩, rfl, fun eligible stage p mem =>
      (picked eligible stage p mem).2⟩
    have dead : p ∈ maybeDead := by
      rcases cleared with at_new | marked
      · dsimp only at at_new
        split at at_new
        · exact at_new.elim
        · rename_i wet
          exact (picked chosen (if_neg wet) p at_new).1
      · exact (Finset.mem_filter.mp marked).1
    rw [at_stage]
    refine ⟨dead, .inr ?_⟩
    rcases complete with rfl | rfl
    · exact Finset.notMem_empty k
    · exact absurd dead (Finset.notMem_empty p)

end

/-- A run lists the manifests while none is stored under a name it passes over. -/
def Act.ReadsAll (s : State ν P ρ φ) : Act ν P ρ φ → Prop
  | .gcListManifests _ => ∀ k ∈ s.objects.keys, k.isManifest = true → k.isRead = true
  | _ => True

theorem Act.ReadsAll.of_numbers (s : State ℕ P ρ φ) (a : Act ℕ P ρ φ) : a.ReadsAll s := by
  cases a with
  | gcListManifests r =>
    intro k _ is_manifest
    cases k with
    | base b | live n => rfl
    | snapshot n seq => cases is_manifest
  | _ => trivial

/-- A run was there before, has just begun, or has gone on. -/
def Run.Comes (grace : ℕ) (s : State ν P ρ φ) (r : ρ) (run' : Run ν P) : Prop :=
  s.runs r = some run' ∨
    (∃ dryRun budget,
      run' = ⟨s.serial, s.saved, dryRun, budget, .listManifests, ⟨∅, 0, ∅, ∅⟩⟩) ∨
    ∃ run, s.runs r = some run ∧ run.Next s run' ∧
      (run.Continues run' ∨ run.Decides grace s.now run')

theorem Collects.runs (h : Collects grace s a t) (all : a.ReadsAll s) {r : ρ} {run' : Run ν P}
    (now : t.runs r = some run') : run'.Comes grace s r := by
  have moved {q : ρ} {run new : Run ν P} (at_q : s.runs q = some run)
      (now : Function.update s.runs q (some new) r = some run')
      (next : run.Next s new ∧ (run.Continues new ∨ run.Decides grace s.now new)) :
      run'.Comes grace s r := by
    rcases update_eq_some now with ⟨rfl, ⟨⟩⟩ | ⟨-, old⟩
    · exact .inr (.inr ⟨run, at_q, next⟩)
    · exact .inl old
  cases h with
  | start =>
    rcases update_eq_some now with ⟨-, ⟨⟩⟩ | ⟨-, old⟩
    · exact .inr (.inl ⟨_, _, rfl⟩)
    · exact .inl old
  | listManifests at_r at_stage =>
    refine moved at_r now ⟨⟨rfl, rfl, fun k p cleared => ?_⟩, .inl ⟨rfl, rfl, nofun⟩⟩
    rcases cleared with ⟨-, is_manifest, absent, -⟩ | marked
    · exact .inr (not_lists_of_notMem_keys fun there =>
        absent (Finset.mem_filter.mpr ⟨there, all k there is_manifest⟩))
    · exact .inl (.inr marked)
  | listSnapshots at_r at_stage =>
    refine moved at_r now ⟨⟨rfl, rfl, fun k p cleared => ?_⟩, .inl ⟨rfl, rfl, nofun⟩⟩
    rcases cleared with ⟨dead, seen⟩ | marked
    · by_cases is_manifest : k.isManifest = true
      · refine .inl (.inl ?_)
        rw [at_stage]
        exact ⟨dead, is_manifest⟩
      · exact .inr (not_lists_of_notMem_keys fun there => seen.resolve_left is_manifest
          (Finset.mem_filter.mpr ⟨there, by simpa using is_manifest⟩))
    · exact .inl (.inr marked)
  | readManifest at_r read => exact moved at_r now ((Run.readManifest_next read).imp_right .inl)
  | listPacks at_r listed => exact moved at_r now ((Run.listPacks_next listed).imp_right .inl)
  | readSnapshot at_r read => exact moved at_r now ((Run.readSnapshot_next read).imp_right .inl)
  | decide at_r decided => exact moved at_r now ((Run.decide_next decided).imp_right .inr)
  | delete at_r at_stage | keep at_r at_stage =>
    refine moved at_r now ⟨⟨rfl, rfl, fun k p cleared => .inl (cleared.imp_left fun among => ?_)⟩,
      .inl ⟨rfl, rfl, ?_⟩⟩
    · rw [at_stage]
      exact Finset.mem_of_mem_erase among
    · rintro _ ⟨⟩
      exact ⟨_, at_stage, Finset.erase_subset _ _⟩
  | finish | crash =>
    rcases update_eq_some now with ⟨-, ⟨⟩⟩ | ⟨-, old⟩
    exact .inl old

/-! ## The scan along a run -/

/-- What a run cleared of an untouched pack still does not list it. -/
structure ScanInv (s : State ν P ρ φ) : Prop where
  begun : ∀ r run, s.runs r = some run → run.begun ≤ s.serial
  cleared : ∀ r run, s.runs r = some run → ∀ k p,
    s.touch p ≤ run.begun → run.Cleared k p → ¬s.Lists k p

theorem Writes.touch_of_le (w : Writes s t) {begun : ℕ} (old : begun ≤ s.serial)
    (untouched : t.touch p ≤ begun) : t.touch p = s.touch p := by
  rcases w.touch p with same | fresh
  · exact same
  · omega

theorem Writes.scanInv (w : Writes s t) (I : ScanInv s) : ScanInv t where
  begun := by
    rw [w.runs, w.serial]
    exact I.begun
  cleared := by
    rw [w.runs]
    intro r run at_r k p untouched seen lists
    have old := I.begun r run at_r
    have same := w.touch_of_le old untouched
    rcases w.lists k p lists with before | fresh
    · exact I.cleared r run at_r k p (same ▸ untouched) seen before
    · omega

theorem Collects.scanInv (h : Collects grace s a t) (all : a.ReadsAll s) (I : ScanInv s) :
    ScanInv t := by
  have frame := h.leaves
  constructor
  · intro r run' now
    rw [frame.serial]
    rcases h.runs all now with old | ⟨_, _, rfl⟩ | ⟨run, at_r, next, -⟩
    · exact I.begun r run' old
    · exact Nat.le_refl _
    · exact next.begun ▸ I.begun r run at_r
  · intro r run' now k p untouched cleared
    rw [frame.touch] at untouched
    unfold State.Lists
    rw [frame.objects]
    rcases h.runs all now with old | ⟨_, _, rfl⟩ | ⟨run, at_r, next, -⟩
    · exact I.cleared r run' old k p untouched cleared
    · exact cleared.elim False.elim fun marked => absurd marked (Finset.notMem_empty p)
    · exact (next.cleared k p cleared).elim (I.cleared r run at_r k p (next.begun ▸ untouched)) id

theorem step_scanInv (h : step grace s a = some t) (all : a.ReadsAll s) (I : ScanInv s) :
    ScanInv t := by
  obtain ⟨u, rfl, kind⟩ := step_cases h
  have kept : ScanInv u ∧ u.serial = s.serial := by
    rcases kind with ⟨d, -, rfl⟩ | moved | collected
    · exact ⟨⟨I.begun, I.cleared⟩, rfl⟩
    · exact ⟨moved.writes.scanInv I, moved.writes.serial⟩
    · exact ⟨collected.scanInv all I, collected.leaves.serial⟩
  refine ⟨fun r run at_r => ?_, kept.1.cleared⟩
  have old := kept.1.begun r run at_r
  exact Nat.le_succ_of_le (kept.2 ▸ old)

/-- No run is under way. -/
theorem idle_scanInv {packs : Finset P} {objects : Finmap fun _ : Key ν => Finset P}
    {saved : GcState P} : ScanInv (idle packs objects saved : State ν P ρ φ) :=
  ⟨nofun, nofun⟩

/-- A pack that a run is about to delete, and that nothing touched since the run began,
    is listed nowhere. -/
theorem ScanInv.unreferenced (I : ScanInv s) {r : ρ} {run : Run ν P} {eligible : Finset P}
    (at_r : s.runs r = some run) (at_stage : run.stage = .deletePacks eligible)
    (mem : p ∈ eligible) (untouched : s.touch p ≤ run.begun) : ¬s.Referenced p := by
  rintro ⟨k, lists⟩
  refine I.cleared r run at_r k p untouched (.inl ?_) lists
  rw [at_stage]
  exact mem

end GlideFS.Gc
