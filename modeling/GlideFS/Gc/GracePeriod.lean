import GlideFS.Gc.Orchestrate

/-! # The grace period of a pack object

A collection may delete a pack only when an earlier one, a grace period before,
found that very object dead, and it stayed dead and in place since. The code keeps
this as long as an entry of the state file is about one object: no other prefix
holds a pack of the same pair, nothing is uploaded under an entry, and what a
collection sees alive reaches the saved file.
-/

namespace GlideFS.Gc

variable {ν P : Type}

/-- The packs that the manifests read so far list. -/
def Stage.live : Stage ν P → Finset P
  | .readManifests _ live _ => live
  | _ => ∅

/-- The run saw the pack alive, or deleted it: its entry goes when the run is saved. -/
def Run.Saw (run : Run ν P) (p : P) : Prop :=
  p ∈ run.stage.live ∨ p ∈ run.delta.revived ∨ p ∈ run.delta.deleted

/-- What a stage knows of the packs listed in pass 1b. -/
def Stage.Fits (grace now : ℕ) (state : GcState P) (packs : Finset P) (delta : Delta P) :
    Stage ν P → Prop
  | .listManifests | .readManifests .. =>
      (delta.newlyDead = ∅ ∧ delta.deleted = ∅) ∧ delta.revived = ∅
  | .listSnapshots maybeDead | .readSnapshots _ maybeDead =>
      (delta.newlyDead = ∅ ∧ delta.deleted = ∅) ∧
        (∀ p ∈ maybeDead, p ∈ packs ∧ p ∉ delta.revived) ∧
        ∀ p ∈ packs, state p ≠ none → p ∈ maybeDead ∨ p ∈ delta.revived
  | .deletePacks eligible => ∀ p ∈ eligible,
      (p ∈ packs ∧ p ∉ delta.revived ∧ p ∉ delta.deleted) ∧
        ∃ mark stamp, state p = some mark ∧ mark.stamp = some stamp ∧ stamp + grace ≤ now
  | .returned => True

theorem Stage.Fits.later {grace now now' : ℕ} {state : GcState P} {packs : Finset P}
    {delta : Delta P} {stage : Stage ν P} (h : stage.Fits grace now state packs delta)
    (le : now ≤ now') : stage.Fits grace now' state packs delta := by
  cases stage with
  | deletePacks eligible =>
    intro p mem
    obtain ⟨held, mark, stamp, at_p, stamped, aged⟩ := h p mem
    exact ⟨held, mark, stamp, at_p, stamped, aged.trans le⟩
  | listManifests | readManifests | listSnapshots | readSnapshots | returned => exact h

/-- A pack uploaded under no entry, or after the run deleted it, changes no stage. -/
theorem Stage.Fits.insert [DecidableEq P] {grace now : ℕ} {state : GcState P} {packs : Finset P}
    {delta : Delta P} {stage : Stage ν P} {p : P} (h : stage.Fits grace now state packs delta)
    (unmarked : state p = none ∨ p ∈ delta.deleted) :
    stage.Fits grace now state (insert p packs) delta := by
  cases stage with
  | listManifests | readManifests | returned => exact h
  | listSnapshots maybeDead | readSnapshots todo maybeDead =>
    obtain ⟨early, dead, rest⟩ := h
    refine ⟨early, fun p' mem => ⟨Finset.mem_insert_of_mem (dead p' mem).1, (dead p' mem).2⟩, ?_⟩
    intro p' mem marked
    rcases Finset.mem_insert.mp mem with rfl | old
    · rcases unmarked with none | deleted
      · exact (marked none).elim
      · simp [early.2] at deleted
    · exact rest p' old marked
  | deletePacks eligible =>
    intro p' mem
    obtain ⟨⟨present, fresh⟩, aged⟩ := h p' mem
    exact ⟨⟨Finset.mem_insert_of_mem present, fresh⟩, aged⟩

end GlideFS.Gc

namespace GlideFS.Gc.Orchestrate

open GlideFS.Lib

variable {π ν P : Type}

/-- The event breaks the grace period of pack `p` of prefix `x`. -/
def Event.Disturbs (x : π) (p : P) : Event π P → Prop
  | .observed .. => False
  | .referenced y packs => y = x ∧ p ∈ packs
  | .created y p' => y = x ∧ p' = p

/-- The object was found dead by the collection that made the entry, no later than
    the entry says, and nothing disturbed it since. -/
def Watched (log : List (Event π P)) (x : π) (p : P) (mark : Mark) : Prop :=
  ∃ newer packs time older, log = newer ++ .observed mark.scan x packs time :: older ∧
    p ∈ packs ∧ (∀ stamp, mark.stamp = some stamp → time ≤ stamp) ∧
    ∀ e ∈ newer, ¬e.Disturbs x p

theorem Watched.append {log : List (Event π P)} {x : π} {p : P} {mark : Mark}
    (h : Watched log x p mark) {events : List (Event π P)}
    (calm : ∀ e ∈ events, ¬e.Disturbs x p) : Watched (events ++ log) x p mark := by
  obtain ⟨newer, packs, time, older, rfl, mem, early, since⟩ := h
  refine ⟨events ++ newer, packs, time, older, (List.append_assoc ..).symm, mem, early, ?_⟩
  intro e at_e
  cases List.mem_append.mp at_e with
  | inl new => exact calm e new
  | inr old => exact since e old

namespace State

/-- The entries in force: the loaded ones while a collection runs. -/
def marks (s : State π ν P) : GcState P :=
  match s.active with
  | some o => o.state
  | none => s.file

/-- `reconcile_prefix` of prefix `x`, if a collection is at it. -/
def run (s : State π ν P) (x : π) : Option (Run ν P) := s.active.bind fun o => o.runs x

theorem marks_active {s : State π ν P} {o : Orchestration π ν P} (h : s.active = some o) :
    s.marks = o.state := by
  simp [marks, h]

theorem run_active {s : State π ν P} {o : Orchestration π ν P} (h : s.active = some o) (x : π) :
    s.run x = o.runs x := by
  simp [run, h]

theorem marks_idle {s : State π ν P} (h : s.active = none) : s.marks = s.file := by
  simp [marks, h]

theorem run_idle {s : State π ν P} (h : s.active = none) (x : π) : s.run x = none := by
  simp [run, h]

end State

/-! ## The condition -/

variable [DecidableEq ν] [DecidableEq P]

/-- The step does not use an entry of the state file for another object, or past
    something that should have ended it. -/
def Act.Careful (s : State π ν P) : Act π ν P → Prop
  -- what is created has no entry, and no entry is about to be saved for it
  | .upload x p large => p ∈ s.packs x ∧ large = false ∨
      (s.marks p = none ∨ ∃ run, s.run x = some run ∧ p ∈ run.delta.deleted) ∧
        ∀ y run, s.run y = some run → p ∉ run.delta.newlyDead
  -- a prefix given up after an unreadable manifest saw no pack alive that has an entry
  | .gcPass x .listPacks => ∀ run todo live, s.run x = some run →
      run.stage = .readManifests todo live true → ∀ p ∈ live, p ∈ s.packs x → s.marks p = none
  -- a snapshot is not the only one to list a pack that has an entry
  | .gcPass x (.readSnapshot k true) => ∀ run todo maybeDead, s.run x = some run →
      run.stage = .readSnapshots todo maybeDead →
        ∀ p ∈ maybeDead, p ∈ ((s.objects x).lookup k).getD ∅ → s.marks p = none
  -- a pack that gets an entry is in no other prefix
  | .gcPass x (.decide _) => ∀ run todo maybeDead, s.run x = some run →
      run.stage = .readSnapshots todo maybeDead →
        ∀ p ∈ maybeDead, s.marks p = none → ∀ y, y ≠ x → p ∉ s.packs y
  -- a collection that is not saved saw no pack alive, or deleted none that is back, under
  -- an entry
  | .gcAbort => ∀ x run p, s.run x = some run → run.Saw p → p ∈ s.packs x → s.file p = none
  | _ => True

/-! ## What one call of `reconcile_prefix` does -/

/-- One case per call and outcome. -/
inductive Passes (grace : ℕ) (s : State π ν P) (x : π) (run : Run ν P) :
    Pass ν P → Run ν P → Finset P → List (Event π P) → Prop where
  | listManifests {todo : Finset (Key ν)} (stage : run.stage = .listManifests) :
      Passes grace s x run .listManifests { run with stage := .readManifests todo ∅ false }
        (s.packs x) []
  | readManifest {k : Key ν} {todo : Finset (Key ν)} {live : Finset P} {failed : Bool}
      (stage : run.stage = .readManifests todo live failed) :
      Passes grace s x run (.readManifest k true)
        { run with stage :=
          .readManifests (todo.erase k) (live ∪ ((s.objects x).lookup k).getD ∅) failed }
        (s.packs x) [.referenced x (((s.objects x).lookup k).getD ∅)]
  | missManifest {k : Key ν} {todo : Finset (Key ν)} {live : Finset P} {failed : Bool}
      (stage : run.stage = .readManifests todo live failed) :
      Passes grace s x run (.readManifest k false)
        { run with stage := .readManifests (todo.erase k) live true } (s.packs x) []
  | giveUp {todo : Finset (Key ν)} {live : Finset P}
      (stage : run.stage = .readManifests todo live true) :
      Passes grace s x run .listPacks { run with stage := .returned } (s.packs x) []
  | listPacks {todo : Finset (Key ν)} {live : Finset P} {next : Stage ν P}
      (stage : run.stage = .readManifests todo live false)
      (after : next = .returned ∨ next = .listSnapshots (s.packs x \ live)) :
      Passes grace s x run .listPacks
        { run with
          stage := next
          delta := { run.delta with
            revived := (s.packs x).filter fun p => p ∈ live ∧ run.state p ≠ none } }
        (s.packs x) []
  | listSnapshots {maybeDead : Finset P} {todo : Finset (Key ν)}
      (stage : run.stage = .listSnapshots maybeDead) :
      Passes grace s x run .listSnapshots { run with stage := .readSnapshots todo maybeDead }
        (s.packs x) []
  | readSnapshot {k : Key ν} {todo : Finset (Key ν)} {maybeDead : Finset P}
      (stage : run.stage = .readSnapshots todo maybeDead) :
      Passes grace s x run (.readSnapshot k true)
        { run with stage :=
          .readSnapshots (todo.erase k) (maybeDead \ ((s.objects x).lookup k).getD ∅) }
        (s.packs x) [.referenced x (((s.objects x).lookup k).getD ∅)]
  | missSnapshot {k : Key ν} {todo : Finset (Key ν)} {maybeDead : Finset P}
      (stage : run.stage = .readSnapshots todo maybeDead) :
      Passes grace s x run (.readSnapshot k false)
        { run with stage := .returned } (s.packs x) []
  | decide {chosen : Finset P} {todo : Finset (Key ν)} {maybeDead : Finset P}
      (stage : run.stage = .readSnapshots todo maybeDead)
      (eligible : chosen ⊆ maybeDead.filter (fun p =>
        isPackEligible run.state grace s.now p ∨ grace = 0 ∧ run.state p = none)) :
      Passes grace s x run (.decide chosen)
        { run with
          stage := if run.dryRun then .returned else .deletePacks chosen
          delta := { run.delta with
            newlyDead := maybeDead.filter fun p => run.state p = none
            stamp := s.now } }
        (s.packs x) [.observed run.begun x maybeDead s.now]
  | delete {p : P} {gone ok : Bool} {eligible : Finset P}
      (stage : run.stage = .deletePacks eligible) (mem : p ∈ eligible) (applied : ok → gone) :
      Passes grace s x run (.delete p gone ok)
        { run with
          stage := .deletePacks (eligible.erase p)
          delta := if ok then { run.delta with deleted := insert p run.delta.deleted }
            else run.delta }
        (if gone then (s.packs x).erase p else s.packs x) []

variable {grace : ℕ} {s t : State π ν P} {x : π} {run run' : Run ν P} {call : Pass ν P}
  {packs : Finset P} {events : List (Event π P)} {p : P}

theorem pass_cases [ManifestName ν] (h : pass grace s x run call = some (run', packs, events)) :
    Passes grace s x run call run' packs events := by
  cases call with
  | listManifests =>
    simp only [pass] at h
    split at h
    · rename_i stage
      cases h
      exact .listManifests stage
    · cases h
  | readManifest k ok =>
    obtain ⟨next, read, done⟩ := Option.bind_eq_some_iff.mp h
    cases done
    unfold Run.readManifest at read
    split at read
    · rename_i todo live failed stage
      split at read
      · cases read
        cases ok with
        | true => exact .readManifest stage
        | false => exact .missManifest stage
      · cases read
    · cases read
  | listPacks =>
    obtain ⟨next, listed, done⟩ := Option.bind_eq_some_iff.mp h
    cases done
    unfold Run.listPacks at listed
    split at listed
    · rename_i todo live failed stage
      split at listed
      · split at listed
        · rename_i given
          cases listed
          subst given
          exact .giveUp stage
        · rename_i read
          have stage : run.stage = .readManifests todo live false := by simpa [read] using stage
          dsimp only at listed
          split at listed <;> cases listed
          · exact .listPacks stage (.inl rfl)
          · exact .listPacks stage (.inr rfl)
      · cases listed
    · cases listed
  | listSnapshots =>
    simp only [pass] at h
    split at h
    · rename_i stage
      cases h
      exact .listSnapshots stage
    · cases h
  | readSnapshot k ok =>
    obtain ⟨next, read, done⟩ := Option.bind_eq_some_iff.mp h
    cases done
    unfold Run.readSnapshot at read
    split at read
    · rename_i todo maybeDead stage
      split at read
      · cases read
        cases ok with
        | true => exact .readSnapshot stage
        | false => exact .missSnapshot stage
      · cases read
    · cases read
  | decide chosen =>
    simp only [pass] at h
    split at h
    · rename_i todo maybeDead stage
      obtain ⟨next, decided, done⟩ := Option.bind_eq_some_iff.mp h
      cases done
      simp only [Run.decide, stage] at decided
      split at decided
      · rename_i allowed
        cases decided
        exact .decide stage allowed.2.1
      · cases decided
    · cases h
  | delete p gone ok =>
    simp only [pass] at h
    split at h
    · rename_i eligible stage
      split at h
      · rename_i allowed
        cases h
        exact .delete stage allowed.1 allowed.2
      · cases h
    · cases h

/-- A call is about its own prefix. -/
theorem Passes.calm (h : Passes grace s x run call run' packs events) {y : π} (other : y ≠ x) :
    ∀ e ∈ events, ¬e.Disturbs y p := by
  intro e mem disturbs
  cases h with
  | readManifest | readSnapshot =>
    cases List.mem_singleton.mp mem
    exact other disturbs.1.symm
  | decide =>
    cases List.mem_singleton.mp mem
    exact disturbs
  | listManifests | missManifest | giveUp | listPacks | listSnapshots | missSnapshot | delete =>
    cases mem

theorem Passes.packs_subset (h : Passes grace s x run call run' packs events) :
    packs ⊆ s.packs x := by
  cases h with
  | delete =>
    split
    · exact Finset.erase_subset ..
    · exact subset_rfl
  | listManifests | readManifest | missManifest | giveUp | listPacks | listSnapshots
  | readSnapshot | missSnapshot | decide => exact subset_rfl

theorem Passes.state (h : Passes grace s x run call run' packs events) :
    run'.state = run.state := by
  cases h <;> rfl

theorem Passes.begun (h : Passes grace s x run call run' packs events) :
    run'.begun = run.begun := by
  cases h <;> rfl

/-! ## One prefix -/

/-- What holds of `reconcile_prefix` for prefix `x` while its collection runs. -/
structure Sound (grace : ℕ) (s : State π ν P) (x : π) (run : Run ν P) : Prop where
  state : run.state = s.marks
  begun : run.begun = s.serial
  fits : run.stage.Fits grace s.now s.marks (s.packs x) run.delta
  fresh : ∀ p ∈ run.delta.newlyDead, s.marks p = none ∧ p ∈ s.packs x ∧
    (∀ y, y ≠ x → p ∉ s.packs y) ∧ Watched s.log x p ⟨some run.delta.stamp, s.serial⟩

/-- What happens elsewhere does not concern the run. -/
theorem Sound.frame (I : Sound grace s x run) (later : s.now ≤ t.now) (marks : t.marks = s.marks)
    (serial : t.serial = s.serial)
    (fits : run.stage.Fits grace s.now s.marks (t.packs x) run.delta)
    (kept : ∀ p ∈ run.delta.newlyDead, p ∈ t.packs x ∧ ∀ y, y ≠ x → p ∉ t.packs y)
    {events : List (Event π P)} (log : t.log = events ++ s.log)
    (calm : ∀ p ∈ run.delta.newlyDead, ∀ e ∈ events, ¬e.Disturbs x p) : Sound grace t x run where
  state := by rw [marks, I.state]
  begun := by rw [serial, I.begun]
  fits := by
    rw [marks]
    exact fits.later later
  fresh := by
    intro p mem
    obtain ⟨unmarked, -, -, watched⟩ := I.fresh p mem
    refine ⟨by rw [marks]; exact unmarked, (kept p mem).1, (kept p mem).2, ?_⟩
    rw [log, serial]
    exact watched.append (calm p mem)

/-- What a call leaves of the stage. -/
theorem Passes.fits (h : Passes grace s x run call run' packs events) (positive : 0 < grace)
    (careful : Act.Careful s (.gcPass x call)) (at_x : s.run x = some run)
    (I : Sound grace s x run) : run'.stage.Fits grace s.now s.marks packs run'.delta := by
  have fits := I.fits
  cases h with
  | listManifests stage | readManifest stage | missManifest stage =>
    rw [stage] at fits
    exact fits
  | giveUp | missSnapshot => trivial
  | listPacks stage after =>
    rw [stage] at fits
    rcases after with rfl | rfl
    · trivial
    · refine ⟨fits.1, ?_, ?_⟩
      · intro p mem
        simp_all
      · intro p present marked
        simp only [Finset.mem_sdiff, Finset.mem_filter, I.state]
        tauto
  | listSnapshots stage =>
    rw [stage] at fits
    exact fits
  | readSnapshot stage =>
    rw [stage] at fits
    obtain ⟨early, dead, rest⟩ := fits
    refine ⟨early, fun p mem => dead p (Finset.mem_sdiff.mp mem).1, ?_⟩
    intro p present marked
    rcases rest p present marked with mem | revived
    · refine .inl (Finset.mem_sdiff.mpr ⟨mem, fun listed => ?_⟩)
      exact marked (careful _ _ _ at_x stage p mem listed)
    · exact .inr revived
  | decide stage eligible =>
    rw [stage] at fits
    obtain ⟨early, dead, -⟩ := fits
    dsimp only
    split
    · trivial
    · intro p chosen
      obtain ⟨mem, old⟩ := Finset.mem_filter.mp (eligible chosen)
      have aged := isPackEligible_stamp positive old
      rw [I.state] at aged
      exact ⟨⟨(dead p mem).1, (dead p mem).2, by simp [early.2]⟩, aged⟩
  | @delete p gone ok eligible stage mem applied =>
    rw [stage] at fits
    intro p' left
    obtain ⟨other, mem'⟩ := Finset.mem_erase.mp left
    obtain ⟨⟨present, unrevived, undeleted⟩, aged⟩ := fits p' mem'
    refine ⟨⟨?_, ?_, ?_⟩, aged⟩
    · cases gone <;> simp [present, other]
    · cases ok <;> simpa using unrevived
    · cases ok <;> simp [undeleted, other]

/-- A call records only packs it finds dead in its own prefix. -/
theorem Passes.fresh (h : Passes grace s x run call run' packs events)
    (careful : Act.Careful s (.gcPass x call)) (at_x : s.run x = some run)
    (I : Sound grace s x run) (mem : p ∈ run'.delta.newlyDead) :
    s.marks p = none ∧ p ∈ packs ∧ (∀ y, y ≠ x → p ∉ s.packs y) ∧
      Watched (events ++ s.log) x p ⟨some run'.delta.stamp, s.serial⟩ := by
  have fits := I.fits
  cases h with
  | listManifests stage | readManifest stage | missManifest stage | giveUp stage
  | listPacks stage =>
    rw [stage] at fits
    simp [fits.1.1] at mem
  | listSnapshots stage | readSnapshot stage =>
    rw [stage] at fits
    simp [fits.1.1] at mem
  | missSnapshot => exact I.fresh p mem
  | @decide chosen todo maybeDead stage eligible =>
    rw [stage] at fits
    obtain ⟨dead, unmarked⟩ := Finset.mem_filter.mp mem
    rw [I.state] at unmarked
    refine ⟨unmarked, (fits.2.1 p dead).1, careful _ _ _ at_x stage p dead unmarked, ?_⟩
    refine ⟨[], maybeDead, s.now, s.log, by simp [I.begun], dead, ?_, by simp⟩
    rintro _ ⟨⟩
    exact le_rfl
  | @delete p' gone ok eligible stage mem' applied =>
    have mem : p ∈ run.delta.newlyDead := by cases ok <;> exact mem
    obtain ⟨unmarked, present, alone, watched⟩ := I.fresh p mem
    -- what is deleted has an entry
    have other : p ≠ p' := by
      rintro rfl
      rw [stage] at fits
      obtain ⟨-, mark, -, marked, -⟩ := fits p mem'
      simp [unmarked] at marked
    refine ⟨unmarked, ?_, alone, ?_⟩
    · cases gone <;> simp [present, other]
    · cases ok <;> exact watched

/-- A pack under an entry that was watched still is, or the run saw it. -/
theorem Passes.marks (h : Passes grace s x run call run' packs events)
    (careful : Act.Careful s (.gcPass x call)) (at_x : s.run x = some run)
    (I : Sound grace s x run) {mark : Mark} (marked : s.marks p = some mark) (mem : p ∈ packs)
    (before : Watched s.log x p mark ∨ run.Saw p) :
    Watched (events ++ s.log) x p mark ∨ run'.Saw p := by
  have present := h.packs_subset mem
  have fits := I.fits
  have entry : s.marks p ≠ none := by simp [marked]
  cases h with
  | listManifests stage | listSnapshots stage | missSnapshot stage | decide stage =>
    refine before.imp (fun watched => watched.append (by simp [Event.Disturbs])) fun saw => ?_
    exact .inr (by simpa [Run.Saw, Stage.live, stage] using saw)
  | @readManifest k todo live failed stage =>
    by_cases listed : p ∈ ((s.objects x).lookup k).getD ∅
    · exact .inr (.inl (Finset.mem_union_right _ listed))
    · refine before.imp (fun watched => watched.append (by simpa [Event.Disturbs])) fun saw => ?_
      simpa [Run.Saw, Stage.live, stage, listed] using saw
  | missManifest stage =>
    refine before.imp_right fun saw => ?_
    simpa [Run.Saw, Stage.live, stage] using saw
  | giveUp stage =>
    refine before.imp_right fun saw => ?_
    rcases saw with alive | removed
    · rw [stage] at alive
      exact (entry (careful _ _ _ at_x stage p alive present)).elim
    · exact .inr removed
  | listPacks stage after =>
    rw [stage] at fits
    refine before.imp_right fun saw => .inr (.inl ?_)
    have alive : p ∈ run.stage.live := by simpa [Run.Saw, fits.1.2, fits.2] using saw
    rw [stage] at alive
    exact Finset.mem_filter.mpr ⟨present, alive, by rwa [I.state]⟩
  | @readSnapshot k todo maybeDead stage =>
    rw [stage] at fits
    by_cases listed : p ∈ ((s.objects x).lookup k).getD ∅
    · -- only a revived pack may be listed under an entry
      rcases fits.2.2 p present entry with dead | revived
      · exact (entry (careful _ _ _ at_x stage p dead listed)).elim
      · exact .inr (.inr (.inl revived))
    · refine before.imp (fun watched => watched.append (by simpa [Event.Disturbs])) fun saw => ?_
      simpa [Run.Saw, Stage.live, stage] using saw
  | @delete p' gone ok eligible stage mem' applied =>
    refine before.imp_right fun saw => ?_
    cases ok with
    | false => simpa [Run.Saw, Stage.live, stage] using saw
    | true =>
      rcases saw with alive | revived | deleted
      · simp [stage, Stage.live] at alive
      · exact .inr (.inl revived)
      · exact .inr (.inr (Finset.mem_insert_of_mem deleted))

/-! ## The whole collection -/

variable [DecidableEq π]

/-- In every run of the pool: an entry of the state file tells of every object it
    could be used for, unless the collection at work is about to drop it. -/
structure Inv (grace : ℕ) (s : State π ν P) : Prop where
  file : ∀ p mark, s.file p = some mark → s.marks p = some mark
  scans : ∀ p mark, s.marks p = some mark → mark.scan < s.serial
  marks : ∀ x p mark, s.marks p = some mark → p ∈ s.packs x →
    Watched s.log x p mark ∨ ∃ run, s.run x = some run ∧ run.Saw p
  sound : ∀ x run, s.run x = some run → Sound grace s x run
  listed : ∀ o, s.active = some o → ∀ x run, o.runs x = some run → x ∈ o.prefixes

theorem Start.inv (start : Start s) : Inv grace s where
  file := by simp [start.file]
  scans := by simp [State.marks_idle start.active, start.file]
  marks := by simp [State.marks_idle start.active, start.file]
  sound := by simp [State.run_idle start.active]
  listed := by simp [start.active]

theorem Inv.tick (I : Inv grace s) (d : ℕ) : Inv grace { s with now := s.now + d } where
  file := I.file
  scans := I.scans
  marks := I.marks
  sound := fun x run at_x =>
    let sound := I.sound x run at_x
    { sound with fits := sound.fits.later (Nat.le_add_right ..) }
  listed := I.listed

theorem Inv.objects (I : Inv grace s) (objects : π → Finmap fun _ : Key ν => Finset P) :
    Inv grace { s with objects } where
  file := I.file
  scans := I.scans
  marks := I.marks
  sound := fun x run at_x => { I.sound x run at_x with }
  listed := I.listed

theorem Inv.loseFile (I : Inv grace s) : Inv grace { s with file := fun _ => none } := by
  rcases Option.eq_none_or_eq_some s.active with idle | ⟨o, active⟩
  · exact
      { file := by simp
        scans := by simp [State.marks, idle]
        marks := by simp [State.marks, idle]
        sound := by simp [State.run, idle]
        listed := by simp [idle] }
  · have marks : State.marks { s with file := fun _ => none } = s.marks := by
      simp [State.marks, active]
    exact
      { file := by simp
        scans := fun p mark marked => I.scans p mark (by rwa [marks] at marked)
        marks := fun x p mark marked => I.marks x p mark (by rwa [marks] at marked)
        sound := by
          intro x run at_x
          have sound := I.sound x run at_x
          exact sound.frame le_rfl marks rfl sound.fits
            (fun p mem => (sound.fresh p mem).2.imp_right (·.1)) (List.nil_append _).symm (by simp)
        listed := I.listed }

theorem Inv.upload (I : Inv grace s) {large : Bool} (careful : Act.Careful s (.upload x p large))
    (new : ¬(p ∈ s.packs x ∧ ¬large)) : Inv grace { s with
      packs := Function.update s.packs x (insert p (s.packs x))
      log := .created x p :: s.log } := by
  obtain ⟨present, small⟩ | ⟨unmarked, unrecorded⟩ := careful
  · exact (new ⟨present, by simp [small]⟩).elim
  have stored : ∀ {y p'}, p' ∈ Function.update s.packs x (insert p (s.packs x)) y ↔
      p' ∈ s.packs y ∨ y = x ∧ p' = p := by
    intro y p'
    by_cases same : y = x
    · subst same
      simp [or_comm]
    · simp [same]
  exact
    { file := I.file
      scans := I.scans
      marks := by
        intro y p' mark marked mem
        by_cases created : y = x ∧ p' = p
        · obtain ⟨rfl, rfl⟩ := created
          rcases unmarked with none | ⟨run, at_x, deleted⟩
          · exact absurd (none.symm.trans marked) (by simp)
          · exact .inr ⟨run, at_x, .inr (.inr deleted)⟩
        · have calm : ∀ e ∈ [(.created x p : Event π P)], ¬e.Disturbs y p' := by
            simp only [List.mem_singleton, forall_eq]
            exact fun disturbs => created ⟨disturbs.1.symm, disturbs.2.symm⟩
          exact (I.marks y p' mark marked ((stored.mp mem).resolve_right created)).imp_left
            (·.append calm)
      sound := by
        intro y run at_y
        have sound := I.sound y run at_y
        have other : ∀ p' ∈ run.delta.newlyDead, p' ≠ p := by
          rintro p' mem rfl
          exact unrecorded y run at_y mem
        refine sound.frame le_rfl rfl rfl ?_ ?_ (List.singleton_append (x := Event.created x p)).symm ?_
        · by_cases same : y = x
          · subst same
            simp only [Function.update_self]
            refine sound.fits.insert (unmarked.imp_right ?_)
            rintro ⟨run', at_y', deleted⟩
            cases at_y.symm.trans at_y'
            exact deleted
          · simpa [Function.update_of_ne same] using sound.fits
        · intro p' mem
          obtain ⟨-, present, alone, -⟩ := sound.fresh p' mem
          refine ⟨stored.mpr (.inl present), fun z apart held => ?_⟩
          rcases stored.mp held with old | ⟨-, rfl⟩
          · exact alone z apart old
          · exact other _ mem rfl
        · simp only [List.mem_singleton, forall_eq]
          exact fun p' mem disturbs => other p' mem disturbs.2.symm
      listed := I.listed }

theorem Inv.start (I : Inv grace s) (idle : s.active = none) (prefixes : List π) (dryRun : Bool)
    (maxDeletes : ℕ) : Inv grace { s with
      active := some
        { state := s.file
          budget := maxDeletes
          prefixes := prefixes
          runs := fun x =>
            if x ∈ prefixes then
              some ⟨s.serial, s.file, dryRun, maxDeletes, .listManifests, ⟨∅, 0, ∅, ∅⟩⟩
            else none } } where
  file := fun _ _ marked => marked
  scans := by
    intro p mark marked
    exact I.scans p mark (by rwa [State.marks_idle idle])
  marks := by
    intro y p mark marked mem
    refine (I.marks y p mark (by rwa [State.marks_idle idle]) mem).imp_right ?_
    rintro ⟨run, at_y, -⟩
    simp [State.run_idle idle] at at_y
  sound := by
    intro y run at_y
    simp only [State.run, Option.bind_some] at at_y
    split at at_y
    · cases at_y
      exact
        { state := rfl
          begun := rfl
          fits := ⟨⟨rfl, rfl⟩, rfl⟩
          fresh := by simp }
    · cases at_y
  listed := by
    rintro o ⟨⟩ y run at_y
    dsimp only at at_y
    split at at_y
    · assumption
    · cases at_y

theorem Inv.pass (I : Inv grace s) (positive : 0 < grace)
    (careful : Act.Careful s (.gcPass x call)) {o : Orchestration π ν P} {budget : ℕ}
    (active : s.active = some o) (at_x : o.runs x = some run)
    (h : Passes grace s x run call run' packs events) : Inv grace { s with
      packs := Function.update s.packs x packs
      active := some { o with
        budget := budget
        runs := Function.update o.runs x (some run') }
      log := events ++ s.log } := by
  have running : s.run x = some run := (State.run_active active x).trans at_x
  have marks := State.marks_active active
  have sound := I.sound x run running
  have smaller : ∀ {y p}, p ∈ Function.update s.packs x packs y → p ∈ s.packs y := by
    intro y p mem
    by_cases same : y = x
    · subst same
      rw [Function.update_self] at mem
      exact h.packs_subset mem
    · rwa [Function.update_of_ne same] at mem
  exact
    { file := fun p mark kept => by
        have := I.file p mark kept
        rwa [marks] at this
      scans := fun p mark marked => I.scans p mark (by rwa [marks])
      marks := by
        intro y p mark marked mem
        have entry : s.marks p = some mark := by rwa [marks]
        have before := I.marks y p mark entry (smaller mem)
        by_cases same : y = x
        · subst same
          have mem : p ∈ packs := by simpa using mem
          have before : Watched s.log y p mark ∨ run.Saw p := by
            refine before.imp_right ?_
            rintro ⟨_, at_y, saw⟩
            cases running.symm.trans at_y
            exact saw
          refine (h.marks careful running sound entry mem before).imp_right fun saw => ?_
          exact ⟨run', Function.update_self .., saw⟩
        · refine before.imp (·.append (h.calm same)) ?_
          rintro ⟨other, at_y, saw⟩
          refine ⟨other, ?_, saw⟩
          rw [State.run_active active] at at_y
          exact (Function.update_of_ne same ..).trans at_y
      sound := by
        intro y other at_y
        by_cases same : y = x
        · subst same
          cases (Function.update_self ..).symm.trans at_y
          have fits := h.fits positive careful running sound
          rw [marks] at fits
          exact
            { state := h.state.trans (sound.state.trans marks)
              begun := h.begun.trans sound.begun
              fits := by
                rw [show State.packs _ y = packs from Function.update_self ..]
                exact fits
              fresh := by
                intro p mem
                obtain ⟨unmarked, present, alone, watched⟩ := h.fresh careful running sound mem
                rw [marks] at unmarked
                refine ⟨unmarked, by simpa using present, fun z apart held => ?_, watched⟩
                exact alone z apart (smaller held) }
        · have at_y : o.runs y = some other := by
            simpa [State.run, Function.update_of_ne same] using at_y
          have held := I.sound y other ((State.run_active active y).trans at_y)
          refine held.frame le_rfl marks.symm rfl ?_ ?_ rfl fun _ _ => h.calm same
          · simpa [same] using held.fits
          · intro p mem
            obtain ⟨-, present, alone, -⟩ := held.fresh p mem
            exact ⟨by simpa [same] using present, fun z apart held => alone z apart (smaller held)⟩
      listed := by
        rintro _ ⟨⟩ y other at_y
        by_cases same : y = x
        · subst same
          exact I.listed o active _ _ at_x
        · exact I.listed o active y other ((Function.update_of_ne same ..).symm.trans at_y) }

/-- An entry of the saved file was loaded and no prefix dropped it, or a prefix added it. -/
theorem applyDeltas_some {runs : π → Option (Run ν P)} {begun : ℕ} {state : GcState P}
    {order : List π} {mark : Mark} (h : applyDeltas runs begun state order p = some mark) :
    (state p = some mark ∧ ∀ x ∈ order, ∀ run, runs x = some run →
        p ∉ run.delta.deleted ∧ p ∉ run.delta.revived) ∨
      ∃ x ∈ order, ∃ run, runs x = some run ∧ p ∈ run.delta.newlyDead ∧
        mark = ⟨some run.delta.stamp, begun⟩ := by
  induction order generalizing state with
  | nil => exact .inl ⟨h, by simp⟩
  | cons x rest ih =>
    rcases ih h with ⟨kept, undropped⟩ | ⟨y, mem, added⟩
    · cases at_x : runs x with
      | none =>
        simp only [at_x] at kept
        refine .inl ⟨kept, fun y mem run at_y => ?_⟩
        rcases List.mem_cons.mp mem with rfl | later
        · simp [at_x] at at_y
        · exact undropped y later run at_y
      | some run =>
        simp only [at_x] at kept
        obtain ⟨undeleted, unrevived, before | ⟨dead, new⟩⟩ := applyDelta_some kept
        · refine .inl ⟨before, fun y mem other at_y => ?_⟩
          rcases List.mem_cons.mp mem with rfl | later
          · cases at_x.symm.trans at_y
            exact ⟨undeleted, unrevived⟩
          · exact undropped y later other at_y
        · exact .inr ⟨x, List.mem_cons_self, run, at_x, dead, new⟩
    · exact .inr ⟨y, List.mem_cons_of_mem x mem, added⟩

theorem Inv.finish (I : Inv grace s) {o : Orchestration π ν P} (active : s.active = some o)
    {order : List π} (all : order.Perm o.prefixes)
    (finished : ∀ x ∈ order, ((o.runs x).map fun run => run.stage.isOver) = some true) :
    Inv grace { s with
      serial := s.serial + 1
      file := applyDeltas o.runs s.serial o.state order
      active := none } := by
  have marks := State.marks_active active
  exact
    { file := fun _ _ kept => kept
      scans := by
        intro p mark saved
        rcases applyDeltas_some saved with ⟨loaded, -⟩ | ⟨y, -, run, -, -, rfl⟩
        · exact (I.scans p mark (by rwa [marks])).trans (Nat.lt_succ_self _)
        · exact Nat.lt_succ_self _
      marks := by
        intro x p mark saved mem
        refine .inl ?_
        rcases applyDeltas_some saved with ⟨loaded, undropped⟩ | ⟨y, -, run, at_y, dead, rfl⟩
        · refine (I.marks x p mark (by rwa [marks]) mem).resolve_right ?_
          rintro ⟨run, at_x, saw⟩
          rw [State.run_active active] at at_x
          have mem := all.mem_iff.mpr (I.listed o active x run at_x)
          have over_x := finished x mem
          obtain ⟨undeleted, unrevived⟩ := undropped x mem run at_x
          rcases saw with alive | revived | deleted
          · simp only [at_x, Option.map_some, Option.some.injEq] at over_x
            cases stage : run.stage <;> simp_all [Stage.live, Stage.isOver]
          · exact unrevived revived
          · exact undeleted deleted
        · obtain ⟨-, -, alone, watched⟩ :=
            (I.sound y run ((State.run_active active y).trans at_y)).fresh p dead
          have same : x = y := by
            by_contra other
            exact alone x other mem
          exact same ▸ watched
      sound := by simp [State.run]
      listed := by simp }

theorem Inv.abort (I : Inv grace s) (careful : Act.Careful s .gcAbort) : Inv grace { s with
    serial := s.serial + 1
    active := none } where
  file := fun _ _ kept => kept
  scans := fun p mark kept => (I.scans p mark (I.file p mark kept)).trans (Nat.lt_succ_self _)
  marks := by
    intro x p mark kept mem
    refine .inl ((I.marks x p mark (I.file p mark kept) mem).resolve_right ?_)
    rintro ⟨run, at_x, saw⟩
    exact absurd ((careful x run p at_x saw mem).symm.trans kept) (by simp)
  sound := by simp [State.run]
  listed := by simp

variable [ManifestName ν]

theorem step_inv (positive : 0 < grace) {a : Act π ν P} (I : Inv grace s) (careful : a.Careful s)
    (h : step grace s a = some t) : Inv grace t := by
  cases a with
  | tick d =>
    cases h
    exact I.tick d
  | upload x p large =>
    simp only [step] at h
    split at h <;> cases h
    · exact I
    · exact I.upload careful ‹_›
  | publish x k packs | unpublish x k =>
    cases h
    exact I.objects _
  | loseFile =>
    cases h
    exact I.loseFile
  | gcStart prefixes dryRun maxDeletes =>
    simp only [step] at h
    split at h
    · cases h
    · cases h
      exact I.start ‹_› prefixes dryRun maxDeletes
  | gcPass x call =>
    obtain ⟨o, active, h⟩ := Option.bind_eq_some_iff.mp h
    obtain ⟨run, at_x, h⟩ := Option.bind_eq_some_iff.mp h
    obtain ⟨⟨run', packs, events⟩, passed, h⟩ := Option.bind_eq_some_iff.mp h
    dsimp only at h
    split at h
    · cases h
      exact I.pass positive careful active at_x (pass_cases passed)
    · cases h
  | gcFinish order =>
    obtain ⟨o, active, h⟩ := Option.bind_eq_some_iff.mp h
    split at h
    · rename_i ready
      cases h
      exact I.finish active ready.1 ready.2
    · cases h
  | gcAbort =>
    cases h
    exact I.abort careful

/-! ## Deletions -/

/-- An earlier collection found the object dead at least a grace period ago, and since
    then no collection saw it referenced and no upload created it. -/
def Due (grace : ℕ) (s : State π ν P) (x : π) (p : P) : Prop :=
  ∃ newer run packs time older, s.log = newer ++ .observed run x packs time :: older ∧
    run < s.serial ∧ p ∈ packs ∧ time + grace ≤ s.now ∧ ∀ e ∈ newer, ¬e.Disturbs x p

/-- The call deletes the object. -/
def Deletes (grace : ℕ) (s : State π ν P) (x : π) (p : P) : Prop :=
  ∃ ok t, step grace s (.gcPass x (.delete p true ok)) = some t

theorem Inv.due (I : Inv grace s) (h : Deletes grace s x p) : Due grace s x p := by
  obtain ⟨ok, t, taken⟩ := h
  obtain ⟨o, active, taken⟩ := Option.bind_eq_some_iff.mp taken
  obtain ⟨run, at_x, taken⟩ := Option.bind_eq_some_iff.mp taken
  obtain ⟨⟨run', packs, events⟩, passed, -⟩ := Option.bind_eq_some_iff.mp taken
  have running : s.run x = some run := (State.run_active active x).trans at_x
  have fits := (I.sound x run running).fits
  cases pass_cases passed with
  | delete stage mem applied =>
    rw [stage] at fits
    obtain ⟨⟨present, unrevived, undeleted⟩, mark, stamp, marked, stamped, aged⟩ := fits p mem
    have watched := (I.marks x p mark marked present).resolve_right (by
      rintro ⟨other, at_x', saw⟩
      cases running.symm.trans at_x'
      rcases saw with alive | revived | deleted
      · simp [stage, Stage.live] at alive
      · exact unrevived revived
      · exact undeleted deleted)
    obtain ⟨newer, packs, time, older, log, seen, early, calm⟩ := watched
    have := early stamp stamped
    exact ⟨newer, mark.scan, packs, time, older, log, I.scans p mark marked, seen, by omega, calm⟩

/-- In every run of careful steps, over any number of collections, with the state file
    saved or lost after each: only what is due is deleted. -/
theorem deleted_only_when_due (positive : 0 < grace) (start : Start s)
    (run : Reach (step grace) (fun t a => a.Careful t) s t) (deleted : Deletes grace t x p) :
    Due grace t x p :=
  (Reach.invariant (I := Inv grace) start.inv
    (fun _ _ _ I careful taken => step_inv positive I careful taken) run).due deleted

/-- Two prefixes; the first one holds the pack 7, which nothing lists. -/
def orphanedPack : State Bool ℕ ℕ where
  now := 0
  serial := 0
  packs := fun x => if x then ∅ else {7}
  objects := fun _ => ∅
  file := fun _ => none
  active := none
  log := []

/-- The calls of `reconcile_prefix` on a prefix without manifests. -/
def reconcileBare (x : Bool) (chosen : Finset ℕ) : List (Act Bool ℕ ℕ) :=
  [.gcPass x .listManifests, .gcPass x .listPacks, .gcPass x .listSnapshots,
    .gcPass x (.decide chosen)]

theorem orphanedPack_start : Start orphanedPack := ⟨fun _ => rfl, rfl, rfl⟩

/-- A first collection finds the pack dead and a second one, a grace period later,
    deletes it. -/
theorem orphan_deleted_when_due : ∃ t : State Bool ℕ ℕ,
    Steps (step 5) (fun t a => a.Careful t) orphanedPack
      (.gcStart [false] false 10 :: reconcileBare false ∅ ++
        [.gcFinish [false], .tick 6, .gcStart [false] false 10] ++ reconcileBare false {7}) t ∧
      Deletes 5 t false 7 ∧ Due 5 t false 7 := by
  obtain ⟨t, run, deletes⟩ : ∃ t, Steps (step 5) (fun t a => a.Careful t) orphanedPack
      (.gcStart [false] false 10 :: reconcileBare false ∅ ++
        [.gcFinish [false], .tick 6, .gcStart [false] false 10] ++ reconcileBare false {7}) t ∧
      Deletes 5 t false 7 := by
    refine ⟨_, ⟨trivial, _, rfl, trivial, _, rfl, ?_, _, rfl, trivial, _, rfl, ?_, _, rfl,
      trivial, _, rfl, trivial, _, rfl, trivial, _, rfl, trivial, _, rfl, ?_, _, rfl,
      trivial, _, rfl, ?_, _, rfl, rfl⟩, true, _, rfl⟩
    · rintro run todo live ⟨⟩ ⟨⟩
    · rintro run todo maybeDead ⟨⟩ ⟨⟩ p - - (_ | _) other
      · exact (other rfl).elim
      · exact Finset.notMem_empty p
    · rintro run todo live ⟨⟩ ⟨⟩
    · rintro run todo maybeDead ⟨⟩ ⟨⟩ p - - (_ | _) other
      · exact (other rfl).elim
      · exact Finset.notMem_empty p
  exact ⟨t, run, deletes,
    deleted_only_when_due (by decide) orphanedPack_start (reach_steps run) deletes⟩

/-- A first collection finds the pack dead in one prefix. The same pair is then uploaded in
    the other one, and right after it the second collection deletes it there, on the entry
    of the first. -/
theorem entry_of_other_prefix_deletes : ∃ t : State Bool ℕ ℕ,
    Reach (step 5) anyStep orphanedPack t ∧ Deletes 5 t true 7 ∧ ¬Due 5 t true 7 := by
  obtain ⟨t, run, deletes, serial, log⟩ : ∃ t, exec (step 5) orphanedPack
      (.gcStart [false] false 10 :: reconcileBare false ∅ ++
        [.gcFinish [false], .tick 6, .upload true 7 false, .gcStart [true] false 10] ++
        reconcileBare true {7}) = some t ∧ Deletes 5 t true 7 ∧ t.serial = 1 ∧
      t.log = [.observed 1 true {7} 6, .created true 7, .observed 0 false {7} 0] :=
    ⟨_, rfl, ⟨true, _, rfl⟩, rfl, rfl⟩
  refine ⟨t, reach_exec run, deletes, ?_⟩
  rintro ⟨newer, n, packs, time, older, split, earlier, -⟩
  have mem : Event.observed n true packs time ∈ t.log := by simp [split]
  simp only [log, List.mem_cons, Event.observed.injEq] at mem
  simp at mem
  omega

end GlideFS.Gc.Orchestrate
