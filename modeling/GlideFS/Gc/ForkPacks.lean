import GlideFS.Gc.Collected

/-! # A fork never lists a collected pack, if what it copies is still referenced

The grace period protects what a fork copied: a pack that loses its last
reference after the fork began is marked later still, and deleted no earlier than
the grace period after that. Two things break the argument. The manifest cache
may hold a base or snapshot that S3 has replaced or deleted, whose packs were
dead long before the fork. And a mark outlives the references it missed: a pack
revived and dropped again between two collections keeps its old mark, and is
deleted without any grace.
-/

namespace GlideFS.Gc

open GlideFS.Lib

variable {ν P ρ φ : Type} [DecidableEq ν] [ManifestName ν] [DecidableEq P] [DecidableEq ρ]
  [DecidableEq φ]
variable {grace : ℕ} {s t : State ν P ρ φ} {a : Act ν P ρ φ} {p : P} {m : Mark}

/-- The mark is in the state file, in a copy a run loaded, or about to be added by one. -/
def State.Marked (s : State ν P ρ φ) (p : P) (m : Mark) : Prop :=
  s.saved p = some m ∨ ∃ r run, s.runs r = some run ∧
    (run.state p = some m ∨ p ∈ run.delta.newlyDead ∧ m = ⟨some run.delta.stamp, run.begun⟩)

/-- A pack is deleted only on a mark made by a run since whose beginning the pack was
    neither uploaded nor newly listed. -/
def Act.Settled (s : State ν P ρ φ) : Act ν P ρ φ → Prop
  | .gcDelete r p _ => ∀ run m, s.runs r = some run → run.state p = some m → s.touch p ≤ m.scan
  | _ => True

/-- What the grace period guarantees. A mark is honest while nothing touched its pack
    since the run that made it began. -/
structure Graced (grace : ℕ) (s : State ν P ρ φ) : Prop where
  intact : s.Intact
  synced : s.Synced
  scan : ScanInv s
  scans : ∀ p m, s.Marked p m → m.scan ≤ s.serial
  honest : ∀ p m, s.Marked p m → s.touch p ≤ m.scan → ¬s.Referenced p
  dates : ∀ p since, s.Relied p since → since ≤ s.now
  stamps : ∀ p since m stamp, s.Relied p since → s.Marked p m → s.touch p ≤ m.scan →
    m.stamp = some stamp → since ≤ stamp
  relied : ∀ p since, s.Relied p since → p ∈ s.packs ∨ since + grace ≤ s.now
  eligible : ∀ r run eligible, s.runs r = some run → run.stage = .deletePacks eligible →
    ∀ p ∈ eligible, ∃ m stamp, run.state p = some m ∧ m.stamp = some stamp ∧
      stamp + grace ≤ s.now

/-! ## Steps of the writers -/

theorem Writes.marked (w : Writes s t) : t.Marked p m ↔ s.Marked p m := by
  unfold State.Marked
  rw [w.saved, w.runs]

theorem Moves.graced (h : Moves s a t) (I : Graced grace s) (stored : a.CopiesStored s)
    (inTime : a.InTime grace s) : Graced grace t := by
  have w := h.writes
  -- an honest mark was honest before the step
  have untouched : ∀ {p m}, t.Marked p m → t.touch p ≤ m.scan →
      s.Marked p m ∧ s.touch p ≤ m.scan ∧ t.touch p = s.touch p := by
    intro p m marked honest
    have before := w.marked.mp marked
    have same := w.touch_of_le (I.scans p m before) honest
    exact ⟨before, same ▸ honest, same⟩
  refine ⟨?_, h.synced I.synced, w.scanInv I.scan, ?_, ?_, ?_, ?_, ?_, ?_⟩
  · rintro p ⟨k, lists⟩
    apply w.packs
    rcases h.publishes I.synced lists with referenced | ⟨since, put⟩
    · exact I.intact p referenced
    · have early := inTime _ put
      exact (I.relied p since (relied_of_puts put)).resolve_right (by omega)
  · intro p m marked
    rw [w.serial]
    exact I.scans p m (w.marked.mp marked)
  · rintro p m marked honest ⟨k, lists⟩
    obtain ⟨before, old, same⟩ := untouched marked honest
    rcases w.lists k p lists with listed | fresh
    · exact I.honest p m before old ⟨k, listed⟩
    · have := I.scans p m before
      omega
  · intro p since relied
    rw [w.now]
    rcases h.relied stored relied with before | ⟨now, -⟩
    · exact I.dates p since before
    · exact now.le
  · intro p since m stamp relied marked honest stamped
    obtain ⟨before, old, same⟩ := untouched marked honest
    rcases h.relied stored relied with relying | ⟨-, ⟨-, fresh⟩ | referenced⟩
    · exact I.stamps p since m stamp relying before old stamped
    · have := I.scans p m before
      omega
    · exact absurd referenced (I.honest p m before old)
  · intro p since relied
    rw [w.now]
    rcases h.relied stored relied with relying | ⟨-, ⟨there, -⟩ | referenced⟩
    · exact (I.relied p since relying).imp_left fun there => w.packs there
    · exact .inl there
    · exact .inl (w.packs (I.intact p referenced))
  · rw [w.runs, w.now]
    exact I.eligible

/-! ## Steps of the collections -/

theorem Collects.saved (h : Collects grace s a t) (saved : t.saved p = some m) : s.Marked p m := by
  cases h with
  | finish at_r => exact .inr ⟨_, _, at_r, (applyDelta_some saved).2.2⟩
  | _ => exact .inl saved

/-- A mark a collection step adds is stamped now, and its pack is listed nowhere if
    nothing touched it since the run began. -/
theorem Collects.marked (h : Collects grace s a t) (all : a.ReadsAll s) (scan : ScanInv s)
    (marked : t.Marked p m) :
    s.Marked p m ∨ m.stamp = some s.now ∧ m.scan ≤ s.serial ∧
      (s.touch p ≤ m.scan → ¬s.Referenced p) := by
  rcases marked with saved | ⟨r, run', now, held⟩
  · exact .inl (h.saved saved)
  rcases h.runs all now with old | ⟨_, _, rfl⟩ | ⟨run, at_r, next, how⟩
  · exact .inl (.inr ⟨r, run', old, held⟩)
  · refine .inl (held.elim .inl fun new => ?_)
    exact absurd new.1 (Finset.notMem_empty p)
  · rcases held with loaded | ⟨new, rfl⟩
    · exact .inl (.inr ⟨r, run, at_r, .inl (next.state ▸ loaded)⟩)
    · rcases how with c | d
      · refine .inl (.inr ⟨r, run, at_r, .inr ⟨c.newlyDead ▸ new, ?_⟩⟩)
        rw [c.stamp, next.begun]
      · refine .inr ⟨congrArg some d.stamp, next.begun ▸ scan.begun r run at_r, ?_⟩
        rintro untouched ⟨k, lists⟩
        rcases next.cleared k p (.inr new) with cleared | unlisted
        · exact scan.cleared r run at_r k p (next.begun ▸ untouched) cleared lists
        · exact unlisted lists

theorem Collects.eligible (h : Collects grace s a t) (all : a.ReadsAll s) (positive : 0 < grace)
    (I : Graced grace s) :
    ∀ r run eligible, t.runs r = some run → run.stage = .deletePacks eligible →
      ∀ p ∈ eligible, ∃ m stamp, run.state p = some m ∧ m.stamp = some stamp ∧
        stamp + grace ≤ s.now := by
  intro r run' among now at_stage p mem
  rcases h.runs all now with old | ⟨_, _, rfl⟩ | ⟨run, at_r, next, c | d⟩
  · exact I.eligible r run' among old at_stage p mem
  · cases at_stage
  · obtain ⟨before, stage, among⟩ := c.eligible _ at_stage
    rw [next.state]
    exact I.eligible r run before at_r stage p (among mem)
  · rw [next.state]
    exact isPackEligible_stamp positive (d.eligible among at_stage p mem)

/-- A deleted pack is referenced nowhere, and whoever relies on it is out of time. -/
theorem Collects.packs (h : Collects grace s a t) (settled : a.Settled s) (I : Graced grace s)
    (there : p ∈ s.packs) :
    p ∈ t.packs ∨ ¬s.Referenced p ∧ ∀ since, s.Relied p since → since + grace ≤ s.now := by
  cases h with
  | @delete r q run among at_r at_stage mem =>
    by_cases same : p = q
    · subst same
      obtain ⟨m, stamp, at_p, stamped, old⟩ := I.eligible r run among at_r at_stage p mem
      have honest := settled run m at_r at_p
      have marked : s.Marked p m := .inr ⟨r, run, at_r, .inl at_p⟩
      refine .inr ⟨I.honest p m marked honest, fun since relied => ?_⟩
      have := I.stamps p since m stamp relied marked honest stamped
      omega
    · exact .inl (Finset.mem_erase.mpr ⟨same, there⟩)
  | _ => exact .inl there

theorem Collects.graced (h : Collects grace s a t) (positive : 0 < grace) (I : Graced grace s)
    (settled : a.Settled s) (all : a.ReadsAll s) : Graced grace t := by
  have frame := h.leaves
  have relied_iff : ∀ {p since}, t.Relied p since ↔ s.Relied p since :=
    relied_congr frame.exports frame.jobs
  refine ⟨?_, frame.synced I.synced, h.scanInv all I.scan, ?_, ?_, ?_, ?_, ?_, ?_⟩
  · intro p referenced
    have before := frame.referenced.mp referenced
    exact (h.packs settled I (I.intact p before)).resolve_right fun dead => dead.1 before
  · intro p m marked
    rw [frame.serial]
    rcases h.marked all I.scan marked with before | ⟨-, bound, -⟩
    · exact I.scans p m before
    · exact bound
  · intro p m marked honest referenced
    rw [frame.touch] at honest
    have before := frame.referenced.mp referenced
    rcases h.marked all I.scan marked with old | ⟨-, -, unlisted⟩
    · exact I.honest p m old honest before
    · exact unlisted honest before
  · intro p since relied
    rw [frame.now]
    exact I.dates p since (relied_iff.mp relied)
  · intro p since m stamp relied marked honest stamped
    rw [frame.touch] at honest
    have before := relied_iff.mp relied
    rcases h.marked all I.scan marked with old | ⟨now, -, -⟩
    · exact I.stamps p since m stamp before old honest stamped
    · cases now.symm.trans stamped
      exact I.dates p since before
  · intro p since relied
    rw [frame.now]
    have before := relied_iff.mp relied
    rcases I.relied p since before with there | late
    · exact (h.packs settled I there).imp_right fun dead => dead.2 since before
    · exact .inr late
  · rw [frame.now]
    exact h.eligible all positive I

/-! ## Runs -/

theorem step_graced (positive : 0 < grace) (I : Graced grace s) (stored : a.CopiesStored s)
    (inTime : a.InTime grace s) (settled : a.Settled s) (all : a.ReadsAll s)
    (h : step grace s a = some t) : Graced grace t := by
  have scan := step_scanInv h all I.scan
  obtain ⟨u, rfl, kind⟩ := step_cases h
  have kept : Graced grace u ∧ u.serial = s.serial := by
    rcases kind with ⟨d, -, rfl⟩ | moved | collected
    · refine ⟨⟨I.intact, I.synced, ⟨I.scan.begun, I.scan.cleared⟩, I.scans, I.honest, ?_, I.stamps,
        ?_, ?_⟩, rfl⟩
      · exact fun p since relied => Nat.le_add_right_of_le (I.dates p since relied)
      · exact fun p since relied =>
          (I.relied p since relied).imp_right Nat.le_add_right_of_le
      · intro r run among at_r at_stage p mem
        obtain ⟨m, stamp, at_p, stamped, old⟩ := I.eligible r run among at_r at_stage p mem
        exact ⟨m, stamp, at_p, stamped, Nat.le_add_right_of_le old⟩
    · exact ⟨moved.graced I stored inTime, moved.writes.serial⟩
    · exact ⟨collected.graced positive I settled all, collected.leaves.serial⟩
  obtain ⟨J, serial⟩ := kept
  refine ⟨J.intact, J.synced, scan, fun p m marked => ?_, J.honest, J.dates, J.stamps, J.relied,
    J.eligible⟩
  have bound := J.scans p m marked
  exact Nat.le_succ_of_le (serial ▸ bound)

theorem idle_graced {packs : Finset P} {objects : Finmap fun _ : Key ν => Finset P}
    (start : (idle packs objects fun _ => none : State ν P ρ φ).Intact) :
    Graced grace (idle packs objects fun _ => none : State ν P ρ φ) := by
  have kept := idle_kept start
  have relied : ∀ p since, ¬(idle packs objects fun _ => none : State ν P ρ φ).Relied p since := by
    rintro p since (⟨n, e, ⟨⟩, -⟩ | ⟨j, job, ⟨⟩, -⟩)
  have marked : ∀ p m, ¬(idle packs objects fun _ => none : State ν P ρ φ).Marked p m := by
    rintro p m (saved | ⟨r, run, ⟨⟩, -⟩)
    cases saved
  exact ⟨start, kept.synced, kept.scan, fun p m h => absurd h (marked p m),
    fun p m h => absurd h (marked p m), fun p since h => absurd h (relied p since),
    fun p since _ _ h => absurd h (relied p since), fun p since h => absurd h (relied p since),
    nofun⟩

/-- Forks copy only what S3 still references, every PUT comes in time, packs are
    deleted on honest marks only, and collections read every manifest. -/
def Act.Careful (grace : ℕ) (s : State ν P ρ φ) (a : Act ν P ρ φ) : Prop :=
  a.CopiesStored s ∧ a.InTime grace s ∧ a.Settled s ∧ a.ReadsAll s

/-- In every run whose steps are all careful, when a fork's manifest is PUT less than
    the grace period after the fork began, every pack it lists exists in S3. The same
    holds of promotes and blesses. -/
theorem fork_packs_exist (positive : 0 < grace) (packs : Finset P)
    (objects : Finmap fun _ : Key ν => Finset P)
    (start : (idle packs objects fun _ => none : State ν P ρ φ).Intact)
    (run : Reach (step grace) (Act.Careful grace) (idle packs objects fun _ => none) s)
    {j : φ} {job : Job ν P} (at_j : s.jobs j = some job)
    (inTime : ∀ q ∈ job.packs, s.now < q.2 + grace) (put : step grace s (.putJob j) = some t) :
    ∀ p ∈ ids job.packs, p ∈ t.packs := by
  have I : Graced grace s := Reach.invariant (I := Graced grace) (idle_graced start)
    (fun _ _ _ I ok taken => step_graced positive I ok.1 ok.2.1 ok.2.2.1 ok.2.2.2 taken) run
  intro p mem
  obtain ⟨since, mem⟩ := mem_ids.mp mem
  have early := inTime _ mem
  have there := (I.relied p since (.inr ⟨j, job, at_j, mem⟩)).resolve_right (by omega)
  obtain ⟨u, rfl, ⟨d, ⟨⟩, -⟩ | moved | collected⟩ := step_cases put
  · exact moved.writes.packs there
  · cases collected

/-- A collection of a prefix whose only manifest is the base 1, up to its decision. -/
def sweepBase (r : ℕ) (chosen : Finset ℕ) : List (Act ℕ ℕ ℕ ℕ) :=
  [.gcStart r false 1, .gcListManifests r, .gcReadManifest r (.base 1) true, .gcListPacks r,
    .gcListSnapshots r, .gcDecide r chosen]

/-- While the base 1 is being forked, the pack 7 of nobody is deleted and the base's
    pack 6 is not. -/
theorem fork_of_base_keeps_pack :
    ∃ s t : State ℕ ℕ ℕ ℕ,
      Reach (step 5) (Act.Careful 5)
        (idle {6, 7} (Finmap.singleton (.base 1) {6}) fun _ => none) s ∧
      step 5 s (.putJob 0) = some t ∧ 7 ∉ s.packs ∧ t.objects.lookup (.live 3) = some {6} ∧
      6 ∈ t.packs := by
  have start : (idle {6, 7} (Finmap.singleton (.base 1) {6}) fun _ => none :
      State ℕ ℕ ℕ ℕ).Intact := by
    rintro p ⟨k, packs, stored, mem⟩
    by_cases same : k = .base 1
    · subst same
      cases (Finmap.lookup_singleton_eq).symm.trans stored
      exact Finset.mem_insert.mpr (.inl (Finset.mem_singleton.mp mem))
    · rw [show (idle {6, 7} (Finmap.singleton (.base 1) {6}) fun _ => none :
        State ℕ ℕ ℕ ℕ).objects.lookup k = none from
          Finmap.lookup_eq_none.mpr fun there => same (Finmap.mem_singleton _ _ _ |>.mp there)]
        at stored
      cases stored
  have free : ∀ (s : State ℕ ℕ ℕ ℕ) (a : Act ℕ ℕ ℕ ℕ), a.puts s = ∅ → a.CopiesStored s →
      a.Settled s → a.Careful 5 s := by
    intro s a none stored settled
    refine ⟨stored, fun q mem => ?_, settled, .of_numbers s a⟩
    rw [none] at mem
    exact absurd mem (Finset.notMem_empty q)
  obtain ⟨s, run, at_j, gone, early, t, put, listed⟩ : ∃ s : State ℕ ℕ ℕ ℕ,
      Steps (step 5) (Act.Careful 5) (idle {6, 7} (Finmap.singleton (.base 1) {6}) fun _ => none)
        (sweepBase 0 ∅ ++ [.gcFinish 0, .tick 10, .fork 0 (.base 1) 3] ++ sweepBase 1 {7} ++
          [.gcDelete 1 7 true]) s ∧
      s.jobs 0 = some ⟨.fork, .live 3, {(6, 10)}⟩ ∧ 7 ∉ s.packs ∧
      (∀ q ∈ ({(6, 10)} : Finset (ℕ × ℕ)), s.now < q.2 + 5) ∧
      ∃ t, step 5 s (.putJob 0) = some t ∧ t.objects.lookup (.live 3) = some {6} := by
    refine ⟨_, ⟨free _ _ rfl trivial trivial, _, rfl, free _ _ rfl trivial trivial, _, rfl,
      free _ _ rfl trivial trivial, _, rfl, free _ _ rfl trivial trivial, _, rfl,
      free _ _ rfl trivial trivial, _, rfl, free _ _ rfl trivial trivial, _, rfl,
      free _ _ rfl trivial trivial, _, rfl, free _ _ rfl trivial trivial, _, rfl,
      free _ _ rfl ?_ trivial, _, rfl, free _ _ rfl trivial trivial, _, rfl,
      free _ _ rfl trivial trivial, _, rfl, free _ _ rfl trivial trivial, _, rfl,
      free _ _ rfl trivial trivial, _, rfl, free _ _ rfl trivial trivial, _, rfl,
      free _ _ rfl trivial trivial, _, rfl, free _ _ rfl trivial ?_, _, rfl, rfl⟩,
      rfl, by decide, by decide, _, rfl, rfl⟩
    · rintro packs ⟨⟩ p mem
      exact ⟨.base 1, {6}, rfl, mem⟩
    · rintro run m ⟨⟩ ⟨⟩
      exact Nat.zero_le _
  have reached := reach_steps run
  have kept := fork_packs_exist (by decide) {6, 7} _ start reached at_j early put
  exact ⟨s, t, reached, put, gone, listed, kept 6 (mem_ids.mpr ⟨10, Finset.mem_singleton_self _⟩)⟩

/-- The base 1 is blessed with the pack 7 and cached, then blessed again from another
    process with the pack 8. Collections mark and delete 7. A fork of the base takes
    the cached manifest and publishes 7. -/
theorem fork_of_stale_cache_lists_collected :
    ∃ s t : State ℕ ℕ ℕ ℕ,
      Reach (step 5) (fun s a => a.InTime 5 s) (idle ∅ ∅ fun _ => none) s ∧
      s.jobs 0 = some ⟨.fork, .live 3, {(7, 10)}⟩ ∧ s.now < 10 + 5 ∧
      step 5 s (.putJob 0) = some t ∧ t.objects.lookup (.live 3) = some {7} ∧ 7 ∉ t.packs := by
  obtain ⟨s, run, at_j, early, t, put, listed, gone⟩ : ∃ s : State ℕ ℕ ℕ ℕ,
      execWhile (step 5) (fun s a => a.InTime 5 s) (idle ∅ ∅ fun _ => none)
        ([.bless 0 1, .blessUpload 0 7, .putJob 0, .prewarm 1, .bless 0 1, .blessUpload 0 8,
            .putJob 0] ++ sweepBase 0 ∅ ++ [.gcFinish 0, .tick 10] ++ sweepBase 1 {7} ++
          [.gcDelete 1 7 true, .gcFinish 1, .fork 0 (.base 1) 3]) = some s ∧
      s.jobs 0 = some ⟨.fork, .live 3, {(7, 10)}⟩ ∧ s.now < 10 + 5 ∧
      ∃ t, step 5 s (.putJob 0) = some t ∧ t.objects.lookup (.live 3) = some {7} ∧ 7 ∉ t.packs :=
    ⟨_, rfl, rfl, by decide, _, rfl, rfl, by decide⟩
  exact ⟨s, t, reach_execWhile run, at_j, early, put, listed, gone⟩

end GlideFS.Gc
