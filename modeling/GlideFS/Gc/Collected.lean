import GlideFS.Gc.Reliance

/-! # No referenced pack is collected, unless a flush revives it under the collection

A run decides what is dead from manifests it read earlier, and deletes later. A
flush that meets an existing pack (`PutMode::Create`) takes it as uploaded. When
that happens between the run's scan and its DELETE, the flush publishes a
manifest that lists a pack no longer there. Apart from that the scan is sound,
whatever state file the run was given.
-/

namespace GlideFS.Gc

open GlideFS.Lib

variable {ν P ρ φ : Type} [DecidableEq ν] [ManifestName ν] [DecidableEq P] [DecidableEq ρ]
  [DecidableEq φ]
variable {grace : ℕ} {s t : State ν P ρ φ} {a : Act ν P ρ φ} {p : P}

/-- A run deletes a pack only when no writer relies on it. If the pack was uploaded
    or newly listed since the run began, it is also listed nowhere. -/
def Act.Undisturbed (s : State ν P ρ φ) : Act ν P ρ φ → Prop
  | .gcDelete r p _ =>
      (∀ since, ¬s.Relied p since) ∧
        ∀ run, s.runs r = some run → run.begun < s.touch p → ¬s.Referenced p
  | _ => True

/-- Packs that are referenced or relied on exist. -/
structure Kept (s : State ν P ρ φ) : Prop where
  intact : s.Intact
  relied : ∀ p since, s.Relied p since → p ∈ s.packs
  synced : s.Synced
  scan : ScanInv s

theorem Moves.intact (h : Moves s a t) (I : Kept s) : t.Intact := by
  rintro p ⟨k, lists⟩
  apply h.writes.packs
  rcases h.publishes I.synced lists with referenced | ⟨since, put⟩
  · exact I.intact p referenced
  · exact I.relied p since (relied_of_puts put)

theorem Moves.relied_exist (h : Moves s a t) (stored : a.CopiesStored s) (I : Kept s)
    {since : ℕ} (relied : t.Relied p since) : p ∈ t.packs := by
  rcases h.relied stored relied with old | ⟨-, ⟨there, -⟩ | referenced⟩
  · exact h.writes.packs (I.relied p since old)
  · exact there
  · exact h.writes.packs (I.intact p referenced)

/-- Collections only remove packs that no object lists and no writer relies on. -/
theorem Collects.keeps_needed (h : Collects grace s a t) (quiet : a.Undisturbed s) (I : Kept s)
    (there : p ∈ s.packs) (needed : s.Referenced p ∨ ∃ since, s.Relied p since) :
    p ∈ t.packs := by
  cases h with
  | @delete r q run eligible at_r at_stage mem =>
    refine Finset.mem_erase.mpr ⟨?_, there⟩
    rintro rfl
    rcases needed with referenced | ⟨since, relied⟩
    · by_cases touched : run.begun < s.touch p
      · exact quiet.2 run at_r touched referenced
      · exact I.scan.unreferenced at_r at_stage mem (not_lt.mp touched) referenced
    · exact quiet.1 since relied
  | _ => exact there

theorem Leaves.referenced (h : Leaves s t) : t.Referenced p ↔ s.Referenced p := by
  unfold State.Referenced State.Lists
  rw [h.objects]

theorem Leaves.synced (h : Leaves s t) (I : s.Synced) : t.Synced :=
  I.congr h.exports fun n p _ lists => by
    unfold State.Lists at lists ⊢
    rwa [h.objects]

theorem step_kept (I : Kept s) (stored : a.CopiesStored s) (all : a.ReadsAll s)
    (quiet : a.Undisturbed s) (h : step grace s a = some t) : Kept t := by
  have scan := step_scanInv h all I.scan
  obtain ⟨u, rfl, ⟨d, -, rfl⟩ | moved | collected⟩ := step_cases h
  · exact ⟨I.intact, I.relied, I.synced, scan⟩
  · exact ⟨moved.intact I, fun _ _ => moved.relied_exist stored I, moved.synced I.synced, scan⟩
  · have frame := collected.leaves
    refine ⟨fun p referenced => ?_, fun p since relied => ?_, frame.synced I.synced, scan⟩
    · have before := frame.referenced.mp referenced
      exact collected.keeps_needed quiet I (I.intact p before) (.inl before)
    · have before := (relied_congr frame.exports frame.jobs).mp relied
      exact collected.keeps_needed quiet I (I.relied p since before) (.inr ⟨since, before⟩)

theorem idle_kept {packs : Finset P} {objects : Finmap fun _ : Key ν => Finset P}
    {saved : GcState P} (start : (idle packs objects saved : State ν P ρ φ).Intact) :
    Kept (idle packs objects saved : State ν P ρ φ) where
  intact := start
  relied := by
    rintro p since (⟨n, e, ⟨⟩, -⟩ | ⟨j, job, ⟨⟩, -⟩)
  synced := nofun
  scan := idle_scanInv

/-- From any intact prefix and any state file, every referenced pack exists at every
    moment of every run in which no collection deletes a pack that a writer relies on
    or revived since it began. Flushes and collections always copy what is stored. -/
theorem referenced_packs_exist (packs : Finset P) (objects : Finmap fun _ : Key ν => Finset P)
    (saved : GcState P) (start : (idle packs objects saved : State ν P ρ φ).Intact)
    (run : Reach (step grace) (fun s a => a.CopiesStored s ∧ a.ReadsAll s ∧ a.Undisturbed s)
      (idle packs objects saved) s) :
    s.Intact :=
  (Reach.invariant (I := Kept) (idle_kept start)
    (fun _ _ _ I ok taken => step_kept I ok.1 ok.2.1 ok.2.2 taken) run).intact

/-- One collection that reads no manifest, up to its decision. -/
def sweepUnread (r : ℕ) (chosen : Finset ℕ) : List (Act ν ℕ ℕ ℕ) :=
  [.gcStart r false 1, .gcListManifests r, .gcListPacks r, .gcListSnapshots r, .gcDecide r chosen]

/-- The marked pack 7 is deleted, and an export then publishes a manifest that lists 8. -/
theorem swept_prefix_intact :
    ∃ s : State ℕ ℕ ℕ ℕ,
      Steps (step 5) (fun s a => a.CopiesStored s ∧ a.ReadsAll s ∧ a.Undisturbed s)
        (idle {7} ∅ fun _ => some ⟨some 0, 0⟩) (.tick 10 :: sweepUnread 0 {7} ++
          [.gcDelete 0 7 true, .openExport 3, .upload 3 8, .append 3 ∅, .putManifest 3]) s ∧
      s.objects.lookup (.live 3) = some {8} ∧ 7 ∉ s.packs ∧ s.Intact := by
  have start : (idle {7} ∅ fun _ => some ⟨some 0, 0⟩ : State ℕ ℕ ℕ ℕ).Intact := by
    rintro p ⟨k, packs, ⟨⟩, -⟩
  obtain ⟨s, run, listed, gone⟩ : ∃ s,
      Steps (step 5) (fun s a => a.CopiesStored s ∧ a.ReadsAll s ∧ a.Undisturbed s)
        (idle {7} ∅ fun _ => some ⟨some 0, 0⟩ : State ℕ ℕ ℕ ℕ)
        (.tick 10 :: sweepUnread 0 {7} ++
          [.gcDelete 0 7 true, .openExport 3, .upload 3 8, .append 3 ∅, .putManifest 3]) s ∧
      s.objects.lookup (.live 3) = some {8} ∧ 7 ∉ s.packs := by
    have free : True ∧ True ∧ True := ⟨trivial, trivial, trivial⟩
    refine ⟨_, ⟨free, _, rfl, free, _, rfl, ⟨trivial, .of_numbers _ _, trivial⟩, _, rfl,
      free, _, rfl, free, _, rfl, free, _, rfl, ⟨trivial, trivial, ?_, ?_⟩, _, rfl, free, _, rfl,
      free, _, rfl, free, _, rfl, free, _, rfl, rfl⟩, rfl, by decide⟩
    · rintro since (⟨n, e, ⟨⟩, -⟩ | ⟨j, job, ⟨⟩, -⟩)
    · rintro run - - ⟨k, packs, ⟨⟩, -⟩
  exact ⟨s, run, listed, gone, referenced_packs_exist {7} ∅ _ start (reach_steps run)⟩

instance (s : State ν P ρ φ) (a : Act ν P ρ φ) : Decidable (a.InTime grace s) :=
  inferInstanceAs (Decidable (∀ q ∈ a.puts s, s.now < q.2 + grace))

/-- A first run marks the dead pack 7; the second finds it eligible; a flush of the
    export 3 meets it in S3 just before the DELETE and publishes it just after, all
    within the grace period. -/
theorem revived_pack_collected :
    ∃ s : State ℕ ℕ ℕ ℕ,
      Reach (step 5) (fun s a => a.InTime 5 s) (idle {7} ∅ fun _ => none) s ∧
      s.objects.lookup (.live 3) = some {7} ∧ 7 ∉ s.packs ∧ ¬s.Intact := by
  obtain ⟨s, run, listed, gone⟩ : ∃ s,
      execWhile (step 5) (fun s a => a.InTime 5 s) (idle {7} ∅ fun _ => none : State ℕ ℕ ℕ ℕ)
        (sweepUnread 0 ∅ ++ [.gcFinish 0, .tick 10] ++ sweepUnread 1 {7} ++
          [.openExport 3, .upload 3 7, .gcDelete 1 7 true, .append 3 ∅, .putManifest 3]) = some s ∧
      s.objects.lookup (.live 3) = some {7} ∧ 7 ∉ s.packs :=
    ⟨_, rfl, rfl, by decide⟩
  exact ⟨s, reach_execWhile run, listed, gone, fun intact =>
    gone (intact 7 ⟨.live 3, {7}, listed, Finset.mem_singleton_self 7⟩)⟩

/-- `vm.hot-set`, a name that `validate_export_name` accepts. -/
def hotSetName : List Char := ['v', 'm', '.', 'h', 'o', 't', '-', 's', 'e', 't']

/-- The manifest of an export of that name lists the pack 7. Collections pass over it,
    and the second one deletes the pack undisturbed. -/
theorem hot_set_export_collected :
    ∃ s : State (List Char) ℕ ℕ ℕ,
      Reach (step 5) (fun s a => a.CopiesStored s ∧ a.Undisturbed s)
        (idle {7} (Finmap.singleton (.live hotSetName) {7}) fun _ => none) s ∧
      s.objects.lookup (.live hotSetName) = some {7} ∧ 7 ∉ s.packs := by
  obtain ⟨s, run, listed, gone⟩ : ∃ s : State (List Char) ℕ ℕ ℕ,
      Steps (step 5) (fun s a => a.CopiesStored s ∧ a.Undisturbed s)
        (idle {7} (Finmap.singleton (.live hotSetName) {7}) fun _ => none)
        (sweepUnread 0 ∅ ++ [.gcFinish 0, .tick 10] ++ sweepUnread 1 {7} ++
          [.gcDelete 1 7 true]) s ∧
      s.objects.lookup (.live hotSetName) = some {7} ∧ 7 ∉ s.packs := by
    have free : True ∧ True := ⟨trivial, trivial⟩
    refine ⟨_, ⟨free, _, rfl, free, _, rfl, free, _, rfl, free, _, rfl, free, _, rfl, free, _, rfl,
      free, _, rfl, free, _, rfl, free, _, rfl, free, _, rfl, free, _, rfl, free, _, rfl,
      ⟨trivial, ?_, ?_⟩, _, rfl, rfl⟩, rfl, by decide⟩
    · rintro since (⟨n, e, ⟨⟩, -⟩ | ⟨j, job, ⟨⟩, -⟩)
    · rintro run ⟨⟩ touched
      exact absurd touched (by decide)
  exact ⟨s, reach_steps run, listed, gone⟩

end GlideFS.Gc
