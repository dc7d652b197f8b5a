import GlideFS.Gc.Scan

/-! # Packs a writer relies on

Between the upload of a pack and the PUT of a manifest that lists it, only the
writer knows of it; the same holds between the moment a fork or promote reads a
manifest and the PUT of the copy. Such packs are relied on without being
referenced, which is what the grace period is for.
-/

namespace GlideFS.Gc

open GlideFS.Lib

variable {ν P ρ φ : Type} [DecidableEq ν] [ManifestName ν] [DecidableEq P] [DecidableEq ρ]
  [DecidableEq φ]
variable {grace : ℕ} {s t : State ν P ρ φ} {a : Act ν P ρ φ} {k : Key ν} {p : P} {since : ℕ}

namespace State

/-- A flush, bless, promote or fork under way relies on `p` from the time `since`. -/
def Relied (s : State ν P ρ φ) (p : P) (since : ℕ) : Prop :=
  (∃ n e, s.exports n = some e ∧ ((p, since) ∈ e.staged ∨ (p, since) ∈ e.unsynced)) ∨
    ∃ j job, s.jobs j = some job ∧ (p, since) ∈ job.packs

/-- What an export's in-memory manifest lists is stored under its name or still to
    be synced. -/
def Synced (s : State ν P ρ φ) : Prop :=
  ∀ n e, s.exports n = some e → ∀ p ∈ e.packs, s.Lists (.live n) p ∨ p ∈ ids e.unsynced

/-- Every pack referenced by a manifest or snapshot manifest in S3 exists in S3. -/
def Intact (s : State ν P ρ φ) : Prop := ∀ p, s.Referenced p → p ∈ s.packs

end State

namespace Act

/-- The dated packs a PUT is the first to list. -/
def puts (s : State ν P ρ φ) : Act ν P ρ φ → Finset (P × ℕ)
  | .putManifest n | .putSnapshot n _ =>
      match s.exports n with
      | some e => e.unsynced
      | none => ∅
  | .putJob j =>
      match s.jobs j with
      | some job => job.packs
      | none => ∅
  | _ => ∅

/-- A PUT comes less than the grace period after the uploads, or the copy, it rests on. -/
def InTime (grace : ℕ) (s : State ν P ρ φ) (a : Act ν P ρ φ) : Prop :=
  ∀ q ∈ a.puts s, s.now < q.2 + grace

/-- A fork starts from a manifest whose packs are all referenced in S3 then. Only a
    base or snapshot taken from the manifest cache can fail this. -/
def CopiesStored (s : State ν P ρ φ) : Act ν P ρ φ → Prop
  | .fork _ source _ => ∀ packs, s.forkSource source = some packs → ∀ p ∈ packs, s.Referenced p
  | _ => True

end Act

theorem relied_of_puts (h : (p, since) ∈ a.puts s) : s.Relied p since := by
  cases a with
  | putManifest n | putSnapshot n =>
    simp only [Act.puts] at h
    split at h
    · exact .inl ⟨_, _, ‹_›, .inr h⟩
    · exact absurd h (Finset.notMem_empty _)
  | putJob j =>
    simp only [Act.puts] at h
    split at h
    · exact .inr ⟨_, _, ‹_›, h⟩
    · exact absurd h (Finset.notMem_empty _)
  | _ => exact absurd h (Finset.notMem_empty _)

/-! ## References after a PUT or DELETE -/

theorem publish_lists_self {packs : Finset P} (mem : p ∈ packs) :
    (s.publish k packs).Lists k p :=
  ⟨packs, Finmap.lookup_insert _, mem⟩

theorem mem_of_publish_lists {packs : Finset P} (h : (s.publish k packs).Lists k p) :
    p ∈ packs := by
  obtain ⟨listed, stored, mem⟩ := h
  cases (Finmap.lookup_insert _).symm.trans stored
  exact mem

theorem publish_lists_other {packs : Finset P} {k' : Key ν} (other : k' ≠ k) :
    (s.publish k packs).Lists k' p ↔ s.Lists k' p := by
  unfold State.Lists
  rw [show (s.publish k packs).objects.lookup k' = s.objects.lookup k' from
    Finmap.lookup_insert_of_ne _ other]

theorem unpublish_lists_other {k' : Key ν} (other : k' ≠ k) :
    (s.unpublish k).Lists k' p ↔ s.Lists k' p := by
  unfold State.Lists
  rw [show (s.unpublish k).objects.lookup k' = s.objects.lookup k' from
    Finmap.lookup_erase_ne other]

theorem lists_of_mem_getD (h : p ∈ (s.objects.lookup k).getD ∅) : s.Lists k p := by
  cases stored : s.objects.lookup k with
  | none => simp [stored] at h
  | some packs => exact ⟨packs, stored, by simpa [stored] using h⟩

@[simp] theorem fillCache_exports (s : State ν P ρ φ) (k : Key ν) (packs : Finset P) :
    (s.fillCache k packs).exports = s.exports := by
  unfold State.fillCache
  split <;> rfl

@[simp] theorem fillCache_jobs (s : State ν P ρ φ) (k : Key ν) (packs : Finset P) :
    (s.fillCache k packs).jobs = s.jobs := by
  unfold State.fillCache
  split <;> rfl

@[simp] theorem fillCache_objects (s : State ν P ρ φ) (k : Key ν) (packs : Finset P) :
    (s.fillCache k packs).objects = s.objects := by
  unfold State.fillCache
  split <;> rfl

theorem cacheSource_frame (s : State ν P ρ φ) (k : Key ν) (packs : Finset P) :
    (s.cacheSource k packs).exports = s.exports ∧ (s.cacheSource k packs).jobs = s.jobs ∧
      (s.cacheSource k packs).objects = s.objects := by
  cases k with
  | live n => exact ⟨rfl, rfl, rfl⟩
  | base b => exact ⟨fillCache_exports .., fillCache_jobs .., fillCache_objects ..⟩
  | snapshot n seq => exact ⟨fillCache_exports .., fillCache_jobs .., fillCache_objects ..⟩

/-! ## In-memory manifests stay backed by S3 -/

/-- `Synced` reads the exports and the live manifests only. -/
theorem State.Synced.congr (I : s.Synced) (exports : t.exports = s.exports)
    (lists : ∀ n p, (s.exports n).isSome → s.Lists (.live n) p → t.Lists (.live n) p) :
    t.Synced := by
  intro n e at_n p mem
  rw [exports] at at_n
  exact (I n e at_n p mem).imp_left (lists n p (at_n ▸ rfl))

/-- An export may be replaced by one whose manifest is backed. -/
theorem State.Synced.setExport (I : s.Synced) {n : ν} {x : Option (Export P)}
    (backed : ∀ e, x = some e → ∀ p ∈ e.packs, s.Lists (.live n) p ∨ p ∈ ids e.unsynced) :
    (s.setExport n x).Synced := by
  intro n' e' now p mem
  rcases update_eq_some now with ⟨rfl, new⟩ | ⟨-, old⟩
  · exact backed e' new p mem
  · exact I n' e' old p mem

/-- Publishing an export's own manifest keeps the others backed. -/
theorem State.Synced.publishLive (I : s.Synced) (n : ν) (e : Export P) :
    ((s.publish (.live n) e.packs).setExport n (some e)).Synced := by
  intro n' e' now p mem
  rcases update_eq_some now with ⟨rfl, ⟨⟩⟩ | ⟨other, old⟩
  · exact .inl (publish_lists_self mem)
  · refine (I n' e' old p mem).imp_left ?_
    exact (publish_lists_other fun h => other (Key.live.inj h)).mpr

theorem Moves.synced (h : Moves s a t) (I : s.Synced) : t.Synced := by
  cases h with
  | openExport =>
    refine I.setExport ?_
    rintro _ ⟨⟩ p mem
    exact .inl (lists_of_mem_getD mem)
  | closeExport => exact I.setExport nofun
  | @upload n p e at_n =>
    refine State.Synced.setExport (I.congr rfl fun _ _ _ => id) ?_
    rintro _ ⟨⟩
    exact I n e at_n
  | @failFlush n e at_n =>
    refine I.setExport ?_
    rintro _ ⟨⟩
    exact I n e at_n
  | @append n dropped e at_n =>
    refine I.setExport ?_
    rintro _ ⟨⟩ p mem
    rcases Finset.mem_union.mp mem with kept | staged
    · obtain ⟨old, stays⟩ := Finset.mem_sdiff.mp kept
      refine (I n e at_n p old).imp_right fun waiting => ?_
      obtain ⟨since, waiting⟩ := mem_ids.mp waiting
      exact mem_ids.mpr ⟨since,
        Finset.mem_union_left _ (Finset.mem_filter.mpr ⟨waiting, stays⟩)⟩
    · obtain ⟨since, staged⟩ := mem_ids.mp staged
      exact .inr (mem_ids.mpr ⟨since, Finset.mem_union_right _ staged⟩)
  | @putManifest n e at_n => exact I.publishLive n { e with unsynced := ∅ }
  | @putSnapshot m seq e =>
    refine I.congr (fillCache_exports ..) fun n p _ lists => ?_
    have kept : (s.publish (.snapshot m seq) e.packs).Lists (.live n) p :=
      (publish_lists_other (by nofun)).mpr lists
    unfold State.Lists at kept ⊢
    rwa [fillCache_objects]
  | deleteSnapshot =>
    exact I.congr rfl fun n p _ => (unpublish_lists_other (by nofun)).mpr
  | @deleteManifest n closed =>
    refine I.congr rfl fun n' p attached => (unpublish_lists_other ?_).mpr
    rintro ⟨⟩
    rw [closed] at attached
    cases attached
  | bless | promote | abandon | evict => exact I.congr rfl fun _ _ _ => id
  | blessUpload => exact I.congr rfl fun _ _ _ => id
  | @fork j source n packs =>
    obtain ⟨exports, -, objects⟩ := cacheSource_frame s source packs
    refine I.congr exports fun n p _ lists => ?_
    unfold State.Lists at lists ⊢
    exact objects ▸ lists
  | @putFork j job n at_j target closed =>
    have I' : (s.setJob j none).Synced := I.congr rfl fun _ _ _ => id
    exact I'.publishLive n ⟨ids job.packs, ∅, ∅⟩
  | @putBase j job at_j target =>
    exact I.congr rfl fun n p _ => (publish_lists_other (target n).symm).mpr
  | prewarm =>
    refine I.congr (fillCache_exports ..) fun n p _ lists => ?_
    unfold State.Lists at lists ⊢
    rwa [fillCache_objects]

/-! ## New references and new reliance -/

/-- A PUT lists what was referenced before or what its writer relied on. -/
theorem Moves.publishes (h : Moves s a t) (I : s.Synced) (lists : t.Lists k p) :
    s.Referenced p ∨ ∃ since, (p, since) ∈ a.puts s := by
  have backed : ∀ {n e} {k' : Key ν}, s.exports n = some e →
      (s.publish k' e.packs).Lists k p → s.Referenced p ∨ p ∈ ids e.unsynced := by
    intro n e k' at_n lists
    by_cases same : k = k'
    · subst same
      exact (I n e at_n p (mem_of_publish_lists lists)).imp_left fun old => ⟨_, old⟩
    · exact .inl ⟨k, (publish_lists_other same).mp lists⟩
  have copied : ∀ {job : Job ν P} {k' : Key ν},
      (s.publish k' (ids job.packs)).Lists k p → s.Referenced p ∨ p ∈ ids job.packs := by
    intro job k' lists
    by_cases same : k = k'
    · subst same
      exact .inr (mem_of_publish_lists lists)
    · exact .inl ⟨k, (publish_lists_other same).mp lists⟩
  cases h with
  | @putManifest n e at_n =>
    refine (backed at_n lists).imp_right fun waiting => ?_
    simpa only [Act.puts, at_n] using mem_ids.mp waiting
  | @putSnapshot m seq e at_n =>
    have lists' : (s.publish (.snapshot m seq) e.packs).Lists k p := by
      unfold State.Lists at lists ⊢
      rwa [fillCache_objects] at lists
    refine (backed at_n lists').imp_right fun waiting => ?_
    simpa only [Act.puts, at_n] using mem_ids.mp waiting
  | @putFork j job n at_j target closed =>
    refine (copied lists).imp_right fun waiting => ?_
    simpa only [Act.puts, at_j] using mem_ids.mp waiting
  | @putBase j job at_j target =>
    refine (copied lists).imp_right fun waiting => ?_
    simpa only [Act.puts, at_j] using mem_ids.mp waiting
  | deleteSnapshot | deleteManifest => exact .inl ⟨k, lists_of_unpublish lists⟩
  | @fork j source n packs =>
    obtain ⟨-, -, objects⟩ := cacheSource_frame s source packs
    unfold State.Lists at lists
    exact .inl ⟨k, by simpa only [State.Lists, State.setJob, objects] using lists⟩
  | prewarm =>
    unfold State.Lists at lists
    rw [fillCache_objects] at lists
    exact .inl ⟨k, lists⟩
  | _ => exact .inl ⟨k, lists⟩

/-- Reliance that comes from an export after the step and not from before it. -/
theorem relied_setExport {n : ν} {e : Option (Export P)}
    (h : (s.setExport n e).Relied p since) :
    s.Relied p since ∨ ∃ e', e = some e' ∧ ((p, since) ∈ e'.staged ∨ (p, since) ∈ e'.unsynced) := by
  rcases h with ⟨n', e', now, mem⟩ | from_job
  · rcases update_eq_some now with ⟨-, new⟩ | ⟨-, old⟩
    · exact .inr ⟨e', new, mem⟩
    · exact .inl (.inl ⟨n', e', old, mem⟩)
  · exact .inl (.inr from_job)

theorem relied_setJob {j : φ} {job : Option (Job ν P)} (h : (s.setJob j job).Relied p since) :
    s.Relied p since ∨ ∃ job', job = some job' ∧ (p, since) ∈ job'.packs := by
  rcases h with from_export | ⟨j', job', now, mem⟩
  · exact .inl (.inl from_export)
  · rcases update_eq_some now with ⟨-, new⟩ | ⟨-, old⟩
    · exact .inr ⟨job', new, mem⟩
    · exact .inl (.inr ⟨j', job', old, mem⟩)

theorem relied_congr (exports : t.exports = s.exports) (jobs : t.jobs = s.jobs) :
    t.Relied p since ↔ s.Relied p since := by
  unfold State.Relied
  rw [exports, jobs]

/-- New reliance starts now, with an upload or with a copy of what is referenced. -/
theorem Moves.relied (h : Moves s a t) (stored : a.CopiesStored s) (relied : t.Relied p since) :
    s.Relied p since ∨ since = s.now ∧
      (p ∈ t.packs ∧ t.touch p = s.serial + 1 ∨ s.Referenced p) := by
  cases h with
  | closeExport =>
    rcases relied_setExport relied with old | ⟨e', ⟨⟩, -⟩
    exact .inl old
  | openExport =>
    rcases relied_setExport relied with old | ⟨e', ⟨⟩, mem⟩
    · exact .inl old
    · exact mem.elim (absurd · (Finset.notMem_empty _)) (absurd · (Finset.notMem_empty _))
  | @upload n q e at_n fresh =>
    rcases relied_setExport relied with old | ⟨e', ⟨⟩, mem⟩
    · exact .inl old
    · rcases mem with staged | unsynced
      · rcases Finset.mem_insert.mp staged with new | staged
        · obtain ⟨rfl, rfl⟩ := Prod.mk.inj new
          exact .inr ⟨rfl, .inl (s.storePack_self _)⟩
        · exact .inl (.inl ⟨n, e, at_n, .inl staged⟩)
      · exact .inl (.inl ⟨n, e, at_n, .inr unsynced⟩)
  | @failFlush n e at_n =>
    rcases relied_setExport relied with old | ⟨e', ⟨⟩, mem⟩
    · exact .inl old
    · exact .inl (.inl ⟨n, e, at_n, .inr (mem.resolve_left (Finset.notMem_empty _))⟩)
  | @append n dropped e at_n =>
    rcases relied_setExport relied with old | ⟨e', ⟨⟩, mem⟩
    · exact .inl old
    · rcases Finset.mem_union.mp (mem.resolve_left (Finset.notMem_empty _)) with kept | staged
      · exact .inl (.inl ⟨n, e, at_n, .inr (Finset.mem_filter.mp kept).1⟩)
      · exact .inl (.inl ⟨n, e, at_n, .inl staged⟩)
  | @putManifest n e at_n =>
    rcases relied_setExport relied with old | ⟨e', ⟨⟩, mem⟩
    · exact .inl ((relied_congr rfl rfl).mp old)
    · exact .inl (.inl ⟨n, e, at_n, .inl (mem.resolve_right (Finset.notMem_empty _))⟩)
  | putSnapshot =>
    have published := (relied_congr (fillCache_exports ..) (fillCache_jobs ..)).mp relied
    exact .inl ((relied_congr rfl rfl).mp published)
  | prewarm =>
    exact .inl ((relied_congr (fillCache_exports ..) (fillCache_jobs ..)).mp relied)
  | deleteSnapshot | deleteManifest | evict => exact .inl ((relied_congr rfl rfl).mp relied)
  | abandon =>
    rcases relied_setJob relied with old | ⟨job', ⟨⟩, -⟩
    exact .inl old
  | bless =>
    rcases relied_setJob relied with old | ⟨job', ⟨⟩, mem⟩
    · exact .inl old
    · exact absurd mem (Finset.notMem_empty _)
  | @blessUpload j q job at_j kind =>
    rcases relied_setJob relied with old | ⟨job', ⟨⟩, mem⟩
    · exact .inl old
    · rcases Finset.mem_insert.mp mem with new | mem
      · obtain ⟨rfl, rfl⟩ := Prod.mk.inj new
        exact .inr ⟨rfl, .inl (s.storePack_self _)⟩
      · exact .inl (.inr ⟨j, job, at_j, mem⟩)
  | @promote j n seq b packs idle found =>
    rcases relied_setJob relied with old | ⟨job', ⟨⟩, mem⟩
    · exact .inl old
    · obtain ⟨mem, now⟩ := mem_datedAt.mp mem
      exact .inr ⟨now, .inr ⟨_, packs, found, mem⟩⟩
  | @fork j source n packs idle closed found =>
    rcases relied_setJob relied with old | ⟨job', ⟨⟩, mem⟩
    · obtain ⟨exports, jobs, -⟩ := cacheSource_frame s source packs
      exact .inl ((relied_congr exports jobs).mp old)
    · obtain ⟨mem, now⟩ := mem_datedAt.mp mem
      exact .inr ⟨now, .inr (stored packs found p mem)⟩
  | @putFork j job n at_j target closed =>
    rcases relied_setExport relied with old | ⟨e', ⟨⟩, mem⟩
    · rcases relied_setJob old with old | ⟨job', ⟨⟩, -⟩
      exact .inl ((relied_congr rfl rfl).mp old)
    · exact mem.elim (absurd · (Finset.notMem_empty _)) (absurd · (Finset.notMem_empty _))
  | putBase =>
    rcases relied_setJob relied with old | ⟨job', ⟨⟩, -⟩
    exact .inl ((relied_congr rfl rfl).mp old)

end GlideFS.Gc
