import GlideFS.WriteCache.DataInv

/-! # Draining an export

`drain_export` and `teardown_export` take the volume for durable when
`flush_to_s3` claims nothing and no block is counted as dirty. A pass that finds
the rotation of a dropped flush returns before it claims anything, and then both
hold while blocks are still SYNCING. Teardown also returns 0 when it gives up.
-/

namespace GlideFS.WriteCache

open Block Lib Cache

variable {Hash PackId : Type} [DecidableEq Hash] [DecidableEq PackId] {g : Geometry}
  {C : Codec (BlockData g.blockSize) Hash PackId} {s t u : Cache g C} {Q : Prop}

/-- No block is waiting to be flushed. -/
def Cache.Flushed (s : Cache g C) : Prop := s.NoDirty ∧ s.NoSyncing

def Act.IsWrite : Act → Prop
  | .write _ _ | .zeroRange _ _ => True
  | _ => False

/-- The steps of the runs considered: new packs are listed and copies back succeed. -/
def Act.Sound (s : Cache g C) (a : Act) : Prop := a.Resolvable False s ∧ a.Copies

def Act.Quiet (s : Cache g C) (a : Act) : Prop := a.Sound s ∧ ¬a.IsWrite

theorem Cache.Flushed.claims (h : s.Flushed) {bs : List Nat} (claims : s.Claims bs) : bs = [] := by
  cases bs with
  | nil => rfl
  | cons b rest =>
    obtain ⟨range, state⟩ := claims b List.mem_cons_self
    cases state with
    | inl dirty => exact absurd dirty (h.1 b range)
    | inr syncing => exact absurd syncing (h.2 b range)

/-- What a step can do when no block waits. -/
structure Rests (s t : Cache g C) : Prop where
  flushed : t.Flushed
  manifest : t.volumeManifest = s.volumeManifest
  durable : t.durable = s.durable ∨ t.durable = s.volumeManifest

theorem Cache.Flushed.rests (h : s.Flushed) (states : t.states = s.states)
    (manifest : t.volumeManifest = s.volumeManifest) (durable : t.durable = s.durable) :
    Rests s t := by
  refine ⟨?_, manifest, Or.inl durable⟩
  unfold Flushed NoDirty NoSyncing at h ⊢
  rw [states]
  exact h

theorem Cache.Flushed.put (h : s.Flushed) (outcome : PutOutcome) (states : t.states = s.states)
    (manifest : t.volumeManifest = s.volumeManifest)
    (durable : t.durable = (s.putManifest outcome).durable) : Rests s t := by
  refine ⟨(h.rests (t := { s with states := t.states }) states rfl rfl).flushed, manifest, ?_⟩
  rw [durable]
  unfold putManifest
  dsimp only
  split
  · exact Or.inl rfl
  · exact Or.inr rfl

theorem claimDirty_flushed (h : s.Flushed) : s.claimDirty = s := by
  have none : s.dirtyBlocks.blocks = [] := by
    rw [List.eq_nil_iff_forall_not_mem]
    intro b mem
    obtain ⟨range, dirty⟩ := mem_dirtyBlocks.mp mem
    exact h.1 b range dirty
  rw [claimDirty, none]
  rfl

/-- Nothing a flush or a checkpoint does brings back a waiting block. -/
theorem step_rests (inv : DataInv s) (h : s.Flushed) {a : Act} (quiet : ¬a.IsWrite)
    (taken : a.step s = some t) : Rests s t := by
  cases step_cases taken with
  | write done | zeroRange done => exact absurd trivial quiet
  | rotate at_r named =>
    have same := claimDirty_flushed (s := s.setFlags true s.sequence) h
    rw [same]
    exact h.rests rfl rfl rfl
  | compute at_r nonempty handle computed =>
    obtain ⟨_, claims, _⟩ := inv.stage _ at_r
    exact absurd (h.claims claims) nonempty
  | appendNone at_r none | append at_r =>
    obtain ⟨_, claims, _, _, nonempty, _⟩ := inv.stage _ at_r
    exact absurd (h.claims claims) nonempty
  | put at_r | publish at_r | syncPut at_r => exact h.put .ok rfl rfl rfl
  | putFails outcome at_r | publishFails outcome at_r | syncPutFails outcome at_r =>
    exact h.put outcome rfl rfl rfl
  | evict at_r =>
    obtain ⟨_, claims, _, sub, nonempty, _⟩ := inv.stage _ at_r
    exact absurd (h.claims claims) nonempty
  | @copyBack _ _ claim uncopied at_r =>
    have l := (shifts_copyBack s claim uncopied).local
    refine h.rests ?_ l.volumeManifest l.durable
    change (s.copyBack claim uncopied).states = s.states
    unfold copyBack
    split
    · rfl
    · exact (copyBack_fold _ s _).1
  | @strand _ _ claim recovered at_r =>
    obtain ⟨_, _, syncingIn, _⟩ := inv.stage _ at_r
    rw [strand_all claim.inRange syncingIn]
    exact h.rests rfl rfl rfl
  | @redirty _ _ recovered at_r =>
    obtain ⟨_, claims, _⟩ := inv.stage _ at_r
    rw [h.claims claims]
    exact h.rests rfl rfl rfl
  | removeEmpty at_r | deleteFile at_r | unlink at_r | syncDelete at_r | dropDeleting at_r waits =>
    split <;> exact h.rests rfl rfl rfl
  | dropPutting at_r waits =>
    split
    · exact h.put .applied rfl rfl rfl
    · exact h.rests rfl rfl rfl
  | _ => exact h.rests rfl rfl rfl

/-! ## What a call of `flush_to_s3` has shown -/

def FlushStats.Counted (stats : FlushStats) : Prop :=
  stats.blocksClaimed = 0 → stats.packsUploaded = 0

structure DrainInv (s : Cache g C) : Prop where
  data : DataInv s
  running : ∀ r, s.flush = some r → r.pass ≠ none → s.returned = none
  stats : ∀ r, s.flush = some r → r.stats.Counted
  /-- Nothing was left to flush, and nothing was written since. -/
  drained : ∀ stats, s.returned = some stats → stats.blocksClaimed = 0 → stats.early = false →
    s.written = false → s.Flushed ∧ s.durable = s.volumeManifest

namespace DrainInv

theorem rest (h : DrainInv s) {a : Act} (quiet : ¬a.IsWrite) (taken : a.step s = some t)
    (returned : t.returned = s.returned) (written : t.written = s.written) (stats : FlushStats)
    (at_stats : t.returned = some stats) (zero : stats.blocksClaimed = 0)
    (late : stats.early = false) (unwritten : t.written = false) :
    t.Flushed ∧ t.durable = t.volumeManifest := by
  rw [returned] at at_stats
  rw [written] at unwritten
  obtain ⟨flushed, same⟩ := h.drained stats at_stats zero late unwritten
  have rests := step_rests h.data flushed quiet taken
  refine ⟨rests.flushed, ?_⟩
  rw [rests.manifest]
  cases rests.durable with
  | inl kept => exact kept.trans same
  | inr stored => exact stored

/-- A step that goes on with the same pass, or ends it. -/
theorem next (h : DrainInv s) (data : DataInv t) {a : Act} (quiet : ¬a.IsWrite)
    (taken : a.step s = some t)
    (flush : ∀ r', t.flush = some r' → r'.stats.Counted ∧
      (r'.pass = none ∨ ∃ r, s.flush = some r ∧ r'.pass = r.pass))
    (returned : t.returned = s.returned) (written : t.written = s.written) : DrainInv t where
  data
  running r' found some := by
    rw [returned]
    cases (flush r' found).2 with
    | inl none => exact absurd none some
    | inr same =>
      obtain ⟨r, at_r, pass⟩ := same
      exact h.running r at_r (pass ▸ some)
  stats r' found := (flush r' found).1
  drained := h.rest quiet taken returned written

/-- A call of `flush_to_s3` that is not over, or has failed. -/
theorem unreturned (data : DataInv t) (returned : t.returned = none)
    (stats : ∀ r, t.flush = some r → r.stats.Counted) : DrainInv t where
  data
  running _ _ _ := returned
  stats
  drained stats found := by
    rw [returned] at found
    cases found

/-- A pass begins; only those of `flush_to_s3` forget the writes before them. -/
theorem passes (h : DrainInv s) (data : DataInv t) {a : Act} (quiet : ¬a.IsWrite)
    (taken : a.step s = some t) {r r' : FlushRun C g} (at_r : s.flush = some r)
    (at_r' : t.flush = some r') (pass : r'.pass = r.pass) (stats : r'.stats.Counted)
    (returned : t.returned = s.returned)
    (written : t.written = (s.written && r.pass.isNone)) : DrainInv t := by
  have counted : ∀ r'', t.flush = some r'' → r''.stats.Counted := by
    intro r'' found
    rw [at_r'] at found
    cases found
    exact stats
  cases whose : r.pass with
  | none =>
    refine h.next data quiet taken (fun r'' found => ⟨counted r'' found, ?_⟩) returned ?_
    · rw [at_r'] at found
      cases found
      exact Or.inl (pass.trans whose)
    · rw [written, whose]
      exact Bool.and_true _
  | some n =>
    have none := h.running r at_r (by rw [whose]; exact Option.some_ne_none n)
    exact unreturned data (returned.trans none) counted

end DrainInv

theorem DrainInv.endCkpt (h : DrainInv s) (data : DataInv t) {a : Act} (quiet : ¬a.IsWrite)
    (taken : a.step s = some t) {run : CkptRun} {ok : Bool}
    (flush : t.flush = (s.endCkpt run ok).flush) (returned : t.returned = s.returned)
    (written : t.written = s.written) : DrainInv t := by
  refine h.next data quiet taken (fun r' found => ?_) returned written
  obtain ⟨r, at_r, resumes⟩ := endCkpt_flush (flush.symm.trans found)
  have counted := h.stats r at_r
  cases resumes <;> exact ⟨counted, Or.inr ⟨_, at_r, rfl⟩⟩

theorem putBlock_drainInv (patch : Patch g)
    (s : Cache g C) (b : Nat) (h : DrainInv s) : DrainInv (putBlock patch s b) where
  data := putBlock_dataInv patch s b h.data
  running r at_r := by
    rw [(local_putBlock patch s b).returned]
    exact h.running r ((local_putBlock patch s b).flush ▸ at_r)
  stats r at_r := h.stats r ((local_putBlock patch s b).flush ▸ at_r)
  drained _ _ _ _ unwritten := by
    rw [putBlock_written] at unwritten
    cases unwritten

theorem step_drainInv (remote : RemoteInv Q s) (h : DrainInv s) {a : Act} (copies : a.Copies)
    (taken : a.step s = some t) : DrainInv t := by
  have data := step_dataInv remote h.data copies taken
  have keeps {pass : Option Nat} {stage stage' : FlushStage C g} {stats : FlushStats}
      (at_r : s.flush = some ⟨pass, stage, stats⟩) :
      ∀ r', some (FlushRun.mk pass stage' stats) = some r' → r'.stats.Counted ∧
        (r'.pass = none ∨ ∃ r, s.flush = some r ∧ r'.pass = r.pass) := by
    intro r' found
    cases found
    exact ⟨h.stats ⟨pass, stage, stats⟩ at_r, Or.inr ⟨_, at_r, rfl⟩⟩
  cases step_cases taken with
  | write done | zeroRange done => exact putRange_keeps putBlock_drainInv h done
  | ckptTruncate at_run covered | ckptKeep at_run | ckptFail at_run =>
    exact h.endCkpt data id taken rfl rfl rfl
  | ckptStart free | ckptCopy at_run more | ckptSeal at_run | ckptPublish at_run =>
    exact h.next data id taken (fun r at_r => ⟨h.stats r at_r, Or.inr ⟨r, at_r, rfl⟩⟩) rfl rfl
  | flushPacks free remaining | teardownUndrained free remaining
  | teardownDrained free remaining drained clean =>
    exact h.next data id taken (fun r' found => by
      cases found; exact ⟨fun _ => rfl, Or.inl rfl⟩) rfl rfl
  | flushToS3 free remaining =>
    exact DrainInv.unreturned data rfl fun r found => by cases found; exact fun _ => rfl
  | passStale at_r stale | passOrphan at_r inactive closed | passRotate at_r missing named =>
    have counted := h.stats _ at_r
    exact h.passes data id taken at_r rfl rfl counted rfl rfl
  | passEarly at_r active syncing =>
    exact h.passes data id taken at_r rfl rfl (fun _ => rfl) rfl rfl
  | keepOrphan at_r =>
    exact h.next data id taken (fun r' found => by
      cases found; exact ⟨fun _ => rfl, Or.inr ⟨_, at_r, rfl⟩⟩) rfl rfl
  | rotate at_r named =>
    have l := shifts_claimDirty (s.setFlags true s.sequence)
    exact h.next data id taken (keeps at_r) l.local.returned l.written
  | renameFails at_r | createFails at_r | undoFails at_r named | redirty at_r | finishFails at_r
  | publishFails outcome at_r =>
    exact DrainInv.unreturned data rfl nofun
  | @compute _ _ claim f _ _ skipped uncopied at_r nonempty handle computed =>
    have l := shifts_unskip f uncopied s (claim.blocks.filter (· ∈ skipped))
    refine h.next data id taken (fun r' found => ?_) l.local.returned l.written
    cases found
    exact ⟨fun _ => rfl, Or.inr ⟨_, at_r, rfl⟩⟩
  | upload at_r at_k =>
    obtain ⟨_, _, _, _, _, claimed⟩ := h.data.stage _ at_r
    exact h.next data id taken (fun r' found => by
      cases found; exact ⟨fun zero => absurd zero claimed, Or.inr ⟨_, at_r, rfl⟩⟩) rfl rfl
  | @evict _ _ _ plans at_r =>
    have l := shifts_evictBlocks s (flushedBlocks plans)
    exact h.next data id taken (keeps at_r) l.local.returned l.written
  | removeOrphan at_r | cleanEmpty at_r empty | appendNone at_r none | append at_r | put at_r
  | putFails outcome at_r | flushCkpt at_r free | syncCkpt at_r free | clearFlags at_r
  | dropHandle at_r | keepFile at_r | computeFails at_r | uploadFails at_r | unflag at_r
  | closeHandle at_r | finishPublish at_r | finishSync at_r uploaded | syncPut at_r =>
    exact h.next data id taken (keeps at_r) rfl rfl
  | removeEmpty at_r | deleteFile at_r | unlink at_r =>
    refine h.next data id taken (keeps at_r) ?_ ?_ <;> split <;> rfl
  | @copyBack _ _ claim uncopied at_r =>
    have l := shifts_copyBack s claim uncopied
    exact h.next data id taken (keeps at_r) l.local.returned l.written
  | @strand _ _ claim recovered at_r =>
    have l := shifts_strand recovered s claim.blocks
    exact h.next data id taken (keeps at_r) l.local.returned l.written
  | finishPacks at_r | syncPutFails outcome at_r =>
    exact h.next data id taken nofun rfl rfl
  | syncDelete at_r =>
    refine h.next data id taken nofun ?_ ?_ <;> split <;> rfl
  | finishUploaded at_r uploaded =>
    exact ⟨data, nofun, nofun,
      fun stats found zero => by
        cases found
        exact absurd (h.stats _ at_r zero) uploaded⟩
  | finishAgain at_r =>
    have none := h.running _ at_r (Option.some_ne_none _)
    exact DrainInv.unreturned data none fun r found => by cases found; exact fun _ => rfl
  | publish at_r =>
    refine ⟨data, nofun, nofun, ?_⟩
    intro stats found zero late unwritten
    cases found
    obtain ⟨_, noSyncing, idle⟩ := h.data.stage _ at_r
    exact ⟨⟨idle zero late unwritten, noSyncing (Or.inl late)⟩, rfl⟩
  | dropDeleting at_r waits | dropPutting at_r waits =>
    refine h.next data id taken (fun r' found => ?_) ?_ ?_
    · split at found <;> cases found
    · split <;> rfl
    · split <;> rfl
  | dropWaiting at_r waits => exact h.next data id taken nofun rfl rfl

theorem openCache_drainInv (d : Disk g.blockSize) (v : Volume C) :
    DrainInv (openCache d v.store v.manifest) :=
  ⟨openCache_dataInv d v, nofun, nofun, nofun⟩

/-! ## When drain and teardown return -/

/-- `drain_export` returns Ok or `teardown_export` returns 0 in state `t`. The last call of
    `flush_to_s3` was over in `s`, and nothing is written from there on. -/
inductive Drained (s t : Cache g C) : Prop
  | drain {stats : FlushStats} (returned : s.returned = some stats)
      (claimed : stats.blocksClaimed = 0) (later : Reach Act.step Act.Quiet s t)
      (clean : t.dirtyBlockCount = 0)
  | teardown {drainDone : Bool} {u : Cache g C} (taken : (Act.teardown drainDone).step s = some u)
      (zero : u.remaining = some 0) (later : Reach Act.step Act.Quiet u t) (ended : t.flush = none)

/-- The last pass rotated and found nothing, or nothing waits and S3 has the manifest. -/
def Settled (s t : Cache g C) : Prop :=
  (∃ stats, s.returned = some stats ∧ stats.blocksClaimed = 0 ∧ stats.early = false) ∨
    (s.Flushed ∧ t.durable = t.volumeManifest)

theorem Drained.quiet (h : Drained s t) : Reach Act.step Act.Quiet s t := by
  cases h with
  | drain returned claimed later clean => exact later
  | @teardown drainDone u taken zero later ended =>
    have quiet : Act.Quiet s (.teardown drainDone) := ⟨⟨trivial, trivial⟩, id⟩
    exact Reach.trans (.step .refl quiet taken) later

structure Resting (s t : Cache g C) : Prop where
  remote : RemoteInv False t
  data : DataInv t
  flushed : t.Flushed
  durable : s.durable = s.volumeManifest → t.durable = t.volumeManifest

/-- Without writes a flushed volume stays flushed. -/
theorem resting (remote : RemoteInv False s) (data : DataInv s) (flushed : s.Flushed)
    (run : Reach Act.step Act.Quiet s t) : Resting s t := by
  refine run.invariant ⟨remote, data, flushed, id⟩ fun t a u h quiet taken => ?_
  obtain ⟨⟨resolvable, copies⟩, noWrite⟩ := quiet
  have rests := step_rests h.data h.flushed noWrite taken
  refine ⟨step_remoteInv h.remote resolvable taken, step_dataInv h.remote h.data copies taken,
    rests.flushed, fun same => ?_⟩
  rw [rests.manifest]
  cases rests.durable with
  | inl kept => exact kept.trans (h.durable same)
  | inr stored => exact stored

theorem Cache.Flushed.content (h : s.Flushed) (data : DataInv s) {b : Nat} (range : g.InRange b) :
    s.content s.volumeManifest b = s.acked b := by
  have ok := data.blocks b range
  unfold BlockOk at ok
  cases at_b : s.states b with
  | dirty => exact absurd at_b (h.1 b range)
  | syncing => exact absurd at_b (h.2 b range)
  | clean | notPresent =>
    rw [at_b] at ok
    exact ok

theorem sound_inv {d : Disk g.blockSize} {v : Volume C}
    (run : Reach Act.step Act.Sound (openCache d v.store v.manifest) s) :
    RemoteInv False s ∧ DrainInv s := by
  refine run.invariant (I := fun s => RemoteInv False s ∧ DrainInv s)
    ⟨openCache_remoteInv d v, openCache_drainInv d v⟩ fun t a u held sound taken => ?_
  exact ⟨step_remoteInv held.1 sound.1 taken, step_drainInv held.1 held.2 sound.2 taken⟩

/-- When drain or teardown reports success and is settled, S3 has what the guest last wrote. -/
theorem Drained.content (remote : RemoteInv False s) (drain : DrainInv s) (returns : Drained s t)
    (unwritten : s.written = false) (settled : Settled s t) {b : Nat} (range : g.InRange b) :
    t.content t.durable b = t.acked b := by
  cases settled with
  | inl passed =>
    obtain ⟨stats, returned, zero, late⟩ := passed
    obtain ⟨flushed, same⟩ := drain.drained stats returned zero late unwritten
    have rest := resting remote drain.data flushed returns.quiet
    rw [rest.durable same]
    exact rest.flushed.content rest.data range
  | inr idle =>
    have rest := resting remote drain.data idle.1 returns.quiet
    rw [idle.2]
    exact rest.flushed.content rest.data range

/-- In every run of sound steps, with flushes that failed or were dropped at any await: when
    drain or teardown reports success and is settled, S3 has what the guest last wrote. -/
theorem drained_durable (d : Disk g.blockSize) (v : Volume C) (s t : Cache g C)
    (run : Reach Act.step Act.Sound (openCache d v.store v.manifest) s) (returns : Drained s t)
    (unwritten : s.written = false) (settled : Settled s t) (b : Nat) (range : g.InRange b) :
    t.content t.durable b = t.acked b := by
  obtain ⟨remote, drain⟩ := sound_inv run
  exact Drained.content remote drain returns unwritten settled range

/-- A flush from its first step to its end, and a pass that finds nothing. -/
def flushAndDrain : List Act :=
  [.upload 0, .append, .put .ok, .evict, .flushCkpt, .ckptCopy, .ckptSeal, .ckptPublish,
    .ckptTruncate, .clearFlags, .dropHandle, .deleteFile true, .finish false,
    .flushToS3, .pass, .rotate .ok, .cleanEmpty, .removeEmpty true, .finish false, .publish .ok]

private theorem flushAndDrain_returns :
    (exec Act.step newCache (writeAndRotate ++ .compute 3 [] [] :: flushAndDrain)).map
      (fun s => (s.returned.map fun st => (st.blocksClaimed, st.early), s.dirtyBlockCount,
        s.written, decide (s.acked 0 = 0))) = some (some (0, false), 0, false, false) := by
  decide +kernel

/-- A drain after one write: S3 has the written bytes when it returns. -/
theorem write_drained_durable :
    ∃ s : Cache oneBlockDevice (.plain 16), Drained s s ∧ s.written = false ∧
      s.acked 0 ≠ 0 ∧ s.content s.durable 0 = s.acked 0 := by
  obtain ⟨s, run, result⟩ := Option.map_eq_some_iff.mp flushAndDrain_returns
  simp only [Prod.mk.injEq, decide_eq_false_iff_not] at result
  obtain ⟨returned, clean, unwritten, nonzero⟩ := result
  obtain ⟨stats, at_stats, zero⟩ := Option.map_eq_some_iff.mp returned
  obtain ⟨zero, late⟩ := Prod.mk.inj zero
  obtain ⟨u, rotated, resolvable⟩ := first_flush_resolvable False
  rw [exec_append, rotated, Option.bind_some] at run
  obtain ⟨w, computed, rest⟩ := Option.bind_eq_some_iff.mp run
  have reached : Reach Act.step Act.Sound newCache s := by
    refine Reach.trans (reach_exec_of rotated ?_) (Reach.trans
      (.step .refl ⟨resolvable, rfl⟩ computed) (reach_exec_of rest ?_))
    · simp [writeAndRotate, Act.Sound, Act.Resolvable, Act.Copies]
    · simp [flushAndDrain, Act.Sound, Act.Resolvable, Act.Copies]
  have drained : Drained s s := .drain at_stats zero .refl clean
  refine ⟨s, drained, unwritten, nonzero, ?_⟩
  exact drained_durable .new .new s s reached drained unwritten
    (Or.inl ⟨stats, at_stats, zero, late⟩) 0 (by decide)

private theorem dropped_flush_drains :
    (exec Act.step newCache (writeAndRotate ++
      [.dropFlush false, .flushToS3, .pass, .finish false, .publish .ok])).map
        (fun s => (s.returned.map (·.blocksClaimed), s.dirtyBlockCount, s.written,
          decide (s.content s.durable 0 = s.acked 0))) = some (some 0, 0, false, false) := by
  decide +kernel

/-- A flush is dropped after its rotation. The drain that follows returns before it claims
    anything, and the block it leaves SYNCING is not in S3. -/
theorem dropped_flush_undrained :
    ∃ s : Cache oneBlockDevice (.plain 16), Reach Act.step Act.Sound newCache s ∧ Drained s s ∧
      s.written = false ∧ s.content s.durable 0 ≠ s.acked 0 := by
  obtain ⟨s, run, result⟩ := Option.map_eq_some_iff.mp dropped_flush_drains
  simp only [Prod.mk.injEq, decide_eq_false_iff_not] at result
  obtain ⟨returned, clean, unwritten, lost⟩ := result
  obtain ⟨stats, at_stats, zero⟩ := Option.map_eq_some_iff.mp returned
  refine ⟨s, reach_exec_of run ?_, .drain at_stats zero .refl clean, unwritten, lost⟩
  simp [writeAndRotate, Act.Sound, Act.Resolvable, Act.Copies]

end GlideFS.WriteCache
