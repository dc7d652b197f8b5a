import GlideFS.Handoff.Protocol
import GlideFS.WriteCache.PassiveOpen

/-! # The cache of an export over a handoff

From the phase Warming on the predecessor starts no background flush and its
checkpoints only save the states, so that the log stays whole for the successor, which
opens the files some time later. Flushes that were running go on, and those of drains
and snapshots still start. The phase Freezing does not keep the guest from writing; its
requests are taken until the predecessor is gone, which it may be in any state. What the
successor then makes of the files is `Passive.takeover`.
-/

namespace GlideFS.Handoff.Takeover

open Block Lib WriteCache WriteCache.Cache

variable {Hash PackId : Type} [DecidableEq Hash] [DecidableEq PackId] {g : Geometry}
  {C : Codec (BlockData g.blockSize) Hash PackId}

/-- The predecessor's cache and, once it is open, the successor's. -/
structure State (g : Geometry) (C : Codec (BlockData g.blockSize) Hash PackId) where
  cache : Cache g C
  phase : HandoffPhase
  successor : Option (Passive g)

inductive Act where
  | pred (a : HostAct)
  /-- `set_all_caches_phase(Warming)` -/
  | warm
  /-- The successor's `WriteCache::open`. -/
  | openPassive
  /-- `freeze_all` -/
  | freeze
  /-- The handoff is given up and the successor is gone. -/
  | abort

/-- A step of a cache whose handoff phase is active. -/
def phaseStep (s : Cache g C) : HostAct → Option (Cache g C)
  | .inner .flushPacks => none
  | .inner .ckptTruncate => s.ckpt.bind fun run =>
      match run.stage with
      | .published => some (s.endCkpt run true)
      | _ => none
  -- a checkpoint does not count the ones that kept the log, and never holds the log
  | a => (a.step { s with ckptSkips := 0 }).map fun t => { t with ckptSkips := s.ckptSkips }

/-- The successor's handle goes with the file. -/
def carried (s : Cache g C) (o : Passive g) : HostAct → Passive g
  | .inner (.rotate .ok) => o.rotated s.active
  | _ => o

def step (s : State g C) : Act → Option (State g C)
  | .pred a =>
      match s.phase with
      | .idle => (a.step s.cache).map fun t => { s with cache := t }
      | _ => (phaseStep s.cache a).map fun t =>
          { s with cache := t, successor := s.successor.map (carried s.cache · a) }
  -- the phase is set under the lock of checkpoints
  | .warm => if s.phase = .idle ∧ s.cache.ckpt = none then some { s with phase := .warming } else none
  | .openPassive =>
      if s.phase = .warming ∧ s.successor = none then
        some { s with successor := some s.cache.passiveOpen }
      else none
  | .freeze =>
      if s.phase = .warming ∧ s.cache.ckpt = none then some { s with phase := .freezing } else none
  | .abort => some ⟨s.cache, .idle, none⟩

/-- A step of the predecessor that leaves every block where the successor will look for it: no
    write after a rotation the successor's handle went through, none without a number to a block
    the successor takes as SYNCING; such blocks are in the file a rotation renames, and no longer
    in the cache when the flushing file is removed. -/
def Shared (s : Cache g C) (o : Passive g) : HostAct → Prop
  | .inner a =>
      (a = .rotate .ok →
        ∀ b, g.InRange b → o.after s.wal b = .syncing → s.active.cur b = s.acked b) ∧
      (a.Removes s → ∀ b, g.InRange b → o.after s.wal b = .syncing → ¬s.Present b)
  | a => (a.range g).2 ≠ 0 → o.handle = none ∧ ∀ b ∈ a.blocks g, o.after s.wal b = .syncing →
      (s.claimed (a.claims g)).TakesNumber b

/-- The steps of the runs considered. -/
def Act.Careful (s : State g C) : Act → Prop
  | .pred a => a.Tracked s.cache ∧ ∀ o, s.successor = some o → Shared s.cache o a
  | .openPassive => s.cache.Shareable
  | _ => True

/-! ## Every run -/

structure Inv (s : State g C) : Prop where
  tenure : TenureInv s.cache
  tracks : ∀ o, s.successor = some o → o.Tracks s.cache
  active : s.successor ≠ none → s.phase ≠ .idle

theorem TenureInv.skips {s : Cache g C} (h : TenureInv s) (n : Nat) :
    TenureInv { s with ckptSkips := n } :=
  ⟨h.remote.quiet rfl h.remote.stage, ⟨h.data.blocks, h.data.idle, h.data.stage⟩,
    h.inS3, ⟨h.running.named, h.running.remaining⟩,
    h.files.imp (·.same rfl rfl rfl fun _ _ now => now) (·.same rfl rfl rfl fun _ _ now => now)⟩

/-- A checkpoint that has saved the states and leaves the log alone. -/
theorem TenureInv.saved {s : Cache g C} (h : TenureInv s) {run : CkptRun}
    (at_run : s.ckpt = some run) : TenureInv (s.endCkpt run true) :=
  ⟨h.remote.endCkpt run true, h.data.endCkpt run true, h.inS3,
    ⟨h.running.named, h.running.remaining⟩,
    h.files.imp (·.logStep (.ended at_run true)) (·.logStep (.ended at_run true))⟩

variable {s t : Cache g C} {a : HostAct} {o : Passive g}

/-- What a step in an active phase does. -/
inductive PhaseStep (s : Cache g C) : HostAct → Cache g C → Prop
  | saved {run : CkptRun} (at_run : s.ckpt = some run) :
      PhaseStep s (.inner .ckptTruncate) (s.endCkpt run true)
  | taken {a : HostAct} {u : Cache g C} (kept : a ≠ .inner .ckptTruncate)
      (stepped : a.step { s with ckptSkips := 0 } = some u) :
      PhaseStep s a { u with ckptSkips := s.ckptSkips }

theorem phase_cases (taken : phaseStep s a = some t) : PhaseStep s a t := by
  unfold phaseStep at taken
  split at taken
  · cases taken
  · obtain ⟨run, at_run, done⟩ := Option.bind_eq_some_iff.mp taken
    split at done
    · cases done
      exact .saved at_run
    · cases done
  · rename_i other
    obtain ⟨u, stepped, rfl⟩ := Option.map_eq_some_iff.mp taken
    exact .taken other stepped

theorem tracked_skips (ok : a.Tracked s) (n : Nat) : a.Tracked { s with ckptSkips := n } := by
  obtain ⟨recoverable, counted⟩ := ok
  refine ⟨?_, counted⟩
  have same (u : Cache g C) {bs : List Nat} (h : u.Loggable bs) :
      { u with ckptSkips := n }.Loggable bs := ⟨h.unpromoted, h.numbers⟩
  have put := fun some => same (s.claimed (a.claims g)) (recoverable.loggable some)
  cases a with
  | inner a =>
    refine ⟨recoverable.resolvable, recoverable.copies, ?_, recoverable.cycle⟩
    have logged := recoverable.logged
    cases a with
    | write offset data | zeroRange offset len => exact fun nonempty => same s (logged nonempty)
    | _ => trivial
  | _ => exact put

theorem Shared.numbered (shared : Shared s o a) (some : (a.range g).2 ≠ 0) : o.handle = none ∧
    ∀ b ∈ a.blocks g, o.after s.wal b = .syncing → (s.claimed (a.claims g)).TakesNumber b := by
  cases a with
  | inner a => exact absurd rfl some
  | _ => exact shared some

theorem shared_skips (shared : Shared s o a) (n : Nat) : Shared { s with ckptSkips := n } o a := by
  have same (u : Cache g C) {b : Nat} (takes : u.TakesNumber b) :
      { u with ckptSkips := n }.TakesNumber b := by
    refine ⟨fun dirty => takes.1 ?_, takes.2⟩
    unfold promoteBlock at dirty ⊢
    cases file : u.flushingFile with
    | none => simpa only [file] using dirty
    | some f =>
      simp only [file] at dirty ⊢
      cases at_b : u.states b <;> simp only [at_b] at dirty ⊢
      case notPresent =>
        split at dirty <;> simp_all [transitionToDirty_states]
      all_goals simp_all [transitionToDirty_states]
  have put := fun some => (shared.numbered some).imp_right fun numbered b mem state =>
    same (s.claimed (a.claims g)) (numbered b mem state)
  cases a with
  | inner a => exact shared
  | _ => exact put

theorem tracks_skips (h : o.Tracks s) (n : Nat) : o.Tracks { s with ckptSkips := n } :=
  h.frame rfl rfl (fun _ _ now => now) (fun _ _ cur => cur) (Or.inl rfl)

theorem phase_tenureInv (h : TenureInv s) (ok : a.Tracked s) (taken : phaseStep s a = some t) :
    TenureInv t := by
  cases phase_cases taken with
  | saved at_run => exact TenureInv.saved h at_run
  | taken kept stepped =>
    have next := host_tenureInv (TenureInv.skips h 0) (tracked_skips ok 0) stepped
    exact TenureInv.skips next _

/-- The writes of the runs considered. -/
theorem put_tracks (data : DataInv s) (h : o.Tracks s) {patch : Patch g} {offset len : Nat}
    (ok : len ≠ 0 → s.Loggable (blocksIn g offset len))
    (shared : len ≠ 0 → o.handle = none ∧
      ∀ b ∈ blocksIn g offset len, o.after s.wal b = .syncing → s.TakesNumber b)
    (done : s.putRange patch offset len = some t) : o.Tracks t := by
  rcases putRange_some done with ⟨_, rfl⟩ | ⟨nonempty, rfl, _⟩
  · exact h
  · obtain ⟨live, numbered⟩ := shared nonempty
    exact Passive.Tracks.putBlocks patch live (blocksIn_nodup g offset len) s h data (ok nonempty)
      fun b mem state => (numbered b mem state).1

theorem host_tracks (tenure : TenureInv s) (h : o.Tracks s) (ok : a.Tracked s)
    (shared : Shared s o a) (kept : a ≠ .inner .ckptTruncate) (taken : a.step s = some t) :
    (carried s o a).Tracks t := by
  obtain ⟨recoverable, _⟩ := ok
  cases host_cases taken with
  | put how done outer =>
    have claims := Recast.claimed s (a.claims g)
    have tracks : o.Tracks (s.claimed (a.claims g)) :=
      h.frame rfl rfl (fun b _ => (claims.present b).mp) (fun _ _ cur => cur) (Or.inl rfl)
    have next := put_tracks (claims.dataInv tenure.data) tracks recoverable.loggable
      shared.numbered done
    cases a with
    | inner a => exact absurd rfl (outer a)
    | _ => exact next
  | recast which same =>
    rcases which with rfl | rfl <;>
      exact h.frame rfl rfl (fun b _ => (same.present b).mp) (fun _ _ cur => cur) (Or.inl rfl)
  | syncActive | syncWal =>
    refine h.frame rfl rfl (fun _ _ now => now) (fun b _ cur => ?_) (Or.inl rfl)
    cases handle : o.handle <;> rw [handle] at cur <;> exact cur
  | @inner a _ quiet taken =>
    by_cases rotates : a = .rotate .ok
    · subst rotates
      exact h.rotate tenure.data (shared.1 rfl) taken
    · have same : carried s o (.inner a) = o := by
        unfold carried
        split
        · rename_i rotated
          cases rotated
          exact absurd rfl rotates
        · rfl
      rw [same]
      exact h.inner tenure.data recoverable.copies quiet (fun same => kept (same ▸ rfl)) rotates
        shared.2 taken

theorem phase_tracks (tenure : TenureInv s) (h : o.Tracks s) (ok : a.Tracked s)
    (shared : Shared s o a) (taken : phaseStep s a = some t) : (carried s o a).Tracks t := by
  cases phase_cases taken with
  | saved at_run =>
    exact h.frame rfl rfl (fun _ _ now => now) (fun _ _ cur => cur) (Or.inl rfl)
  | @taken _ u kept stepped =>
    have next : (carried { s with ckptSkips := 0 } o a).Tracks u :=
      host_tracks (TenureInv.skips tenure 0) (tracks_skips h 0) (tracked_skips ok 0)
        (shared_skips shared 0) kept stepped
    exact tracks_skips next _

theorem step_inv {s t : State g C} (h : Inv s) {a : Act} (careful : a.Careful s)
    (taken : step s a = some t) : Inv t := by
  cases a with
  | pred a =>
    obtain ⟨ok, shared⟩ := careful
    simp only [step] at taken
    split at taken
    · rename_i idle
      obtain ⟨u, stepped, rfl⟩ := Option.map_eq_some_iff.mp taken
      have alone : s.successor = none := not_not.mp fun some => h.active some idle
      refine ⟨host_tenureInv h.tenure ok stepped, fun o found => ?_, h.active⟩
      rw [alone] at found
      cases found
    · obtain ⟨u, stepped, rfl⟩ := Option.map_eq_some_iff.mp taken
      refine ⟨phase_tenureInv h.tenure ok stepped, fun o found => ?_, fun some => ?_⟩
      · obtain ⟨o, before, rfl⟩ := Option.map_eq_some_iff.mp found
        exact phase_tracks h.tenure (h.tracks o before) ok (shared o before) stepped
      · exact h.active fun none => some (by rw [none]; rfl)
  | warm =>
    obtain ⟨⟨idle, _⟩, ⟨⟩⟩ := Option.ite_none_right_eq_some.mp taken
    exact ⟨h.tenure, h.tracks, fun _ => nofun⟩
  | openPassive =>
    obtain ⟨⟨warming, _⟩, ⟨⟩⟩ := Option.ite_none_right_eq_some.mp taken
    refine ⟨h.tenure, fun o found => ?_, fun _ => by rw [warming]; nofun⟩
    cases found
    exact passiveOpen_tracks h.tenure careful
  | freeze =>
    obtain ⟨_, ⟨⟩⟩ := Option.ite_none_right_eq_some.mp taken
    exact ⟨h.tenure, h.tracks, fun _ => nofun⟩
  | abort =>
    cases taken
    exact ⟨h.tenure, nofun, fun some => absurd rfl some⟩

/-- The predecessor's cache when it starts: opened on files, or fresh. -/
inductive Start : State g C → Prop
  | opened (d : Disk g.blockSize) (v : Volume C) :
      Start ⟨openCache d v.store v.manifest, .idle, none⟩
  | fresh (d : Disk g.blockSize) (v : Volume C) :
      Start ⟨openFresh d v.store v.manifest, .idle, none⟩

theorem Start.inv {s : State g C} (start : Start s) : Inv s := by
  cases start with
  | opened d v =>
    exact ⟨.ofCrashInv (openCache_crashInv d v), nofun,
      fun some => absurd rfl some⟩
  | fresh d v =>
    exact ⟨.openFresh d v, nofun, fun some => absurd rfl some⟩

def newState : State oneBlockDevice (.plain 16) := ⟨newCache, .idle, none⟩

/-- A write of one byte when the log is short. -/
theorem write_tracked {s : Cache oneBlockDevice (.plain 16)} (byte : UInt8) (few : s.sequence ≤ 1)
    (counted : s.loaded.maxSequence ≤ s.sequence ∧ ∀ e ∈ s.wal, e.sequence ≤ s.sequence) :
    (HostAct.write 0 [byte]).Tracked s := by
  have room : s.sequence + 1 ≤ u64Max := (Nat.add_le_add_right few 1).trans (by decide)
  exact ⟨HostAct.write_recoverable (by simpa [blocksIn, oneBlockDevice] using room),
    fun _ => counted⟩

set_option synthInstance.maxSize 500 in
private theorem written_twice :
    (step newState (.pred (.write 0 [1]))).bind (fun s =>
      (step s .warm).bind fun t =>
        (step t .openPassive).bind fun u =>
          (step u .freeze).bind fun v =>
            (step v (.pred (.write 0 [2]))).map fun w =>
              ((t.cache.loaded.maxSequence, t.cache.wal, t.cache.sequence,
                  t.cache.flushingPath.isNone,
                  decide (t.cache.active.cur 0 = t.cache.acked 0)),
                (v.cache.loaded.maxSequence, v.cache.wal, v.cache.sequence),
                (v.successor.map fun o => (o.handle.isNone, o.after v.cache.wal 0)),
                w.phase, w.successor.isSome, (w.cache.acked 0).get 0)) =
      some ((0, [⟨0, 1⟩], 1, true, true), (0, [⟨0, 1⟩], 1), some (true, .dirty), .freezing, true,
        2) := by
  decide +kernel

theorem only_block {b : Nat} (range : oneBlockDevice.InRange b) : b = 0 := by
  have below : b * 16 < 16 := range
  omega

/-- A flush that finds nothing, as a drain or a snapshot starts it. -/
def emptyFlush : List Act :=
  [.flushToS3, .pass, .rotate .ok, .cleanEmpty, .removeEmpty true, .finish false, .publish .ok].map
    fun a => .pred (.inner a)

private theorem written_after_drain :
    (exec step newState (.warm :: .openPassive :: emptyFlush ++
      [.pred (.write 0 [7]), .freeze])).map (fun s =>
        (s.phase, (s.cache.acked 0).get 0, s.cache.flush.isNone,
          s.successor.map fun o => ((o.takeover s.cache).resolve s.cache 0).get 0)) =
      some (.freezing, 7, true, some 0) := by
  decide +kernel

end GlideFS.Handoff.Takeover
