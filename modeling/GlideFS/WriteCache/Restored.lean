import GlideFS.WriteCache.PowerLoss

/-! # A cache opened fresh on old files

`open_fresh_active` starts with every block NOT_PRESENT and sequence number 0, and
leaves the files of an earlier cache in place. Their numbers may be above its own:
log entries it appends are then not replayed. Until a checkpoint has replaced the
metadata and truncated the log, the cache records nothing that a crash would keep.
-/

namespace GlideFS.WriteCache

open Block Lib Cache

variable {Hash PackId : Type} [DecidableEq Hash] [DecidableEq PackId] {g : Geometry}
  {C : Codec (BlockData g.blockSize) Hash PackId} {s t : Cache g C}

/-- `WriteCache::open_fresh_active` with the manifest object of S3. -/
def openFresh (d : Disk g.blockSize) (store : PackStore C) (durable : VolumeManifest PackId) :
    Cache g C where
  states _ := .notPresent
  dirtyBlockCount := 0
  syncingBlockCount := 0
  sequence := 0
  active := d.active
  activeName := .active
  flushingPath := d.flushing
  flushingFile := none
  flushingActive := false
  rotationSeq := 0
  wal := d.wal
  walSynced := d.wal.length
  metadata := d.metadata
  ckptSkips := 0
  ckpt := none
  store
  volumeManifest := durable
  durable
  flush := none
  returned := none
  remaining := none
  acked b := (resolveBlock g store durable b).getD 0
  written := false

namespace Cache

/-- The cache when its process ends. The last thing teardown does is save the metadata; it is left
    out when something still refers to the cache, and may fail. -/
def ended (t : Cache g C) (saved : Bool) : Cache g C :=
  { t with
    ckpt := none
    metadata := if saved then
        some ⟨fun b => if b < numBlocks g then t.states b else .notPresent, t.sequence,
          t.rotationSeq⟩
      else t.metadata }

/-- The files `remove_export` leaves without purge. -/
def removed (t : Cache g C) (saved : Bool) : Disk g.blockSize := (t.ended saved).crash

/-- The sequence number is not behind the numbers in the files. -/
def Counted (s : Cache g C) : Prop :=
  s.loaded.maxSequence ≤ s.sequence ∧ ∀ e ∈ s.wal, e.sequence ≤ s.sequence

/-- The number of what a checkpoint is about to save or has saved. -/
def StageNumber (s : Cache g C) (coveredSeq : Nat) : CkptStage → Prop
  | .copying _ _ => True
  | .sealed saved => saved.maxSequence = coveredSeq
  | .published => s.loaded.maxSequence = coveredSeq

theorem StageNumber.frame {n : Nat} {stage : CkptStage} (h : s.StageNumber n stage)
    (metadata : t.metadata = s.metadata) : t.StageNumber n stage := by
  cases stage with
  | copying next copy => trivial
  | sealed saved => exact h
  | published =>
    unfold StageNumber loaded at h ⊢
    rw [metadata]
    exact h

end Cache

/-- No block has local data, so nothing needs to be recorded. -/
structure BlankInv (s : Cache g C) : Prop where
  absent : ∀ b, g.InRange b → ¬s.Present b
  covered : ∀ run, s.ckpt = some run → run.coveredSeq ≤ s.sequence
  number : ∀ run, s.ckpt = some run → s.StageNumber run.coveredSeq run.stage
  exclusive : Exclusive s

namespace BlankInv

/-- Once the number is not behind the files, the files record what they have to. -/
theorem recordInv (h : BlankInv s) (counted : s.Counted) : RecordInv s := by
  refine ⟨⟨counted.2, counted.1, fun b range now => absurd now (h.absent b range), h.covered,
    fun run at_run => ?_⟩, h.exclusive⟩
  have number := h.number run at_run
  cases stage : run.stage with
  | copying next copy => exact fun b range _ now => absurd now (h.absent b range)
  | sealed saved | published =>
    rw [stage] at number
    exact ⟨number, fun b range now => absurd now (h.absent b range)⟩

theorem frame (h : BlankInv s) (sequence : t.sequence = s.sequence)
    (metadata : t.metadata = s.metadata)
    (ckpt : ∀ run, t.ckpt = some run → ∃ awaited, s.ckpt = some { run with awaited })
    (present : ∀ b, g.InRange b → t.Present b → s.Present b) : BlankInv t := by
  refine ⟨fun b range now => h.absent b range (present b range now), fun run found => ?_,
    fun run found => ?_, fun run found exclusive => ?_⟩
  · obtain ⟨awaited, before⟩ := ckpt run found
    rw [sequence]
    exact h.covered { run with awaited } before
  · obtain ⟨awaited, before⟩ := ckpt run found
    exact (h.number _ before).frame metadata
  · obtain ⟨awaited, before⟩ := ckpt run found
    rw [sequence]
    exact h.exclusive { run with awaited } before exclusive

theorem same (h : BlankInv s) (log : t.log = s.log) (metadata : t.metadata = s.metadata)
    (ckpt : t.ckpt = s.ckpt) (present : ∀ b, g.InRange b → t.Present b → s.Present b) :
    BlankInv t :=
  h.frame (Prod.mk.inj log).2 metadata (fun run found => ⟨run.awaited, ckpt ▸ found⟩) present

theorem newCkpt (h : BlankInv s) (awaited : Bool) : BlankInv (s.setNewCkpt awaited) :=
  ⟨h.absent, fun run found => (by cases found; exact le_rfl),
    fun run found => (by cases found; trivial), fun run found _ => by cases found; rfl⟩

theorem endCkpt (h : BlankInv s) (ckpt : t.ckpt = none) (states : t.states = s.states) :
    BlankInv t := by
  have absent : ∀ b, g.InRange b → ¬t.Present b := fun b range now =>
    h.absent b range (by unfold Present at now ⊢; exact states ▸ now)
  refine ⟨absent, fun run found => ?_, fun run found => ?_, fun run found => ?_⟩ <;>
    · rw [ckpt] at found
      cases found

theorem dropFlush (h : BlankInv s) : BlankInv s.dropFlush := by
  refine h.frame rfl rfl (fun run found => ?_) fun b _ now => now
  obtain ⟨before, at_run, rfl⟩ := Option.map_eq_some_iff.mp found
  exact ⟨before.awaited, at_run⟩

end BlankInv

theorem BlankInv.logStep (h : BlankInv s) (done : LogStep s t) : BlankInv t := by
  cases done with
  | same => exact h
  | dropFlush => exact h.dropFlush
  | newCkpt awaited => exact h.newCkpt awaited
  | copy at_run | sealed at_run =>
    have covered := h.covered _ at_run
    have exclusive := h.exclusive _ at_run
    refine ⟨h.absent, fun run found => ?_, fun run found => ?_, fun run found => ?_⟩ <;>
      cases found
    · exact covered
    · trivial
    · exact exclusive
  | publish at_run =>
    have covered := h.covered _ at_run
    have number := h.number _ at_run
    have exclusive := h.exclusive _ at_run
    refine ⟨h.absent, fun run found => ?_, fun run found => ?_, fun run found => ?_⟩ <;>
      cases found
    · exact covered
    · exact number
    · exact exclusive
  | truncate at_run covered | ended at_run ok => exact h.endCkpt rfl rfl

/-- Only a write gives a block local data. -/
theorem step_blankInv (data : DataInv s) (h : BlankInv s) {a : Act} (copies : a.Copies)
    (quiet : a.Internal) (taken : a.step s = some t) : BlankInv t := by
  obtain ⟨u, done, same⟩ := step_log data copies quiet taken
  exact (h.logStep done).same same.log same.metadata same.ckpt same.present

/-! ## The runs of a cache opened either way -/

structure TenureInv (s : Cache g C) : Prop where
  remote : RemoteInv True s
  data : DataInv s
  inS3 : InS3 s
  running : s.Running
  files : RecordInv s ∨ BlankInv s

/-- The steps of the runs considered: those a crash can be recovered from, and no write takes a
    number that the files already have. -/
structure HostAct.Tracked (s : Cache g C) (a : HostAct) : Prop where
  recoverable : a.Recoverable s
  counted : (a.range g).2 ≠ 0 → s.Counted

namespace TenureInv

theorem ofCrashInv (h : CrashInv s) : TenureInv s :=
  ⟨h.remote, h.data, h.inS3, h.running, .inl h.record⟩

theorem crashInv (h : TenureInv s) (record : RecordInv s) : CrashInv s :=
  ⟨h.remote, h.data, h.inS3, record, h.running⟩

theorem openFresh (d : Disk g.blockSize) (v : Volume C) :
    TenureInv (openFresh d v.store v.manifest) where
  remote := ⟨v.backed, v.backed, nofun⟩
  data := ⟨fun _ _ => rfl, fun _ _ => NoSyncing.held nofun, nofun⟩
  inS3 _ _ _ := rfl
  running := ⟨rfl, rfl⟩
  files := .inr ⟨nofun, nofun, nofun, nofun⟩

theorem recast {states : StateMap} (h : TenureInv s) (r : s.Recast states) :
    TenureInv { s with states } where
  remote := h.remote.quiet rfl h.remote.stage
  data := r.dataInv h.data
  inS3 := h.inS3.frame rfl rfl fun b => (r.present b).mpr
  running := ⟨h.running.named, h.running.remaining⟩
  files := h.files.imp (·.same rfl rfl rfl fun b _ => (r.present b).mp)
    (·.same rfl rfl rfl fun b _ => (r.present b).mp)

theorem ended (h : TenureInv s) (saved : Bool) : TenureInv (s.ended saved) where
  remote := h.remote.quiet rfl h.remote.stage
  data := ⟨h.data.blocks, h.data.idle, h.data.stage⟩
  inS3 := h.inS3
  running := ⟨h.running.named, h.running.remaining⟩
  files := by
    refine h.files.imp (fun record => ⟨?_, nofun⟩) fun blank => ⟨blank.absent, nofun, nofun, nofun⟩
    cases saved with
    | false => exact ⟨record.log.wal, record.log.saved, record.log.recorded, nofun, nofun⟩
    | true =>
      refine ⟨record.log.wal, le_rfl, fun b range now => .inl ?_, nofun, nofun⟩
      change SparseBlockState.hasLocalData (if b < numBlocks g then s.states b else _) = true
      rw [if_pos (lt_numBlocks.mpr range)]
      exact now

/-- Another process has uploaded packs and stored a manifest that resolves every block as the one
    before did. -/
theorem foreignPut {store : PackStore C} {m : VolumeManifest PackId} (h : TenureInv s)
    (keeps : s.store.Extends store) (backed : Backed store m)
    (same : ∀ b, resolveBlock g store m b = resolveBlock g s.store s.durable b) :
    TenureInv { s with store, durable := m } := by
  have memory (b : Nat) : resolveBlock g store s.volumeManifest b =
      resolveBlock g s.store s.volumeManifest b := h.remote.manifest.resolve_extends keeps g b
  refine ⟨⟨h.remote.manifest.extends keeps, backed, fun r at_r => ?_⟩, ⟨fun b range => ?_,
    h.data.idle, h.data.stage⟩, fun b range absent => ?_, ⟨h.running.named, h.running.remaining⟩,
    h.files.imp (·.same rfl rfl rfl fun _ _ now => now) (·.same rfl rfl rfl fun _ _ now => now)⟩
  · have stage := h.remote.stage r at_r
    cases at_stage : r.stage with
    | uploading claim plans pending =>
      rw [at_stage] at stage
      obtain ⟨old, level, snap, up, flight, known, settled⟩ := stage
      have grown : old.Extends store :=
        fun c id p get => keeps c id p (flight.uploaded.keeps c id p get)
      refine ⟨store, level, snap, up, flight.rebase keeps, backed, fun on resolved p mem => ?_⟩
      simp only [flight.backed.resolve_extends grown] at resolved ⊢
      rw [same, known.resolve_extends flight.uploaded.keeps]
      exact settled on resolved p mem
    | putting claim plans =>
      rw [at_stage] at stage
      simpa only [StageOk, Readable, memory] using stage
    | evicting claim plans =>
      rw [at_stage] at stage
      simpa only [StageOk, Readable, memory, same] using stage
    | _ => trivial
  · have ok := h.data.blocks b range
    unfold BlockOk content at ok ⊢
    dsimp only
    rw [memory]
    exact ok
  · exact (congrArg (·.getD 0) (same b)).trans (h.inS3 b range absent)

end TenureInv

theorem host_tenureInv (h : TenureInv s) {a : HostAct} (ok : a.Tracked s)
    (taken : a.step s = some t) : TenureInv t := by
  cases host_cases taken with
  | put how done =>
    have claimed : TenureInv (s.claimed (a.claims g)) := h.recast (.claimed s _)
    rcases putRange_some done with ⟨-, rfl⟩ | ⟨some, -, -⟩
    · exact claimed
    · have record : RecordInv (s.claimed (a.claims g)) :=
        claimed.files.elim id fun blank => blank.recordInv (ok.counted some)
      exact .ofCrashInv (putRange_crashInv (claimed.crashInv record) ok.recoverable.loggable done)
  | recast which same => exact h.recast same
  | syncActive | syncWal =>
    exact ⟨h.remote.quiet rfl h.remote.stage, ⟨h.data.blocks, h.data.idle, h.data.stage⟩,
      h.inS3, ⟨h.running.named, h.running.remaining⟩,
      h.files.imp (·.same rfl rfl rfl fun b _ now => now)
        (·.same rfl rfl rfl fun b _ now => now)⟩
  | inner quiet taken =>
    obtain ⟨⟨resolvable, copies, logged, cycle⟩, _⟩ := ok
    exact
      { remote := step_remoteInv h.remote resolvable taken
        data := step_dataInv h.remote h.data copies taken
        inS3 := step_inS3 h.remote h.data h.inS3 taken
        running := step_running h.running cycle taken
        files := h.files.imp (step_recordInv h.data · copies logged taken)
          (step_blankInv h.data · copies quiet taken) }

/-! ## A crash -/

namespace Cache

/-- After a crash and `open` every block reads as it was last acknowledged. -/
def Restores (s : Cache g C) : Prop := ∀ b, g.InRange b → s.reopened.acked b = s.acked b

/-- A block that S3 has, but that the files still record, has the bytes of S3 in the file `open`
    takes it from. -/
def Unspoiled (s : Cache g C) : Prop :=
  ∀ b, g.InRange b → s.acked b = s.content s.durable b → s.Recorded b →
    (∀ f, s.flushingPath = some f → ¬s.PostRotated b → f.cur b = s.content s.durable b) ∧
      (s.flushingPath = none ∨ s.PostRotated b → s.active.cur b = s.content s.durable b)

theorem reopened_acked {b : Nat} :
    s.reopened.acked b = if s.reopened.states b = .dirty then s.reopened.active.cur b
      else s.content s.durable b := rfl

/-- One block that S3 has. -/
theorem restores_saved_iff (running : s.Running) {b : Nat} (range : g.InRange b)
    (saved : s.acked b = s.content s.durable b) :
    s.reopened.acked b = s.acked b ↔ (s.Recorded b →
      (∀ f, s.flushingPath = some f → ¬s.PostRotated b → f.cur b = s.content s.durable b) ∧
        (s.flushingPath = none ∨ s.PostRotated b → s.active.cur b = s.content s.durable b)) := by
  rw [reopened_acked, saved]
  by_cases recorded : s.Recorded b
  case neg =>
    rw [if_neg fun dirty => recorded ((openStates_dirty range).mp dirty)]
    exact ⟨fun _ yes => absurd yes recorded, fun _ => rfl⟩
  rw [if_pos ((openStates_dirty range).mpr recorded), reopened_cur running range recorded]
  cases path : s.flushingPath with
  | none =>
    exact ⟨fun same _ => ⟨nofun, fun _ => same⟩,
      fun h => (h recorded).2 (.inl rfl)⟩
  | some f =>
    dsimp only
    by_cases after : s.PostRotated b
    · rw [if_pos after]
      exact ⟨fun same _ => ⟨fun f' _ before => absurd after before, fun _ => same⟩,
        fun h => (h recorded).2 (.inr after)⟩
    · rw [if_neg after]
      refine ⟨fun same _ => ⟨fun f' found _ => ?_, fun no => ?_⟩,
        fun h => (h recorded).1 f rfl after⟩
      · cases found
        exact same
      · exact absurd (no.resolve_left nofun) after

end Cache

/-- A crash and `open` restore every block exactly if the blocks S3 does not have are placed and
    what the files record besides is unspoiled. -/
theorem TenureInv.restores_iff (h : TenureInv s) : s.Restores ↔ s.Placed ∧ s.Unspoiled := by
  have unsaved {b : Nat} (range : g.InRange b) (differs : s.acked b ≠ s.content s.durable b) :
      s.reopened.acked b = s.acked b ↔ ∀ f, s.flushingPath = some f → f.cur b ≠ s.active.cur b →
        (s.PostRotated b ↔ s.states b = .dirty) := by
    have present : s.Present b := by
      by_contra absent
      exact differs (h.inS3 b range absent).symm
    have record : RecordInv s := h.files.elim id fun blank => absurd present (blank.absent b range)
    rw [← (h.crashInv record).recovers_block range differs, reopened_acked]
    have dirty := (openStates_dirty range).mpr (record.log.recorded b range present)
    rw [if_pos dirty]
    exact ⟨fun cur => ⟨dirty, cur⟩, fun both => both.2⟩
  constructor
  · intro restores
    exact ⟨fun b range differs => (unsaved range differs).mp (restores b range),
      fun b range saved => (restores_saved_iff h.running range saved).mp (restores b range)⟩
  · rintro ⟨placed, unspoiled⟩ b range
    by_cases saved : s.acked b = s.content s.durable b
    · exact (restores_saved_iff h.running range saved).mpr (unspoiled b range saved)
    · exact (unsaved range saved).mpr (placed b range saved)

end GlideFS.WriteCache
