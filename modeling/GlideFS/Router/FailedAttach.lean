import GlideFS.WriteCache.Reopen
import GlideFS.Router.Fence

/-! # An attach that fails

`create_or_attach_volume` for a volume that exists in S3 and is not attached here. The
local files may hold blocks that only they have. `create_export` opens them; what fails
after that runs `cleanup_failed_create`, which was written for a first create and removes
every local file.
-/

namespace GlideFS.Router

open Block WriteCache

variable {g : Geometry}

inductive Transport where
  | nbd
  | ublk
deriving DecidableEq

/-- What reading the volume's manifest gives. -/
inductive ManifestRead where
  | loaded
  /-- There is none, and the volume has no recorded source. -/
  | fresh
  | lineageLost
  | failed
deriving DecidableEq

/-- What the calls of one request answer. -/
structure Calls where
  resolveExport : Bool
  /-- The node is below its limit of exports. -/
  admitted : Bool
  opening : OpenProgress
  /-- The log could be opened. One that could not is removed. -/
  logKept : Bool
  saveMetadata : Bool
  manifest : ManifestRead
  fence : Option Fence
  saveExport : Bool
  registerDevice : Bool
  /-- The export is in the map when it is looked up at the end. -/
  found : Bool
  transport : Transport

inductive RouterError where
  | exportLimitReached
  | cache
  | lineageLost
  | manifest
deriving DecidableEq

inductive Response where
  | created
  | conflict
  | gone
  | internalServerError
  | serviceUnavailable
  | deviceError
deriving DecidableEq

/-- `finish_recovery` saves the states when the count of dirty blocks is not zero. -/
def finishRecovery (g : Geometry) (c : Calls) (d opened : Disk g.blockSize) :
    Except RouterError Unit × Disk g.blockSize :=
  if d.openDirtyCount g = 0 then (.ok (), opened)
  else if c.saveMetadata then (.ok (), d.saveOpened g opened)
  else (.error .cache, opened)

/-- The normal path of `create_export`. -/
def createExport (g : Geometry) (c : Calls) (d : Disk g.blockSize) :
    Except RouterError Unit × Disk g.blockSize :=
  if c.admitted = false then (.error .exportLimitReached, d)
  else if c.opening ≠ .complete then (.error .cache, d.opening g c.logKept c.opening)
  else
    match finishRecovery g c d (d.opening g c.logKept .complete) with
    | (.error e, files) => (.error e, files)
    | (.ok (), files) =>
        -- the manifest was fetched before the cache was opened, and is looked at only now
        match c.manifest with
        | .loaded | .fresh => (.ok (), files)
        | .lineageLost => (.error .lineageLost, files)
        | .failed => (.error .manifest, files)

/-- `cleanup_failed_create`: teardown without a drain, then `remove_local_files`. -/
def cleanupFailedCreate (c : Calls) (d : Disk g.blockSize) : Disk g.blockSize :=
  if c.found then .new else d

/-- The part of `create_or_attach_volume` after `create_export` succeeded. -/
def serveAttached (c : Calls) (d : Disk g.blockSize) : Response × Disk g.blockSize :=
  match c.fence with
  | some .reject => (.conflict, cleanupFailedCreate c d)
  | none => (.internalServerError, cleanupFailedCreate c d)
  | some .grant =>
      if c.saveExport = false then (.serviceUnavailable, cleanupFailedCreate c d)
      else if c.registerDevice = false ∧ c.transport = .ublk then
        (.deviceError, cleanupFailedCreate c d)
      else if c.found then (.created, d)
      else (.internalServerError, d)

/-- `create_or_attach_volume` of a volume that exists and is not attached here. -/
def createOrAttachVolume (g : Geometry) (c : Calls) (d : Disk g.blockSize) :
    Response × Disk g.blockSize :=
  if c.resolveExport = false then (.internalServerError, d)
  else
    match createExport g c d with
    | (.ok (), files) => serveAttached c files
    | (.error .lineageLost, files) => (.gone, files)
    | (.error _, files) => (.internalServerError, files)

namespace Calls

variable (c : Calls) (d : Disk g.blockSize)

/-- `finish_recovery` is reached and saves the states. -/
def Saves (g : Geometry) (d : Disk g.blockSize) : Prop :=
  c.opening = .complete ∧ d.openDirtyCount g ≠ 0 ∧ c.saveMetadata = true

/-- Every call of `create_export` succeeds. -/
def Creates (g : Geometry) (d : Disk g.blockSize) : Prop :=
  c.admitted = true ∧ c.opening = .complete ∧
    (d.openDirtyCount g = 0 ∨ c.saveMetadata = true) ∧
    (c.manifest = .loaded ∨ c.manifest = .fresh)

/-- What the log knows is not lost with it. -/
def LogSafe (g : Geometry) (d : Disk g.blockSize) : Prop :=
  c.opening = .start ∨ c.logKept = true ∨ c.Saves g d ∨ d.HeldWithoutLog g c.opening

/-- The failure comes before `create_export` is done, so that nothing is cleaned up, and the
    opening does not lose the log. -/
def Harmless (g : Geometry) (d : Disk g.blockSize) : Prop :=
  c.resolveExport = true →
    (c.Creates g d → c.found = false) ∧ (c.admitted = true → c.LogSafe g d)

end Calls

section
variable {c : Calls} {d : Disk g.blockSize}

open Classical in
/-- The files when `create_export` is over, whatever it answers. -/
theorem createExport_files (admitted : c.admitted = true) :
    (createExport g c d).2 =
      if c.Saves g d then d.saveOpened g (d.opening g c.logKept .complete)
      else d.opening g c.logKept c.opening := by
  unfold createExport
  rw [if_neg (by rw [admitted]; decide)]
  by_cases complete : c.opening = .complete
  · rw [if_neg (not_not.mpr complete)]
    unfold finishRecovery Calls.Saves
    by_cases count : d.openDirtyCount g = 0
    · rw [if_pos count, if_neg fun saves => saves.2.1 count, complete]
      cases c.manifest <;> rfl
    · rw [if_neg count]
      by_cases saved : c.saveMetadata = true
      · rw [if_pos saved, if_pos ⟨complete, count, saved⟩]
        cases c.manifest <;> rfl
      · rw [if_neg saved, if_neg fun saves => saved saves.2.2, complete]
  · rw [if_pos complete, if_neg fun saves => complete saves.1]

theorem createExport_ok_iff : (createExport g c d).1 = .ok () ↔ c.Creates g d := by
  unfold createExport Calls.Creates
  by_cases admitted : c.admitted = true
  · rw [if_neg (by rw [admitted]; decide)]
    by_cases complete : c.opening = .complete
    · rw [if_neg (not_not.mpr complete)]
      unfold finishRecovery
      by_cases count : d.openDirtyCount g = 0
      · rw [if_pos count]
        cases manifest : c.manifest <;> simp [admitted, complete, count]
      · rw [if_neg count]
        by_cases saved : c.saveMetadata = true
        · rw [if_pos saved]
          cases manifest : c.manifest <;> simp [admitted, complete, saved]
        · rw [if_neg saved]
          simp [count, saved]
    · rw [if_pos complete]
      simp [complete]
  · rw [if_pos (Bool.eq_false_of_not_eq_true admitted)]
    simp [admitted]

/-- What `create_export` leaves still holds the blocks exactly when the log is not missed. -/
theorem createExport_keeps_iff (admitted : c.admitted = true) :
    (∀ b v, d.Holds g b v → (createExport g c d).2.Holds g b v) ↔ c.LogSafe g d := by
  rw [createExport_files admitted]
  by_cases saves : c.Saves g d
  · rw [if_pos saves]
    exact ⟨fun _ => .inr (.inr (.inl saves)), fun _ b v held => held.saved c.logKept⟩
  rw [if_neg saves]
  by_cases start : c.opening = .start
  · rw [start]
    exact ⟨fun _ => .inl start, fun _ b v held => held⟩
  cases logKept : c.logKept with
  | true => exact ⟨fun _ => .inr (.inl logKept), fun _ b v held => held.opening c.opening⟩
  | false =>
    rw [Disk.holds_opening_lost_iff start]
    refine ⟨fun held => .inr (.inr (.inr held)), fun safe => ?_⟩
    have kept : c.logKept ≠ true := by rw [logKept]; decide
    exact ((safe.resolve_left start).resolve_left kept).resolve_left saves

/-- Past `create_export` every failure ends in a cleanup, if the export is in the map. -/
theorem serveAttached_failed (failed : (serveAttached c d).1 ≠ .created) :
    (serveAttached c d).2 = if c.found then .new else d := by
  unfold serveAttached at failed ⊢
  cases fence : c.fence with
  | none => rfl
  | some answer =>
    cases answer with
    | reject => rfl
    | grant =>
      rw [fence] at failed
      dsimp only at failed ⊢
      by_cases saved : c.saveExport = false
      · rw [if_pos saved]
        rfl
      rw [if_neg saved] at failed ⊢
      by_cases lost : c.registerDevice = false ∧ c.transport = .ublk
      · rw [if_pos lost]
        rfl
      rw [if_neg lost] at failed ⊢
      by_cases found : c.found = true
      · rw [if_pos found] at failed
        exact absurd rfl failed
      · rw [if_neg found, if_neg found]

theorem createOrAttachVolume_created (resolved : c.resolveExport = true) (creates : c.Creates g d) :
    createOrAttachVolume g c d = serveAttached c (createExport g c d).2 := by
  have ok := createExport_ok_iff.mpr creates
  unfold createOrAttachVolume
  rw [if_neg (by rw [resolved]; decide)]
  split
  · rename_i files result
    rw [result]
  · rename_i files result
    rw [result] at ok
    cases ok
  · rename_i files _ result
    rw [result] at ok
    cases ok

theorem createOrAttachVolume_not_created (resolved : c.resolveExport = true)
    (fails : ¬c.Creates g d) :
    (createOrAttachVolume g c d).2 = (createExport g c d).2 := by
  unfold createOrAttachVolume
  rw [if_neg (by rw [resolved]; decide)]
  split
  · rename_i files result
    exact absurd (createExport_ok_iff.mp (by rw [result])) fails
  · rename_i files result
    rw [result]
  · rename_i files _ result
    rw [result]

end

/-- The content of the write. -/
def sevens : BlockData oneBlockDevice.blockSize := .fill _ 7

/-- The files a crash leaves after one acknowledged write: its bytes and its log entry. -/
def crashedFiles : Disk oneBlockDevice.blockSize where
  active := DataFile.sparse.writeBlock 0 sevens
  flushing := none
  wal := [⟨0, 1⟩]
  metadata := none

theorem crashedFiles_holds : crashedFiles.Holds oneBlockDevice 0 sevens := ⟨by decide, rfl⟩

/-- A request whose calls all succeed. -/
def attaching : Calls where
  resolveExport := true
  admitted := true
  opening := .complete
  logKept := true
  saveMetadata := true
  manifest := .loaded
  fence := some .grant
  saveExport := true
  registerDevice := true
  found := true
  transport := .ublk

end GlideFS.Router
