import GlideFS.WriteCache.Frames

/-! # What the steps do

`Step s a t` has one constructor for every branch `Act.step` can take, with the
state it leaves. The invariants of the cache are proved by cases on it.
-/

namespace GlideFS.WriteCache

open Block Lib Cache

variable {Hash PackId : Type} [DecidableEq Hash] [DecidableEq PackId] {g : Geometry}
  {C : Codec (BlockData g.blockSize) Hash PackId} {s t : Cache g C}

namespace FlushStage

/-- The flush waits for the flushing file to be removed. -/
def Deletes : FlushStage C g → Prop
  | .removing | .emptied | .deleting | .syncDeleting => True
  | _ => False

/-- The flush waits for the PUT of the manifest. -/
def Puts : FlushStage C g → Prop
  | .putting _ _ | .publishing | .syncPutting => True
  | _ => False

/-- The flush waits for something else, whose effects are steps of their own. -/
def Waits : FlushStage C g → Prop
  | .starting | .rotated _ | .uploading _ _ _ | .checkpointing _ | .syncCheckpointing _ => True
  | _ => False

end FlushStage

/-- Not a write of the guest. -/
def Act.Internal (a : Act) : Prop :=
  (∀ offset data, a ≠ .write offset data) ∧ ∀ offset len, a ≠ .zeroRange offset len

def Cache.newCkpt (s : Cache g C) (awaited : Bool) : CkptRun where
  mode := if ckptMaxSkips ≤ s.ckptSkips then .exclusive else .truncating
  coveredSeq := s.sequence
  stage := .copying 0 fun _ => .notPresent
  awaited

def Cache.setNewCkpt (s : Cache g C) (awaited : Bool) : Cache g C :=
  { s with ckpt := some (s.newCkpt awaited) }

theorem startCkpt_some {awaited : Bool} (started : s.startCkpt awaited = some t) :
    s.ckpt = none ∧ t = s.setNewCkpt awaited := by
  unfold startCkpt at started
  split at started
  · cases started
  · rename_i free
    cases started
    exact ⟨free, rfl⟩

def Cache.setFlush (s : Cache g C) (flush : Option (FlushRun C g))
    (returned : Option FlushStats) : Cache g C :=
  { s with flush, returned }

def Cache.setRemaining (s : Cache g C) (remaining : UInt64) : Cache g C :=
  { s with flush := some ⟨none, .syncPutting, .default⟩, remaining := some remaining }

def Cache.setMetadata (s : Cache g C) (saved : Metadata) : Cache g C :=
  { s with metadata := some saved }

def Cache.setName (s : Cache g C) (activeName : ActiveName) : Cache g C := { s with activeName }

/-- What a pass remembers of `written`: its own writes. -/
def Cache.beginPass (s : Cache g C) (pass : Option Nat) : Cache g C :=
  s.setWritten (s.written && pass.isNone)

inductive Step (s : Cache g C) : Act → Cache g C → Prop
  | write {offset : Nat} {data : List UInt8} {t : Cache g C}
      (done : s.write offset data = some t) :
      Step s (.write offset data) t
  | zeroRange {offset len : Nat} {t : Cache g C}
      (done : s.zeroRange offset len = some t) : Step s (.zeroRange offset len) t
  | ckptStart (free : s.ckpt = none) : Step s .ckptStart (s.setNewCkpt false)
  | ckptCopy {mode coveredSeq next copy awaited}
      (at_run : s.ckpt = some ⟨mode, coveredSeq, .copying next copy, awaited⟩)
      (more : next < numBlocks g) :
      Step s .ckptCopy (s.setCkpt ⟨mode, coveredSeq, .copying next copy, awaited⟩
        (.copying (next + 1) (Function.update copy next (s.states next))))
  | ckptSeal {mode coveredSeq copy awaited}
      (at_run : s.ckpt = some ⟨mode, coveredSeq, .copying (numBlocks g) copy, awaited⟩) :
      Step s .ckptSeal (s.setCkpt ⟨mode, coveredSeq, .copying (numBlocks g) copy, awaited⟩
        (.sealed ⟨copy, coveredSeq, s.rotationSeq⟩))
  | ckptPublish {mode coveredSeq saved awaited}
      (at_run : s.ckpt = some ⟨mode, coveredSeq, .sealed saved, awaited⟩) :
      Step s .ckptPublish ((s.setMetadata saved).setCkpt
        ⟨mode, coveredSeq, .sealed saved, awaited⟩ .published)
  | ckptTruncate {mode coveredSeq awaited}
      (at_run : s.ckpt = some ⟨mode, coveredSeq, .published, awaited⟩)
      (covered : mode = .exclusive ∨ s.sequence = coveredSeq) :
      Step s .ckptTruncate (s.truncateWal.endCkpt ⟨mode, coveredSeq, .published, awaited⟩ true)
  | ckptKeep {mode coveredSeq awaited}
      (at_run : s.ckpt = some ⟨mode, coveredSeq, .published, awaited⟩) :
      Step s .ckptTruncate (s.keepWal.endCkpt ⟨mode, coveredSeq, .published, awaited⟩ true)
  | ckptFail {run : CkptRun} (at_run : s.ckpt = some run) :
      Step s .ckptFail (s.endCkpt run false)
  | flushPacks (free : s.flush = none) (remaining : s.remaining = none) :
      Step s .flushPacks (s.setFlush (some ⟨none, .starting, .default⟩) s.returned)
  | flushToS3 (free : s.flush = none) (remaining : s.remaining = none) :
      Step s .flushToS3 (s.setFlush (some ⟨some 1, .starting, .default⟩) none)
  | teardownUndrained (free : s.flush = none) (remaining : s.remaining = none) :
      Step s (.teardown false) (s.setRemaining s.dirtyBlockCount)
  | teardownDrained (free : s.flush = none) (remaining : s.remaining = none)
      (drained : s.returned.map FlushStats.blocksClaimed = some 0) (clean : s.dirtyBlockCount = 0) :
      Step s (.teardown true) (s.setRemaining 0)
  | passStale {pass stats} (at_r : s.flush = some ⟨pass, .starting, stats⟩)
      (stale : s.hasAnySyncing = false) :
      Step s .pass ((((s.beginPass pass).setFlags false 0).closeFlushing).setStage
        ⟨pass, .starting, stats⟩ .removing)
  | passEarly {pass stats} (at_r : s.flush = some ⟨pass, .starting, stats⟩)
      (active : s.flushingActive = true ∨ s.flushingFile.isSome = true)
      (syncing : s.hasAnySyncing = true) :
      Step s .pass ((s.beginPass pass).setStats ⟨pass, .starting, stats⟩ .finished
        { FlushStats.default with early := true })
  | passOrphan {pass stats} (at_r : s.flush = some ⟨pass, .starting, stats⟩)
      (inactive : s.flushingActive = false) (closed : s.flushingFile = none) :
      Step s .pass ((s.beginPass pass).setStage ⟨pass, .starting, stats⟩ .removing)
  | passRotate {pass stats} (at_r : s.flush = some ⟨pass, .starting, stats⟩)
      (missing : s.flushingPath = none) (named : s.activeName ≠ .flushing) :
      Step s .pass ((s.beginPass pass).setStage ⟨pass, .starting, stats⟩ .rotating)
  | removeOrphan {pass stats} (at_r : s.flush = some ⟨pass, .removing, stats⟩) :
      Step s (.removeOrphan true) (s.removeFlushing.setStage ⟨pass, .removing, stats⟩ .rotating)
  | keepOrphan {pass stats} (at_r : s.flush = some ⟨pass, .removing, stats⟩) :
      Step s (.removeOrphan false) (s.setStats ⟨pass, .removing, stats⟩ .finished
        { FlushStats.default with early := true })
  | rotate {pass stats} (at_r : s.flush = some ⟨pass, .rotating, stats⟩)
      (named : s.activeName = .active) :
      Step s (.rotate .ok) (((s.setFlags true s.sequence).claimDirty.swapFiles).setStage
        ⟨pass, .rotating, stats⟩ (.rotated s.dirtyBlocks))
  | renameFails {pass stats} (at_r : s.flush = some ⟨pass, .rotating, stats⟩) :
      Step s (.rotate .renameFails) ((s.setFlags true s.sequence).endFlush none)
  | createFails {pass stats} (at_r : s.flush = some ⟨pass, .rotating, stats⟩) :
      Step s (.rotate .createFails) ((s.setFlags false 0).endFlush none)
  | undoFails {pass stats} (at_r : s.flush = some ⟨pass, .rotating, stats⟩)
      (named : s.activeName = .active) :
      Step s (.rotate .undoFails) (((s.setFlags false 0).setName .flushing).endFlush none)
  | cleanEmpty {pass stats claim} (at_r : s.flush = some ⟨pass, .rotated claim, stats⟩)
      (empty : claim.blocks = []) :
      Step s .cleanEmpty (((s.setFlags false 0).closeFlushing).setStage
        ⟨pass, .rotated claim, stats⟩ .emptied)
  | removeEmpty {pass stats} {ok : Bool} (at_r : s.flush = some ⟨pass, .emptied, stats⟩) :
      Step s (.removeEmpty ok) ((if ok then s.removeFlushing else s).setStage
        ⟨pass, .emptied, stats⟩ .finished)
  | compute {pass stats claim f plans} {level : Int} {skipped uncopied : List Nat}
      (at_r : s.flush = some ⟨pass, .rotated claim, stats⟩) (nonempty : claim.blocks ≠ [])
      (handle : s.flushingFile = some f)
      (computed : planFlush s.store s.volumeManifest level (claim.read f skipped) = some plans) :
      Step s (.compute level skipped uncopied)
        (((claim.blocks.filter (· ∈ skipped)).foldl (unskipBlock f uncopied) s).setStats
          ⟨pass, .rotated claim, stats⟩ (.uploading claim plans (staged s.volumeManifest plans))
          ⟨claim.blocks.length, 0, (claim.blocks.filter (· ∈ skipped)).length, false⟩)
  | upload {pass stats claim plans pending p} {k : Nat}
      (at_r : s.flush = some ⟨pass, .uploading claim plans pending, stats⟩)
      (at_k : pending[k]? = some p) :
      Step s (.upload k) ((s.uploadPack p).setStats ⟨pass, .uploading claim plans pending, stats⟩
        (.uploading claim plans (pending.eraseIdx k))
        { stats with packsUploaded := stats.packsUploaded + 1 })
  | appendNone {pass stats claim plans}
      (at_r : s.flush = some ⟨pass, .uploading claim plans [], stats⟩)
      (none : staged s.volumeManifest plans = []) :
      Step s .append ((s.appendPacks (staged s.volumeManifest plans)).setStage
        ⟨pass, .uploading claim plans [], stats⟩ (.evicting claim plans))
  | append {pass stats claim plans}
      (at_r : s.flush = some ⟨pass, .uploading claim plans [], stats⟩) :
      Step s .append ((s.appendPacks (staged s.volumeManifest plans)).setStage
        ⟨pass, .uploading claim plans [], stats⟩ (.putting claim plans))
  | put {pass stats claim plans} (at_r : s.flush = some ⟨pass, .putting claim plans, stats⟩) :
      Step s (.put .ok) ((s.putManifest .ok).setStage ⟨pass, .putting claim plans, stats⟩
        (.evicting claim plans))
  | putFails {pass stats claim plans} (outcome : PutOutcome)
      (at_r : s.flush = some ⟨pass, .putting claim plans, stats⟩) :
      Step s (.put outcome) ((s.putManifest outcome).setStage ⟨pass, .putting claim plans, stats⟩
        (.failed claim))
  | evict {pass stats claim plans} (at_r : s.flush = some ⟨pass, .evicting claim plans, stats⟩) :
      Step s .evict ((s.evictBlocks (flushedBlocks plans)).setStage
        ⟨pass, .evicting claim plans, stats⟩ (.checkpointing false))
  | flushCkpt {pass stats} (at_r : s.flush = some ⟨pass, .checkpointing false, stats⟩)
      (free : s.ckpt = none) :
      Step s .flushCkpt ((s.setNewCkpt true).setStage ⟨pass, .checkpointing false, stats⟩
        (.checkpointing true))
  | clearFlags {pass stats ok} (at_r : s.flush = some ⟨pass, .clearing ok, stats⟩) :
      Step s .clearFlags ((s.setFlags false 0).setStage ⟨pass, .clearing ok, stats⟩ (.closing ok))
  | dropHandle {pass stats} (at_r : s.flush = some ⟨pass, .closing true, stats⟩) :
      Step s .dropHandle (s.closeFlushing.setStage ⟨pass, .closing true, stats⟩ .deleting)
  | keepFile {pass stats} (at_r : s.flush = some ⟨pass, .closing false, stats⟩) :
      Step s .dropHandle (s.closeFlushing.setStage ⟨pass, .closing false, stats⟩ .finished)
  | deleteFile {pass stats} {ok : Bool} (at_r : s.flush = some ⟨pass, .deleting, stats⟩) :
      Step s (.deleteFile ok) ((if ok then s.removeFlushing else s).setStage
        ⟨pass, .deleting, stats⟩ .finished)
  | computeFails {pass stats claim} (at_r : s.flush = some ⟨pass, .rotated claim, stats⟩) :
      Step s .flushFail (s.setStage ⟨pass, .rotated claim, stats⟩ (.failed claim))
  | uploadFails {pass stats claim plans pending}
      (at_r : s.flush = some ⟨pass, .uploading claim plans pending, stats⟩) :
      Step s .flushFail (s.setStage ⟨pass, .uploading claim plans pending, stats⟩ (.failed claim))
  | copyBack {pass stats claim} {uncopied : List Nat}
      (at_r : s.flush = some ⟨pass, .failed claim, stats⟩) :
      Step s (.copyBack uncopied) ((s.copyBack claim uncopied).setStage
        ⟨pass, .failed claim, stats⟩ (.copied claim (s.recoverable claim uncopied)))
  | unflag {pass stats claim recovered}
      (at_r : s.flush = some ⟨pass, .copied claim recovered, stats⟩) :
      Step s .unflag ((s.setFlags false 0).setStage ⟨pass, .copied claim recovered, stats⟩
        (.cleared claim recovered))
  | strand {pass stats claim recovered}
      (at_r : s.flush = some ⟨pass, .cleared claim recovered, stats⟩) :
      Step s .strand ((claim.blocks.foldl (strandBlock recovered) s).setStage
        ⟨pass, .cleared claim recovered, stats⟩ (.stranded recovered))
  | closeHandle {pass stats recovered} (at_r : s.flush = some ⟨pass, .stranded recovered, stats⟩) :
      Step s .closeHandle (s.closeFlushing.setStage ⟨pass, .stranded recovered, stats⟩
        (.closed recovered))
  | unlink {pass stats recovered} {ok : Bool}
      (at_r : s.flush = some ⟨pass, .closed recovered, stats⟩) :
      Step s (.unlink ok) ((if ok then s.removeFlushing else s).setStage
        ⟨pass, .closed recovered, stats⟩ (.redirtying recovered))
  | redirty {pass stats recovered} (at_r : s.flush = some ⟨pass, .redirtying recovered, stats⟩) :
      Step s .redirty ((recovered.foldl transitionToDirty s).endFlush none)
  | finishPacks {stats} {unexplained : Bool} (at_r : s.flush = some ⟨none, .finished, stats⟩) :
      Step s (.finish unexplained) (s.endFlush s.returned)
  | finishPublish {n stats} {unexplained : Bool}
      (at_r : s.flush = some ⟨some n, .finished, stats⟩) :
      Step s (.finish unexplained) (s.setStage ⟨some n, .finished, stats⟩ .publishing)
  | finishUploaded {n stats} {unexplained : Bool}
      (at_r : s.flush = some ⟨some n, .finished, stats⟩) (uploaded : stats.packsUploaded ≠ 0) :
      Step s (.finish unexplained) (s.endFlush (some stats))
  | finishFails {n stats} {unexplained : Bool}
      (at_r : s.flush = some ⟨some n, .finished, stats⟩) :
      Step s (.finish unexplained) (s.endFlush none)
  | finishAgain {n stats} {unexplained : Bool}
      (at_r : s.flush = some ⟨some n, .finished, stats⟩) :
      Step s (.finish unexplained) (s.setFlush (some ⟨some (n + 1), .starting, .default⟩) s.returned)
  | finishSync {stats} (at_r : s.flush = some ⟨none, .finished, stats⟩)
      (uploaded : 0 < stats.packsUploaded) :
      Step s .finishSync (s.setStage ⟨none, .finished, stats⟩ .syncPutting)
  | publish {pass stats} (at_r : s.flush = some ⟨pass, .publishing, stats⟩) :
      Step s (.publish .ok) ((s.putManifest .ok).endFlush (some stats))
  | publishFails {pass stats} (outcome : PutOutcome)
      (at_r : s.flush = some ⟨pass, .publishing, stats⟩) :
      Step s (.publish outcome) ((s.putManifest outcome).endFlush none)
  | syncPut {pass stats} (at_r : s.flush = some ⟨pass, .syncPutting, stats⟩) :
      Step s (.syncPut .ok) ((s.putManifest .ok).setStage ⟨pass, .syncPutting, stats⟩
        (.syncCheckpointing false))
  | syncPutFails {pass stats} (outcome : PutOutcome)
      (at_r : s.flush = some ⟨pass, .syncPutting, stats⟩) :
      Step s (.syncPut outcome) ((s.putManifest outcome).endFlush s.returned)
  | syncCkpt {pass stats} (at_r : s.flush = some ⟨pass, .syncCheckpointing false, stats⟩)
      (free : s.ckpt = none) :
      Step s .syncCkpt ((s.setNewCkpt true).setStage ⟨pass, .syncCheckpointing false, stats⟩
        (.syncCheckpointing true))
  | syncDelete {pass stats} {ok : Bool} (at_r : s.flush = some ⟨pass, .syncDeleting, stats⟩) :
      Step s (.syncDelete ok) ((if ok then s.removeFlushing else s).endFlush s.returned)
  | dropDeleting {pass stage stats} {applied : Bool} (at_r : s.flush = some ⟨pass, stage, stats⟩)
      (waits : stage.Deletes) :
      Step s (.dropFlush applied)
        (if applied then s.removeFlushing.dropFlush else s.dropFlush)
  | dropPutting {pass stage stats} {applied : Bool} (at_r : s.flush = some ⟨pass, stage, stats⟩)
      (waits : stage.Puts) :
      Step s (.dropFlush applied)
        (if applied then (s.putManifest .applied).dropFlush else s.dropFlush)
  | dropWaiting {pass stage stats} {applied : Bool} (at_r : s.flush = some ⟨pass, stage, stats⟩)
      (waits : stage.Waits) : Step s (.dropFlush applied) s.dropFlush

/-- What becomes of a flush when a checkpoint ends: one that waits for it goes on. -/
inductive Resumes (ok : Bool) : FlushRun C g → FlushRun C g → Prop
  | clearing {pass stats} : Resumes ok ⟨pass, .checkpointing true, stats⟩ ⟨pass, .clearing ok, stats⟩
  | deleting {pass stats} :
      Resumes ok ⟨pass, .syncCheckpointing true, stats⟩ ⟨pass, .syncDeleting, stats⟩
  | same (r : FlushRun C g) : Resumes ok r r

theorem endCkpt_flush {run : CkptRun} {ok : Bool} {r' : FlushRun C g}
    (found : (s.endCkpt run ok).flush = some r') : ∃ r, s.flush = some r ∧ Resumes ok r r' := by
  simp only [endCkpt] at found
  split at found
  · obtain ⟨⟨pass, stage, stats⟩, at_r, done⟩ := Option.bind_eq_some_iff.mp found
    refine ⟨_, at_r, ?_⟩
    unfold checkpointed at done
    dsimp only at done
    split at done
    · cases done
      exact .clearing
    · split at done
      · cases done
        exact .deleting
      · cases done
    · cases done
      exact .same _
  · exact ⟨r', found, .same r'⟩

theorem startPass_step {pass : Option Nat} {stats : FlushStats}
    (at_r : s.flush = some ⟨pass, .starting, stats⟩) :
    Step s .pass (s.startPass ⟨pass, .starting, stats⟩) := by
  unfold startPass
  dsimp only
  split
  · split
    · rename_i stale
      exact .passStale at_r ((Bool.not_eq_true' _).mp (Bool.and_eq_true_iff.mp stale).2)
    · rename_i busy
      split
      · rename_i active
        refine .passEarly at_r (Bool.or_eq_true_iff.mp active) ?_
        rw [active, Bool.true_and, Bool.not_eq_true', Bool.not_eq_false] at busy
        exact busy
      · rename_i inactive
        simp only [setWritten, Bool.or_eq_true, not_or, Bool.not_eq_true] at inactive
        exact .passOrphan at_r inactive.1 (Option.isSome_eq_false_iff.mp inactive.2 |>
          Option.isNone_iff_eq_none.mp)
  · rename_i missing
    simp only [flushingExists, setWritten, Bool.or_eq_true, not_or, Bool.not_eq_true] at missing
    exact .passRotate at_r (Option.isNone_iff_eq_none.mp (Option.isSome_eq_false_iff.mp missing.1))
      (of_decide_eq_false missing.2)

theorem rotate_step {pass : Option Nat} {stats : FlushStats} {outcome : RotateOutcome}
    (at_r : s.flush = some ⟨pass, .rotating, stats⟩)
    (done : s.rotateDataFile ⟨pass, .rotating, stats⟩ outcome = some t) :
    Step s (.rotate outcome) t := by
  cases outcome with
  | ok =>
    simp only [rotateDataFile] at done
    split at done
    · rename_i named
      cases done
      exact .rotate at_r named
    · cases done
  | renameFails => cases done; exact .renameFails at_r
  | createFails => cases done; exact .createFails at_r
  | undoFails =>
    simp only [rotateDataFile] at done
    split at done
    · rename_i named
      cases done
      exact .undoFails at_r named
    · cases done

theorem dropFlush_step {r : FlushRun C g} {applied : Bool} (at_r : s.flush = some r)
    (taken : (Act.dropFlush applied).flushStep s r = some t) : Step s (.dropFlush applied) t := by
  obtain ⟨pass, stage, stats⟩ := r
  cases stage with
  | removing | emptied | deleting | syncDeleting => cases taken; exact .dropDeleting at_r trivial
  | putting claim plans => cases taken; exact .dropPutting at_r trivial
  | publishing | syncPutting => cases taken; exact .dropPutting at_r trivial
  | starting => cases taken; exact .dropWaiting at_r trivial
  | rotated claim | uploading claim plans pending => cases taken; exact .dropWaiting at_r trivial
  | checkpointing started | syncCheckpointing started =>
    cases taken
    exact .dropWaiting at_r trivial
  | _ => cases taken

theorem flushStep_step {a : Act} {r : FlushRun C g} (at_r : s.flush = some r)
    (taken : a.flushStep s r = some t) : Step s a t := by
  obtain ⟨pass, stage, stats⟩ := r
  cases a with
  | pass =>
    simp only [Act.flushStep] at taken
    split at taken
    · cases taken
      exact startPass_step at_r
    · cases taken
  | removeOrphan ok =>
    simp only [Act.flushStep] at taken
    split at taken
    · cases taken
      cases ok with
      | true => exact .removeOrphan at_r
      | false => exact .keepOrphan at_r
    · cases taken
  | rotate outcome =>
    simp only [Act.flushStep] at taken
    split at taken
    · exact rotate_step at_r taken
    · cases taken
  | cleanEmpty =>
    simp only [Act.flushStep] at taken
    split at taken
    · split at taken
      · rename_i empty
        cases taken
        exact .cleanEmpty at_r empty
      · cases taken
    · cases taken
  | removeEmpty ok =>
    simp only [Act.flushStep] at taken
    split at taken
    · cases taken
      exact .removeEmpty at_r
    · cases taken
  | compute level skipped uncopied =>
    simp only [Act.flushStep] at taken
    split at taken
    · split at taken
      · cases taken
      · rename_i nonempty
        obtain ⟨f, handle, rest⟩ := Option.bind_eq_some_iff.mp taken
        obtain ⟨plans, computed, rfl⟩ := Option.map_eq_some_iff.mp rest
        exact .compute at_r nonempty handle computed
    · cases taken
  | upload k =>
    simp only [Act.flushStep] at taken
    split at taken
    · obtain ⟨p, at_k, rfl⟩ := Option.map_eq_some_iff.mp taken
      exact .upload at_r at_k
    · cases taken
  | append =>
    simp only [Act.flushStep] at taken
    split at taken
    · cases taken
      split
      · rename_i none
        exact .appendNone at_r none
      · exact .append at_r
    · cases taken
  | put outcome =>
    simp only [Act.flushStep] at taken
    split at taken
    · cases taken
      cases outcome with
      | ok => exact .put at_r
      | failed | applied => exact .putFails _ at_r
    · cases taken
  | evict =>
    simp only [Act.flushStep] at taken
    split at taken
    · cases taken
      exact .evict at_r
    · cases taken
  | flushCkpt =>
    simp only [Act.flushStep] at taken
    split at taken
    · obtain ⟨u, started, rfl⟩ := Option.map_eq_some_iff.mp taken
      obtain ⟨free, rfl⟩ := startCkpt_some started
      exact .flushCkpt at_r free
    · cases taken
  | syncCkpt =>
    simp only [Act.flushStep] at taken
    split at taken
    · obtain ⟨u, started, rfl⟩ := Option.map_eq_some_iff.mp taken
      obtain ⟨free, rfl⟩ := startCkpt_some started
      exact .syncCkpt at_r free
    · cases taken
  | clearFlags =>
    simp only [Act.flushStep] at taken
    split at taken
    · cases taken
      exact .clearFlags at_r
    · cases taken
  | dropHandle =>
    simp only [Act.flushStep] at taken
    split at taken
    · rename_i ok
      cases taken
      cases ok with
      | true => exact .dropHandle at_r
      | false => exact .keepFile at_r
    · cases taken
  | deleteFile ok =>
    simp only [Act.flushStep] at taken
    split at taken
    · cases taken
      exact .deleteFile at_r
    · cases taken
  | flushFail =>
    simp only [Act.flushStep] at taken
    split at taken
    · split at taken
      · cases taken
      · cases taken
        exact .computeFails at_r
    · cases taken
      exact .uploadFails at_r
    · cases taken
  | copyBack uncopied =>
    simp only [Act.flushStep] at taken
    split at taken
    · cases taken
      exact .copyBack at_r
    · cases taken
  | unflag =>
    simp only [Act.flushStep] at taken
    split at taken
    · cases taken
      exact .unflag at_r
    · cases taken
  | strand =>
    simp only [Act.flushStep] at taken
    split at taken
    · cases taken
      exact .strand at_r
    · cases taken
  | closeHandle =>
    simp only [Act.flushStep] at taken
    split at taken
    · cases taken
      exact .closeHandle at_r
    · cases taken
  | unlink ok =>
    simp only [Act.flushStep] at taken
    split at taken
    · cases taken
      exact .unlink at_r
    · cases taken
  | redirty =>
    simp only [Act.flushStep] at taken
    split at taken
    · cases taken
      exact .redirty at_r
    · cases taken
  | finish unexplained =>
    simp only [Act.flushStep] at taken
    split at taken
    · split at taken
      · cases taken
        exact .finishPacks at_r
      · split at taken
        · split at taken
          · cases taken
            exact .finishPublish at_r
          · rename_i uploaded
            cases taken
            exact .finishUploaded at_r uploaded
        · split at taken
          · cases taken
            exact .finishFails at_r
          · cases taken
            exact .finishAgain at_r
    · cases taken
  | finishSync =>
    simp only [Act.flushStep] at taken
    split at taken
    · split at taken
      · rename_i uploaded
        obtain ⟨rfl, uploaded⟩ := uploaded
        cases taken
        exact .finishSync at_r uploaded
      · cases taken
    · cases taken
  | publish outcome =>
    simp only [Act.flushStep] at taken
    split at taken
    · cases taken
      cases outcome with
      | ok => exact .publish at_r
      | failed | applied => exact .publishFails _ at_r
    · cases taken
  | syncPut outcome =>
    simp only [Act.flushStep] at taken
    split at taken
    · split at taken
      · rename_i ok
        cases ok
        cases taken
        exact .syncPut at_r
      · cases taken
        exact .syncPutFails _ at_r
    · cases taken
  | syncDelete ok =>
    simp only [Act.flushStep] at taken
    split at taken
    · cases taken
      exact .syncDelete at_r
    · cases taken
  | dropFlush applied => exact dropFlush_step at_r taken
  | _ => cases taken

theorem ckptStep_step {a : Act} {run : CkptRun} (at_run : s.ckpt = some run)
    (taken : a.ckptStep s run = some t) : Step s a t := by
  obtain ⟨mode, coveredSeq, stage, awaited⟩ := run
  cases a with
  | ckptCopy =>
    simp only [Act.ckptStep] at taken
    split at taken
    · split at taken
      · rename_i more
        cases taken
        exact .ckptCopy at_run more
      · cases taken
    · cases taken
  | ckptSeal =>
    simp only [Act.ckptStep] at taken
    split at taken
    · split at taken
      · rename_i whole
        cases whole
        cases taken
        exact .ckptSeal at_run
      · cases taken
    · cases taken
  | ckptPublish =>
    simp only [Act.ckptStep] at taken
    split at taken
    · cases taken
      exact .ckptPublish at_run
    · cases taken
  | ckptTruncate =>
    simp only [Act.ckptStep] at taken
    split at taken
    · split at taken
      · rename_i covered
        cases taken
        exact .ckptTruncate at_run covered
      · cases taken
        exact .ckptKeep at_run
    · cases taken
  | ckptFail => cases taken; exact .ckptFail at_run
  | _ => cases taken

/-- Every step of the cache is one of `Step`. -/
theorem step_cases {a : Act} (taken : a.step s = some t) : Step s a t := by
  cases a with
  | write offset data => exact .write taken
  | zeroRange offset len => exact .zeroRange taken
  | ckptStart =>
    obtain ⟨free, rfl⟩ := startCkpt_some taken
    exact .ckptStart free
  | flushPacks =>
    simp only [Act.step] at taken
    split at taken
    · rename_i free
      cases taken
      exact .flushPacks (Option.isNone_iff_eq_none.mp free.1) free.2
    · cases taken
  | flushToS3 =>
    simp only [Act.step] at taken
    split at taken
    · rename_i free
      cases taken
      exact .flushToS3 (Option.isNone_iff_eq_none.mp free.1) free.2
    · cases taken
  | teardown drainDone =>
    simp only [Act.step] at taken
    split at taken
    · rename_i free
      have idle := Option.isNone_iff_eq_none.mp free.1
      cases drainDone with
      | false => cases taken; exact .teardownUndrained idle free.2
      | true =>
        simp only [Bool.true_eq_false, if_false] at taken
        split at taken
        · rename_i drained
          cases taken
          exact .teardownDrained idle free.2 drained.1 drained.2
        · cases taken
    · cases taken
  | ckptCopy | ckptSeal | ckptPublish | ckptTruncate | ckptFail =>
    obtain ⟨run, at_run, taken⟩ := Option.bind_eq_some_iff.mp taken
    exact ckptStep_step at_run taken
  | _ =>
    obtain ⟨r, at_r, taken⟩ := Option.bind_eq_some_iff.mp taken
    exact flushStep_step at_r taken

end GlideFS.WriteCache
