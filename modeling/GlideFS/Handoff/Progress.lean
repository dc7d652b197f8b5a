import GlideFS.Handoff.Exclusion

/-! # Every handoff ends

Each side only goes forward: every wait ends in a message or in a timeout. In a dry run it goes no
further than READY.
-/

namespace GlideFS.Handoff

open Lib Handoff.System

variable {s t : System} {a : Act}

/-- The steps a predecessor can still take. -/
def PredStage.left : PredStage → Nat
  | .serving => 14
  | .accepting => 13
  | .awaitHello => 12
  | .fencing _ _ => 11
  | .awaitReady _ => 10
  | .freezing => 9
  | .sendCutover => 8
  | .cutting => 7
  | .sendPredsDead => 6
  | .awaitAlive => 5
  | .reviving => 4
  | .unfreezing _ => 3
  | .ending _ => 2
  | .done _ => 1
  | .crashed => 0

def SuccStage.left : SuccStage → Nat
  | .absent => 10
  | .connecting => 9
  | .awaitAck => 8
  | .adopting _ _ => 7
  | .sendReady _ _ => 6
  | .awaitCutover _ _ => 5
  | .awaitPredsDead _ _ => 4
  | .takeover _ _ => 3
  | .sendAlive _ => 2
  | .serving _ | .failed => 1
  | .crashed => 0

/-- A process crashes once. -/
def Act.Fresh (s : System) : Act → Prop
  | .predCrash => s.pred.stage ≠ .crashed
  | .succCrash => s.succ ≠ .crashed
  | _ => True

/-- One side goes on and the other one does not go back. -/
def Down (s t : System) : Prop :=
  t.pred.stage.left ≤ s.pred.stage.left ∧ t.succ.left ≤ s.succ.left ∧
    t.pred.stage.left + t.succ.left < s.pred.stage.left + s.succ.left

theorem onPredMessage_down {m : Message} (taken : s.onPredMessage m = some t) : Down s t := by
  unfold onPredMessage at taken
  grind [Down, PredStage.left, abort, giveUp, setPred, tell_pred, tell_succ]

theorem onSuccMessage_down {m : Message} (taken : s.onSuccMessage m = some t) : Down s t := by
  unfold onSuccMessage at taken
  grind [Down, SuccStage.left, setSucc]

theorem step_down (taken : a.step s = some t) (fresh : a.Fresh s)
    (begun : s.pred.stage ≠ .serving) : Down s t := by
  cases a with
  | start => grind [Act.step]
  | accept | cutover | revive | unfreeze | finish =>
    grind [Act.step, Down, PredStage.left, setPred, cut, revive, unfreeze]
  | predRecv =>
    simp only [Act.step] at taken
    split at taken
    · have moved := onPredMessage_down taken
      exact moved
    · grind [Down, PredStage.left, onPredError, setPred]
  | predTimeout => grind [Act.step, Down, PredStage.left, onPredTimeout, giveUp, setPred]
  | fence | freeze | sendCutover | sendPredsDead =>
    grind [Act.step, Down, PredStage.left, tellOr, abort, freeze, setPred, tell_pred, tell_succ]
  | predCrash =>
    cases taken
    cases at_s : s.pred.stage <;> grind [Down, PredStage.left, setPred, Act.Fresh]
  | connect | adopt | sendReady | sendAlive | takeover | succTimeout =>
    grind [Act.step, Down, SuccStage.left, answer, setSucc, onSuccError]
  | succRecv =>
    simp only [Act.step] at taken
    split at taken
    · have moved := onSuccMessage_down taken
      exact moved
    · grind [Down, SuccStage.left, onSuccError, setSucc]
  | succCrash => cases at_s : s.succ <;> grind [Act.step, Down, SuccStage.left, setSucc, Act.Fresh]

/-- Once begun, a run takes no more steps than are left. -/
theorem steps_down {as : List Act} (run : Steps Act.step Act.Fresh s as t)
    (pred : s.pred.stage.left < 14) (succ : s.succ.left < 10) :
    as.length + t.pred.stage.left + t.succ.left ≤ s.pred.stage.left + s.succ.left ∧
      t.pred.stage.left < 14 ∧ t.succ.left < 10 := by
  induction as generalizing s with
  | nil =>
    cases run
    simp [pred, succ]
  | cons a rest ih =>
    obtain ⟨fresh, u, taken, more⟩ := run
    have begun : s.pred.stage ≠ .serving := fun at_s => by simp [at_s, PredStage.left] at pred
    obtain ⟨low, low', less⟩ := step_down taken fresh begun
    have := ih more (by omega) (by omega)
    rw [List.length_cons]
    omega

/-- A step each side can take whatever the other one does. -/
def PredStage.own : PredStage → Act
  | .accepting | .awaitHello | .awaitReady _ | .awaitAlive => .predTimeout
  | .fencing _ _ => .fence false []
  | .freezing => .freeze true
  | .sendCutover => .sendCutover
  | .cutting => .cutover true
  | .sendPredsDead => .sendPredsDead
  | .reviving => .revive true
  | .unfreezing _ => .unfreeze
  | .serving | .ending _ | .done _ | .crashed => .finish

def SuccStage.own : SuccStage → Act
  | .connecting => .connect false
  | .adopting _ _ => .adopt []
  | .sendReady _ _ => .sendReady
  | .takeover _ _ => .takeover none
  | .sendAlive _ => .sendAlive
  | _ => .succTimeout

theorem pred_own (begun : s.pred.stage.left < 14) (stuck : s.pred.stage.own.step s = none) :
    s.pred.stage.Closed := by
  cases at_s : s.pred.stage <;>
    simp_all [PredStage.own, PredStage.Closed, PredStage.left, Act.step, onPredTimeout]

theorem succ_own (begun : s.succ.left < 10) (stuck : s.succ.own.step s = none) : s.succ.Closed := by
  cases at_s : s.succ <;>
    grind [SuccStage.own, SuccStage.Closed, SuccStage.left, Act.step, onSuccError]

/-- **Every handoff ends.** It takes at most 22 steps, crashes included, and when nothing but a
    crash can happen any more both sides have returned or crashed. -/
theorem handoff_ends {dryRun : Bool} {as : List Act}
    (run : Steps Act.step Act.Fresh .initial (.start dryRun :: as) t) :
    as.length ≤ 22 ∧ ((∀ a : Act, a ≠ .predCrash → a ≠ .succCrash → a.step t = none) →
      t.pred.stage.Closed ∧ t.succ.Closed) := by
  obtain ⟨-, s, began, run⟩ := run
  cases began
  obtain ⟨short, pred, succ⟩ := steps_down run (Nat.lt_succ_self 13) (Nat.lt_succ_self 9)
  have short : as.length + t.pred.stage.left + t.succ.left ≤ 22 := short
  refine ⟨by omega, fun stuck => ⟨pred_own pred (stuck _ ?_ ?_), succ_own succ (stuck _ ?_ ?_)⟩⟩
  · cases t.pred.stage <;> exact nofun
  · cases t.pred.stage <;> exact nofun
  · cases t.succ <;> exact nofun
  · cases t.succ <;> exact nofun

/-- The successor cannot connect. -/
theorem unanswered_handoff_ends : ∃ t : System,
    Steps Act.step Act.Fresh .initial [.start false, .connect false, .predTimeout] t ∧
      t.pred.stage.Closed ∧ t.succ.Closed := by
  have run : Steps Act.step Act.Fresh .initial
      [.start false, .connect false, .predTimeout] _ :=
    ⟨trivial, _, rfl, trivial, _, rfl, trivial, _, rfl, rfl⟩
  refine ⟨_, run, (handoff_ends run).2 fun a _ _ => ?_⟩
  cases a <;> first | rfl | contradiction

/-! ## A rehearsal -/

/-- The stages of a predecessor that was told of a dry run. -/
def PredStage.Dry : PredStage → Prop
  | .fencing _ dryRun | .awaitReady dryRun => dryRun = true
  | .accepting | .awaitHello | .ending _ | .done _ | .crashed => True
  | _ => False

def SuccStage.Dry : SuccStage → Prop
  | .awaitPredsDead _ _ | .takeover _ _ | .sendAlive _ | .serving _ => False
  | _ => True

/-- What a dry run keeps: the successor asks for one in HELLO and gets no CUTOVER. -/
def Rehearsal (s : System) : Prop :=
  s.dryRun = true ∧
    (∀ version capabilities dryRun, .hello version capabilities dryRun ∈ s.toPred → dryRun = true) ∧
    s.pred.stage.Dry ∧ s.pred.frozen = false ∧ s.pred.ublk = true ∧ .cutover ∉ s.toSucc ∧ s.succ.Dry

theorem step_rehearsal (h : Rehearsal s) (taken : a.step s = some t) : Rehearsal t := by
  unfold Rehearsal at h ⊢
  cases a with
  | predRecv =>
    simp only [Act.step] at taken
    split at taken
    · unfold onPredMessage at taken
      grind [PredStage.Dry, setPred, System.tell, abort, giveUp]
    · grind [PredStage.Dry, setPred, onPredError]
  | succRecv =>
    simp only [Act.step] at taken
    unfold onSuccMessage at taken
    grind [SuccStage.Dry, setSucc, onSuccError]
  | start | freeze | sendCutover | cutover | sendPredsDead | revive | unfreeze | takeover
  | sendAlive =>
    grind [Act.step, PredStage.Dry, SuccStage.Dry]
  | accept | predTimeout | fence | finish | predCrash =>
    grind [Act.step, PredStage.Dry, setPred, onPredTimeout, System.tell, tellOr, abort, giveUp]
  | connect | succTimeout | adopt | sendReady | succCrash =>
    grind [Act.step, SuccStage.Dry, setSucc, onSuccError, answer]

/-- **A dry run stops nothing.** Whatever fails in it, the predecessor is never frozen and keeps its
    UblkServer, and the successor does not take over. -/
theorem dry_run_harmless {as : List Act}
    (run : Steps Act.step anyStep .initial (.start true :: as) t) :
    t.pred.frozen = false ∧ t.pred.ublk = true ∧ ¬t.succ.TakesOver := by
  obtain ⟨-, s, began, run⟩ := run
  cases began
  have start : Rehearsal ⟨⟨.accepting, .warming, false, true⟩, .connecting, true, [], []⟩ := by
    simp [Rehearsal, PredStage.Dry, SuccStage.Dry]
  obtain ⟨-, -, -, unfrozen, ublk, -, succ⟩ := (reach_steps run).invariant start
    fun _ _ _ h _ taken => step_rehearsal h taken
  exact ⟨unfrozen, ublk, by cases at_t : t.succ <;> grind [SuccStage.TakesOver, SuccStage.Dry]⟩

/-- The predecessor reads READY and still serves. -/
theorem passed_dry_run : ∃ t : System,
    Steps Act.step anyStep .initial [.start true, .connect true, .accept true, .predRecv,
      .fence true [], .succRecv, .adopt [], .sendReady, .predRecv] t ∧
    t.pred.stage = .ending .dryRunPassed ∧ t.pred.ublk = true := by
  have run : Steps Act.step anyStep .initial [.start true, .connect true, .accept true, .predRecv,
      .fence true [], .succRecv, .adopt [], .sendReady, .predRecv] _ :=
    steps_exec_of rfl fun _ _ _ => trivial
  exact ⟨_, run, rfl, (dry_run_harmless run).2.1⟩

end GlideFS.Handoff
