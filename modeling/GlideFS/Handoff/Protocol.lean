import GlideFS.Lib.Runs

/-! # The handoff protocol

`run_predecessor` and `run_successor` talk over a SEQPACKET socket. Messages arrive in
order and may wait in the socket for any time. A side that has returned or crashed has
closed its end: what was sent before can still be read there, then reads fail, and
writes fail at once. Every wait for a message can time out.

What a step depends on besides the messages (whether the export set could be fenced,
the handlers frozen, a device recovered) is part of the action.
-/

namespace GlideFS.Handoff

open Lib

def protocolVersion : Nat := 1

structure Capabilities where
  crh : Bool
  piod : Bool
deriving DecidableEq

def Capabilities.current : Capabilities := ⟨true, false⟩

def Capabilities.intersect (a b : Capabilities) : Capabilities := ⟨a.crh && b.crh, a.piod && b.piod⟩

inductive Strategy where
  | crh
  | piod
deriving DecidableEq

/-- There is no other strategy yet. -/
def select (_perIoDaemon : Bool) : Strategy := .crh

structure ExportSnapshot where
  name : String
  ublkDevId : Option Int
deriving DecidableEq

inductive AbortReason where
  | versionMismatch (ours theirs : Nat)
  | noCommonStrategy
  | exportMismatch (missing : List String)
  | freezeFailed
  | exportSetBusy
  | dryRunComplete
deriving DecidableEq

inductive Message where
  | hello (version : Nat) (capabilities : Capabilities) (dryRun : Bool)
  | helloAck (version : Nat) (capabilities : Capabilities) (strategy : Strategy)
      (exports : List ExportSnapshot)
  | ready
  | cutover
  | predsDead
  | alive (recovered : Nat)
  | abort (reason : AbortReason)
deriving DecidableEq

inductive HandoffPhase where
  | idle
  | warming
  | freezing
deriving DecidableEq

/-- Why the predecessor gave up while it was still serving. -/
inductive Cause where
  | connectTimeout
  | helloTimeout
  | readyTimeout
  | unexpected (m : Message)
  | reason (r : AbortReason)
  | successorAborted (r : AbortReason)
deriving DecidableEq

/-- `HandoffOutcome`, or an error. -/
inductive Outcome where
  | succeeded (recovered : Nat)
  | dryRunPassed
  | aborted (cause : Cause)
  | revived
  | error
deriving DecidableEq

/-- Where `run_predecessor` is. At `ending` `run_protocol` has returned, and the phase goes back
    to Idle; at `done` the socket is closed. -/
inductive PredStage where
  | serving
  | accepting
  | awaitHello
  | fencing (negotiated : Capabilities) (dryRun : Bool)
  | awaitReady (dryRun : Bool)
  | freezing
  | sendCutover
  | cutting
  | sendPredsDead
  | awaitAlive
  | reviving
  | unfreezing (cause : Option Cause)
  | ending (outcome : Outcome)
  | done (outcome : Outcome)
  | crashed
deriving DecidableEq

/-- The predecessor: its handlers may be frozen, its caches are in a phase, and it has the
    UblkServer or has dropped it. -/
structure Predecessor where
  stage : PredStage
  phase : HandoffPhase
  frozen : Bool
  ublk : Bool
deriving DecidableEq

/-- Where `run_successor` is. -/
inductive SuccStage where
  | absent
  | connecting
  | awaitAck
  | adopting (strategy : Strategy) (exports : List ExportSnapshot)
  | sendReady (strategy : Strategy) (exports : List ExportSnapshot)
  | awaitCutover (strategy : Strategy) (exports : List ExportSnapshot)
  | awaitPredsDead (strategy : Strategy) (exports : List ExportSnapshot)
  | takeover (strategy : Strategy) (exports : List ExportSnapshot)
  | sendAlive (recovered : Nat)
  | serving (recovered : Nat)
  | failed
  | crashed
deriving DecidableEq

structure System where
  pred : Predecessor
  succ : SuccStage
  dryRun : Bool
  toPred : List Message
  toSucc : List Message
deriving DecidableEq

def PredStage.Closed : PredStage → Bool
  | .done _ | .crashed => true
  | _ => false

def SuccStage.Closed : SuccStage → Bool
  | .serving _ | .failed | .crashed => true
  | _ => false

namespace System

def initial : System where
  pred := ⟨.serving, .idle, false, true⟩
  succ := .absent
  dryRun := false
  toPred := []
  toSucc := []

def setPred (s : System) (stage : PredStage) : System := { s with pred := { s.pred with stage } }

def setSucc (s : System) (stage : SuccStage) : System := { s with succ := stage }

/-- A message to the successor. It is lost if the successor has closed its end. -/
def tell (s : System) (m : Message) : System :=
  if s.succ.Closed then s else { s with toSucc := s.toSucc ++ [m] }

/-- An ABORT, sent without looking at the result, and the end of `run_protocol`. -/
def abort (s : System) (r : AbortReason) : System :=
  (s.tell (.abort r)).setPred (.ending (.aborted (.reason r)))

def giveUp (s : System) (cause : Cause) : System := s.setPred (.ending (.aborted cause))

/-- A message that must be sent: an error ends `run_protocol`. -/
def tellOr (s : System) (m : Message) (next : PredStage) : System :=
  if s.succ.Closed then s.setPred (.ending .error) else (s.tell m).setPred next

/-- The successor's sends: an error ends `run_successor`. -/
def answer (s : System) (m : Message) (next : SuccStage) : System :=
  if s.pred.stage.Closed then s.setSucc .failed
  else { s with toPred := s.toPred ++ [m], succ := next }

end System

inductive Act where
  | start (dryRun : Bool)
  | accept (ok : Bool)
  | predRecv
  | predTimeout
  | fence (ok : Bool) (exports : List ExportSnapshot)
  | freeze (ok : Bool)
  | sendCutover
  | cutover (ok : Bool)
  | sendPredsDead
  | revive (ok : Bool)
  | unfreeze
  | finish
  | predCrash
  | connect (ok : Bool)
  | succRecv
  | succTimeout
  | adopt (missing : List String)
  | sendReady
  | takeover (result : Option Nat)
  | sendAlive
  | succCrash
deriving DecidableEq

namespace System

/-- The predecessor has read `m`. -/
def onPredMessage (s : System) (m : Message) : Option System :=
  match s.pred.stage, m with
  | .awaitHello, .hello version capabilities dryRun =>
      let negotiated := capabilities.intersect .current
      if version ≠ protocolVersion then some (s.abort (.versionMismatch protocolVersion version))
      else if negotiated.crh = false ∧ select false = .crh then some (s.abort .noCommonStrategy)
      else some (s.setPred (.fencing negotiated dryRun))
  | .awaitHello, m => some (s.giveUp (.unexpected m))
  | .awaitReady true, .ready =>
      some ((s.tell (.abort .dryRunComplete)).setPred (.ending .dryRunPassed))
  | .awaitReady false, .ready => some (s.setPred .freezing)
  | .awaitReady _, .abort r => some (s.giveUp (.successorAborted r))
  | .awaitReady _, m => some (s.giveUp (.unexpected m))
  | .awaitAlive, .alive recovered => some (s.setPred (.ending (.succeeded recovered)))
  | .awaitAlive, _ => some (s.setPred .reviving)
  | _, _ => none

/-- The successor has closed its end and nothing is left to read. -/
def onPredError (s : System) : Option System :=
  match s.pred.stage with
  | .awaitHello | .awaitReady _ => some (s.setPred (.ending .error))
  | .awaitAlive => some (s.setPred .reviving)
  | _ => none

def onPredTimeout (s : System) : Option System :=
  match s.pred.stage with
  -- the connection was never accepted: the socket goes with the listener, and the phase stays
  | .accepting => some (s.setPred (.done (.aborted .connectTimeout)))
  | .awaitHello => some (s.giveUp .helloTimeout)
  | .awaitReady _ => some (s.giveUp .readyTimeout)
  | .awaitAlive => some (s.setPred .reviving)
  | _ => none

/-- The successor has read `m`. -/
def onSuccMessage (s : System) (m : Message) : Option System :=
  match s.succ, m with
  | .awaitAck, .helloAck version _ strategy exports =>
      if version ≠ protocolVersion then some (s.setSucc .failed)
      else some (s.setSucc (.adopting strategy exports))
  | .awaitAck, _ => some (s.setSucc .failed)
  | .awaitCutover strategy exports, .cutover => some (s.setSucc (.awaitPredsDead strategy exports))
  | .awaitCutover _ _, _ => some (s.setSucc .failed)
  | .awaitPredsDead strategy exports, .predsDead => some (s.setSucc (.takeover strategy exports))
  | .awaitPredsDead _ _, _ => some (s.setSucc .failed)
  | _, _ => none

/-- A receive of the successor that times out or fails. -/
def onSuccError (s : System) : Option System :=
  match s.succ with
  | .awaitAck | .awaitCutover _ _ | .awaitPredsDead _ _ => some (s.setSucc .failed)
  | _ => none

/-- `predecessor_cutover`: the UblkServer is dropped, also if its shutdown then fails. -/
def cut (s : System) (ok : Bool) : System :=
  { s with pred := { s.pred with ublk := false, stage := if ok then .sendPredsDead else .reviving } }

/-- `revive_after_failed_handoff`: a new UblkServer, or an error that ends `run_protocol`. -/
def revive (s : System) (ok : Bool) : System :=
  if ok then { s with pred := { s.pred with ublk := true, stage := .unfreezing none } }
  else s.setPred (.ending .error)

/-- `unfreeze_all`, after a revival or a failed freeze. -/
def unfreeze (s : System) (cause : Option Cause) : System :=
  { s with pred := { s.pred with
      frozen := false, phase := .idle, stage := .ending (cause.elim .revived .aborted) } }

/-- `freeze_all`, which unfreezes again when a log cannot be synced. -/
def freeze (s : System) (ok : Bool) : System :=
  let frozen := { s with pred := { s.pred with frozen := true, phase := .freezing } }
  if ok then frozen.setPred .sendCutover
  else (frozen.tell (.abort .freezeFailed)).setPred
    (.unfreezing (some (.reason .freezeFailed)))

/-- The devices of the snapshot, or `none` if one could not be recovered. -/
def successorTakeover (exports : List ExportSnapshot) (result : Option Nat) : Option Nat :=
  if (exports.filterMap (·.ublkDevId)).isEmpty then some 0 else result

end System

open Handoff.System

def Act.step (s : System) : Act → Option System
  | .start dryRun =>
      if s.pred.stage = .serving ∧ s.succ = .absent then
        some { s with pred := { s.pred with stage := .accepting, phase := .warming },
                      succ := .connecting, dryRun }
      else none
  | .accept ok =>
      if s.pred.stage = .accepting then
        if ok = false then some (s.setPred (.done .error))
        else if s.succ = .absent ∨ s.succ = .connecting then none
        else some (s.setPred .awaitHello)
      else none
  | .predRecv =>
      match s.toPred with
      | m :: rest => onPredMessage { s with toPred := rest } m
      | [] => if s.succ.Closed then s.onPredError else none
  | .predTimeout => s.onPredTimeout
  | .fence ok exports =>
      match s.pred.stage with
      | .fencing negotiated dryRun =>
          if ok then some ({ s with pred := { s.pred with phase := .warming } }.tellOr
            (.helloAck protocolVersion negotiated (select false) exports) (.awaitReady dryRun))
          else some (s.abort .exportSetBusy)
      | _ => none
  | .freeze ok => if s.pred.stage = .freezing then some (s.freeze ok) else none
  | .sendCutover => if s.pred.stage = .sendCutover then some (s.tellOr .cutover .cutting) else none
  | .cutover ok => if s.pred.stage = .cutting then some (s.cut ok) else none
  | .sendPredsDead =>
      if s.pred.stage = .sendPredsDead then some (s.tellOr .predsDead .awaitAlive) else none
  | .revive ok => if s.pred.stage = .reviving then some (s.revive ok) else none
  | .unfreeze =>
      match s.pred.stage with
      | .unfreezing cause => some (s.unfreeze cause)
      | _ => none
  | .finish =>
      match s.pred.stage with
      | .ending outcome => some { s with pred := { s.pred with phase := .idle, stage := .done outcome } }
      | _ => none
  | .predCrash => some (s.setPred .crashed)
  | .connect ok =>
      if s.succ = .connecting then
        if ok ∧ ¬s.pred.stage.Closed then
          some (s.answer (.hello protocolVersion .current s.dryRun) .awaitAck)
        else some (s.setSucc .failed)
      else none
  | .succRecv =>
      match s.toSucc with
      | m :: rest => onSuccMessage { s with toSucc := rest } m
      | [] => if s.pred.stage.Closed then s.onSuccError else none
  | .succTimeout => s.onSuccError
  | .adopt missing =>
      match s.succ with
      | .adopting strategy exports =>
          if missing = [] then some (s.setSucc (.sendReady strategy exports))
          else some (s.answer (.abort (.exportMismatch missing)) .failed)
      | _ => none
  | .sendReady =>
      match s.succ with
      | .sendReady strategy exports => some (s.answer .ready (.awaitCutover strategy exports))
      | _ => none
  | .takeover result =>
      match s.succ with
      | .takeover strategy exports =>
          if select false ≠ strategy then some (s.setSucc .failed)
          else match successorTakeover exports result with
            | some recovered => some (s.setSucc (.sendAlive recovered))
            | none => some (s.setSucc .failed)
      | _ => none
  | .sendAlive =>
      match s.succ with
      | .sendAlive recovered => some (s.answer (.alive recovered) (.serving recovered))
      | _ => none
  | .succCrash => if s.succ = .absent then none else some (s.setSucc .crashed)

end GlideFS.Handoff
