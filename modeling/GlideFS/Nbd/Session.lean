import GlideFS.Lib.Assemble
import GlideFS.Lib.Runs
import GlideFS.Nbd.Protocol

/-! # A connection in its transmission phase

The reader loop takes requests off the connection one after another. Reads, writes
and the other calls of the handler run as tasks that finish in any order, each with
one message for the channel to the writer task; a flush and a request that is refused
are answered by the loop itself. The writer sends the messages in the order of the
channel, until a disconnect, a shutdown or a failing write ends it.

What a handler call meets is left open: it may return any error or panic. A read of
the handler puts together the blocks it has got without a look at their lengths, so
how many bytes it returns depends on these.
-/

namespace GlideFS.Nbd

open Lib

def maxInflightRequests : Nat := 256

def maxRequestPayload : UInt32 := 32 * 1024 * 1024

inductive CommandError where
  | invalidArgument
  | ioError
  | noSpace
  | readOnly
  | blockEvicted
  | frozen
  deriving DecidableEq

def CommandError.toNbdErrno : CommandError → UInt32
  | invalidArgument => nbdEinval
  | ioError | blockEvicted | frozen => nbdEio
  | noSpace => nbdEnospc
  | readOnly => nbdErofs

/-- How a call of the handler ends. -/
inductive Outcome (α : Type) where
  | ok (a : α)
  | error (e : CommandError)
  | panicked

/-- Code that panics where it has no value. -/
def Outcome.ofOption {α : Type} : Option α → Outcome α
  | some a => .ok a
  | none => .panicked

/-! ## A read of the handler -/

/-- The device behind the connection. -/
structure Export where
  deviceSize : Nat
  blockSize : Nat
  pos : 0 < blockSize

/-- What `WriteCache::read` meets: an error or a panic below it, blocks that are all dirty and
    read from the data file at once, or blocks that are looked up one by one. -/
inductive CacheMet where
  | failed (e : CommandError)
  | panicked
  | onDisk (file : Nat → UInt8)
  | blocks (line : Nat → List UInt8)

structure ReadMet where
  degraded : Bool
  cache : CacheMet

/-- `WriteCache::read`. A slice out of bounds panics. -/
def cacheRead (E : Export) (met : CacheMet) (offset len : Nat) : Outcome (List UInt8) :=
  if E.deviceSize < offset + len then .error .ioError
  else if len = 0 then .ok []
  else
    let first := offset / E.blockSize
    let last := (offset + len - 1) / E.blockSize
    match met with
    | .failed e => .error e
    | .panicked => .panicked
    | .onDisk file => .ok ((List.range' offset len).map file)
    | .blocks line =>
        if first = last then
          let start := offset - first * E.blockSize
          .ofOption (slice (line first) start (min (start + len) (line first).length))
        else .ofOption (assemble E.blockSize line offset len)

/-- `BlockHandler::read`: what lies beyond the device reads as zeros. -/
def handlerRead (E : Export) (met : ReadMet) (offset length : Nat) : Outcome (List UInt8) :=
  if met.degraded then .error .ioError
  else if E.deviceSize ≤ offset then .ok (List.replicate length 0)
  else if length = 0 then .ok []
  else
    let clamped := min length (E.deviceSize - offset)
    match cacheRead E met.cache offset clamped with
    | .ok data =>
        if clamped < length then .ok ((data ++ List.replicate length 0).take length) else .ok data
    | .error e => .error e
    | .panicked => .panicked

/-! ## The session -/

inductive Response where
  | simple (m : Simple)
  | disconnect
  | shutdown
  deriving DecidableEq

/-- A request that is being worked on; a write whose data could not be read has none. -/
structure Task where
  request : NBDRequest
  data : Bool

structure Session where
  /-- What the client sends and the reader has not taken yet. -/
  input : List UInt8
  reading : Bool
  /-- The cancellation token of the connection. -/
  cancelled : Bool
  tasks : List Task
  queue : List Response
  writing : Bool
  sent : List UInt8
  /-- The requests taken so far. -/
  taken : List NBDRequest

def Session.start (client : List ClientRequest) : Session :=
  ⟨stream client, true, false, [], [], true, [], []⟩

namespace Session

/-- A message to the writer is lost once the writer is gone. -/
def send (s : Session) (m : Response) : Session :=
  if s.writing then { s with queue := s.queue ++ [m] } else s

/-- The writer's end cancels the connection. -/
def close (s : Session) : Session := { s with writing := false, cancelled := true }

def spawn (s : Session) (r : NBDRequest) (data : Bool) : Session :=
  { s with tasks := s.tasks ++ [⟨r, data⟩] }

def take (s : Session) (r : NBDRequest) (rest : List UInt8) : Session :=
  { s with input := rest, taken := s.taken ++ [r] }

@[simp] theorem send_input (s : Session) (m : Response) : (s.send m).input = s.input := by
  rw [send]
  split <;> rfl

@[simp] theorem send_taken (s : Session) (m : Response) : (s.send m).taken = s.taken := by
  rw [send]
  split <;> rfl

@[simp] theorem send_reading (s : Session) (m : Response) : (s.send m).reading = s.reading := by
  rw [send]
  split <;> rfl

end Session

def refusal (r : NBDRequest) : Response := .simple ⟨r.cookie, CommandError.invalidArgument.toNbdErrno, []⟩

/-- The message of a call that returns no data. -/
def callResponse (r : NBDRequest) : Outcome Unit → Response
  | .ok () => .simple ⟨r.cookie, nbdSuccess, []⟩
  | .error e => .simple ⟨r.cookie, e.toNbdErrno, []⟩
  | .panicked => .simple ⟨r.cookie, nbdEio, []⟩

/-- The message of a read; errors and panics come with zeros of the requested length. -/
def readResponse (E : Export) (r : NBDRequest) (met : ReadMet) : Response :=
  let zeros := List.replicate r.length.toNat 0
  match handlerRead E met r.offset.toNat r.length.toNat with
  | .ok data => .simple ⟨r.cookie, nbdSuccess, data⟩
  | .error e => .simple ⟨r.cookie, e.toNbdErrno, zeros⟩
  | .panicked => .simple ⟨r.cookie, nbdEio, zeros⟩

def cancels : Outcome Unit → Bool
  | .panicked => true
  | _ => false

/-- The loop's work on a request that is not too long, once it has been taken. -/
def dispatch (s : Session) (r : NBDRequest) (flushed : Outcome Unit) : Option Session :=
  match r.cmdType with
  | .read | .write | .trim | .writeZeroes | .cache =>
      if s.tasks.length < maxInflightRequests then some (s.spawn r true) else none
  | .disconnect =>
      if s.tasks.isEmpty then some { s.send .disconnect with reading := false } else none
  | .flush =>
      if s.tasks.isEmpty then
        some ({ s with cancelled := s.cancelled || cancels flushed }.send (callResponse r flushed))
      else none
  | .unknown _ _ => some (s.send (refusal r))

/-- The loop takes the next request. `flushed` is the outcome of the handler's flush, if the
    request asks for one. -/
def receive (s : Session) (flushed : Outcome Unit) : Option Session :=
  if s.reading = false ∨ s.input.length < nbdRequestHeaderSize then none
  else
    match NBDRequest.fromBytes (s.input.take nbdRequestHeaderSize) with
    | none => some { s with reading := false }
    | some r =>
        let rest := s.input.drop nbdRequestHeaderSize
        let size := if r.cmdType = .write then r.length.toNat else 0
        if rest.length < size then none
        else if maxRequestPayload < r.length then some ((s.take r (rest.drop size)).send (refusal r))
        else dispatch (s.take r (rest.drop size)) r flushed

/-- The connection fails while the loop reads the data of a write: the call is made to fail, or
    the loop ends if it only wanted to skip the data. -/
def cutOff (s : Session) : Option Session :=
  if s.reading = false ∨ s.input.length < nbdRequestHeaderSize then none
  else
    match NBDRequest.fromBytes (s.input.take nbdRequestHeaderSize) with
    | none => none
    | some r =>
        if r.cmdType = .write ∧ r.length ≠ 0 then
          if maxRequestPayload < r.length then some { s with input := [], reading := false }
          else if s.tasks.length < maxInflightRequests then some ((s.take r []).spawn r false)
          else none
        else none

inductive Act where
  | receive (flushed : Outcome Unit)
  | cutOff
  /-- The loop finds the connection closed, or fails to read from it. -/
  | hangUp
  /-- The loop finds its token cancelled. -/
  | stop
  | finishRead (i : Nat) (met : ReadMet)
  | finish (i : Nat) (outcome : Outcome Unit)
  /-- The writer takes the next message. -/
  | write
  /-- Writing fails, after this many bytes of the next message. -/
  | fail (n : Nat)
  /-- The writer finds that no message is left and nobody can send one. -/
  | drained

def finishRead (E : Export) (s : Session) (i : Nat) (met : ReadMet) : Option Session :=
  match s.tasks[i]? with
  | some task =>
      if task.request.cmdType = .read then
        some ({ s with tasks := s.tasks.eraseIdx i }.send (readResponse E task.request met))
      else none
  | none => none

/-- A panic cancels the connection, except that of a cache hint. -/
def finish (s : Session) (i : Nat) (outcome : Outcome Unit) : Option Session :=
  match s.tasks[i]? with
  | some task =>
      if task.request.cmdType = .read then none
      else
        let outcome := if task.data then outcome else .error .ioError
        let panicked := cancels outcome && task.request.cmdType ≠ .cache
        some ({ s with
          tasks := s.tasks.eraseIdx i
          cancelled := s.cancelled || panicked }.send (callResponse task.request outcome))
  | none => none

/-- `response_writer`, one message at a time. -/
def writeNext (s : Session) : Option Session :=
  if s.writing then
    match s.queue with
    | .simple m :: rest => some { s with queue := rest, sent := s.sent ++ m.toBytes }
    | .disconnect :: rest | .shutdown :: rest => some { s with queue := rest }.close
    | [] => none
  else none

def writeFails (s : Session) (n : Nat) : Option Session :=
  if s.writing then
    match s.queue with
    | .simple m :: _ => some { s with sent := s.sent ++ m.toBytes.take n }.close
    | _ => some s.close
  else none

def step (E : Export) (s : Session) : Act → Option Session
  | .receive flushed => receive s flushed
  | .cutOff => cutOff s
  | .hangUp => if s.reading then some { s.send .shutdown with reading := false } else none
  | .stop =>
      if s.reading && s.cancelled then some { s.send .shutdown with reading := false } else none
  | .finishRead i met => finishRead E s i met
  | .finish i outcome => finish s i outcome
  | .write => writeNext s
  | .fail n => writeFails s n
  | .drained =>
      if s.writing && !s.reading && s.tasks.isEmpty && s.queue.isEmpty then some s.close else none

end GlideFS.Nbd
