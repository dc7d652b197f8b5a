import GlideFS.Lib.Bytes
import Mathlib.Data.List.Forall2

/-! # NBD requests and simple replies on the wire

A request is a header of 28 bytes, followed by the data if it is a write. A simple
reply is a header of 16 bytes; a client that has matched it to a request reads the
length of the request behind it if that was a read and the reply has no error, and
nothing otherwise. `readReplies` is that client.
-/

namespace GlideFS.Nbd

open Lib

def nbdRequestMagic : Nat := 0x25609513

def nbdSimpleReplyMagic : Nat := 0x67446698

def nbdRequestHeaderSize : Nat := 28

def nbdSuccess : UInt32 := 0

def nbdEio : UInt32 := 5

def nbdEinval : UInt32 := 22

def nbdEnospc : UInt32 := 28

def nbdErofs : UInt32 := 30

inductive NBDCommand where
  | read
  | write
  | disconnect
  | flush
  | trim
  | cache
  | writeZeroes
  | unknown (id : UInt16) (other : 6 < id)
  deriving DecidableEq

namespace NBDCommand

def id : NBDCommand → UInt16
  | read => 0
  | write => 1
  | disconnect => 2
  | flush => 3
  | trim => 4
  | cache => 5
  | writeZeroes => 6
  | unknown id _ => id

def ofId (id : UInt16) : NBDCommand :=
  if other : 6 < id then .unknown id other
  else
    match id.toNat with
    | 0 => .read
    | 1 => .write
    | 2 => .disconnect
    | 3 => .flush
    | 4 => .trim
    | 5 => .cache
    | _ => .writeZeroes

@[simp] theorem ofId_id (c : NBDCommand) : ofId c.id = c := by
  cases c with
  | unknown id other => simp [NBDCommand.id, ofId, other]
  | _ => rfl

end NBDCommand

structure NBDRequest where
  flags : UInt16
  cmdType : NBDCommand
  cookie : UInt64
  offset : UInt64
  length : UInt32
  deriving DecidableEq

namespace NBDRequest

def toBytes (r : NBDRequest) : List UInt8 :=
  beBytes 4 nbdRequestMagic ++ (beBytes 2 r.flags.toNat ++ (beBytes 2 r.cmdType.id.toNat ++
    (beBytes 8 r.cookie.toNat ++ (beBytes 8 r.offset.toNat ++ beBytes 4 r.length.toNat))))

/-- A header with another magic number is refused. -/
def fromBytes (bytes : List UInt8) : Option NBDRequest := do
  let (magic, bytes) ← readBe 4 bytes
  if magic = nbdRequestMagic then
    let (flags, bytes) ← readBe 2 bytes
    let (cmdType, bytes) ← readBe 2 bytes
    let (cookie, bytes) ← readBe 8 bytes
    let (offset, bytes) ← readBe 8 bytes
    let (length, _) ← readBe 4 bytes
    some ⟨.ofNat flags, .ofId (.ofNat cmdType), .ofNat cookie, .ofNat offset, .ofNat length⟩
  else none

@[simp] theorem length_toBytes (r : NBDRequest) : r.toBytes.length = nbdRequestHeaderSize := by
  simp [toBytes, nbdRequestHeaderSize]

@[simp] theorem fromBytes_toBytes (r : NBDRequest) : fromBytes r.toBytes = some r := by
  have magic : nbdRequestMagic < 256 ^ 4 := by decide
  have last := readBe_beBytes (k := 4) r.length.toNat_lt []
  rw [List.append_nil] at last
  simp only [toBytes, fromBytes, readBe_beBytes magic, Option.bind_eq_bind, Option.bind_some, if_true,
    readBe_beBytes (k := 2) r.flags.toNat_lt, readBe_beBytes (k := 2) r.cmdType.id.toNat_lt,
    readBe_beBytes (k := 8) r.cookie.toNat_lt, readBe_beBytes (k := 8) r.offset.toNat_lt, last]
  simp

/-- The length of the data behind a reply to the request. -/
def payloadLength (r : NBDRequest) (error : UInt32) : Nat :=
  if r.cmdType = .read ∧ error = nbdSuccess then r.length.toNat else 0

end NBDRequest

/-- A request as a client sends it: a write has its data behind it, and only a write. -/
structure ClientRequest where
  request : NBDRequest
  payload : List UInt8
  sized : payload.length = if request.cmdType = .write then request.length.toNat else 0

def ClientRequest.toBytes (c : ClientRequest) : List UInt8 := c.request.toBytes ++ c.payload

/-- The bytes a client sends. -/
def stream (client : List ClientRequest) : List UInt8 := client.flatMap ClientRequest.toBytes

/-- What the server sends for a request: `Response::Simple`. -/
structure Simple where
  cookie : UInt64
  error : UInt32
  data : List UInt8
  deriving DecidableEq

/-- The header of `NBDSimpleReply::new`. -/
def Simple.header (m : Simple) : List UInt8 :=
  beBytes 4 nbdSimpleReplyMagic ++ (beBytes 4 m.error.toNat ++ beBytes 8 m.cookie.toNat)

def Simple.toBytes (m : Simple) : List UInt8 := m.header ++ m.data

/-- A reply as the client takes it from the connection. -/
structure Reply where
  error : UInt32
  payload : List UInt8
  deriving DecidableEq

/-- Reads the reply to a request off the front. -/
def readReply (r : NBDRequest) (bytes : List UInt8) : Option (Reply × List UInt8) := do
  let (magic, bytes) ← readBe 4 bytes
  let (error, bytes) ← readBe 4 bytes
  let (cookie, bytes) ← readBe 8 bytes
  let n := r.payloadLength (.ofNat error)
  if magic = nbdSimpleReplyMagic ∧ cookie = r.cookie.toNat ∧ n ≤ bytes.length then
    some (⟨.ofNat error, bytes.take n⟩, bytes.drop n)
  else none

/-- Reads replies to the given requests, in this order; what is left comes with them. -/
def readReplies : List NBDRequest → List UInt8 → Option (List Reply × List UInt8)
  | [], bytes => some ([], bytes)
  | r :: later, bytes => do
      let (reply, bytes) ← readReply r bytes
      let (replies, bytes) ← readReplies later bytes
      some (reply :: replies, bytes)

/-- The client reads the message as a reply to the request. -/
structure Answers (r : NBDRequest) (m : Simple) : Prop where
  cookie : m.cookie = r.cookie
  payload : m.data.length = r.payloadLength m.error

def Simple.reply (m : Simple) : Reply := ⟨m.error, m.data⟩

theorem Answers.read {r : NBDRequest} {m : Simple} (h : Answers r m) (rest : List UInt8) :
    readReply r (m.toBytes ++ rest) = some (m.reply, rest) := by
  have magic : nbdSimpleReplyMagic < 256 ^ 4 := by decide
  rw [readReply, Simple.toBytes, Simple.header]
  simp only [List.append_assoc, readBe_beBytes magic, readBe_beBytes (k := 4) m.error.toNat_lt,
    readBe_beBytes (k := 8) m.cookie.toNat_lt, Option.bind_eq_bind, Option.bind_some,
    UInt32.ofNat_toNat]
  rw [if_pos ⟨trivial, congrArg UInt64.toNat h.cookie, by simp [h.payload]⟩, List.take_left' h.payload,
    List.drop_left' h.payload]
  rfl

/-- A client that knows which requests are answered reads the messages one after another. -/
theorem readReplies_messages {rs : List NBDRequest} {ms : List Simple} (answers : List.Forall₂ Answers rs ms)
    (rest : List UInt8) :
    readReplies rs (ms.flatMap Simple.toBytes ++ rest) = some (ms.map Simple.reply, rest) := by
  induction answers with
  | nil => rfl
  | cons first _ ih =>
    simp only [List.flatMap_cons, List.append_assoc, readReplies, first.read, Option.bind_eq_bind,
      Option.bind_some, ih, List.map_cons]

end GlideFS.Nbd
