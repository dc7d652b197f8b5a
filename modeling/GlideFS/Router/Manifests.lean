import GlideFS.Lib.Runs
import GlideFS.Router.Fence

/-! # Manifests, their ETags and the fencing token

The fencing token is in three places: the manifest object in S3, the in-memory manifest
of every process that has the export open, and the two fields of its cache that only
`enforce_attach_fence` sets. The requests of all processes run side by side, one access
to one of these places at a time. Requests that take `flush_lock` exclude each other
within a process; `enforce_attach_fence` takes no lock.

A process is one opening of the export: a restart, a resize or a handoff opens it again,
under a new index.
-/

namespace GlideFS.Router

open Lib

/-- The ETags of S3. Objects with one ETag have the same content. -/
structure EtagScheme (E : Type) where
  tag : Nat → Token → E
  tokenOf : E → Token
  tokenOf_tag : ∀ n t, tokenOf (tag n t) = t

/-- The manifest object in S3. -/
structure Object (E : Type) where
  token : Token
  etag : E
deriving DecidableEq

/-- An open export: the token of its in-memory manifest, `manifest_etag`,
    `current_generation` with `current_lease_revision`, and whether `flush_lock` is taken. -/
structure Export (E : Type) where
  manifest : Token
  etag : Option E
  held : Token
  locked : Bool
deriving DecidableEq

/-- A process has not opened the export yet, is creating it from a manifest, has it open, or has
    ended. -/
inductive Life (E : Type) where
  | unborn
  | opening
  | live (x : Export E)
  | gone
deriving DecidableEq

/-- How a call to S3 ends; `applied` is one that is done and reported as failed. -/
inductive Reply where
  | ok
  | failed
  | applied
deriving DecidableEq

/-- Where a request is. -/
inductive Op (E : Type) where
  /-- `enforce_attach_fence` at the head of its loop, with `tries` rounds left. -/
  | fencing (tries : Nat) (my : Token)
  | seizing (tries : Nat) (my accepted : Token)
  | stamping (tries : Nat) (my accepted : Token) (expected : Option E)
  | seizePut (tries : Nat) (my accepted : Token) (expected : Option E)
  | seized (etag : E)
  | contended (tries : Nat) (my : Token)
  | reloading (tries : Nat) (my : Token) (found : Object E)
  | reloaded (tries : Nat) (my : Token) (etag : Option E)
  /-- A flush whose packs are uploaded. -/
  | flushing
  /-- A PUT of the manifest as it is: `sync_manifest`, an idle drain, `publish_tag`, and a
      flush after its stamp. -/
  | syncing (attempts : Nat)
  | serialized (attempts : Nat) (token : Token)
  | put (attempts : Nat) (token : Token) (expected : Option E)
  | stored (etag : E)
  | unlocking
  /-- The manifest reload of `recover_handoff_devices`. -/
  | refreshing
  | refresh (found : Object E)
  | refreshed (etag : E)
  /-- The fork path of `create_export`; `seen` is the ETag of the manifest it read, if that was
      the export's own. -/
  | forkPut (token : Token) (seen : Option E)
deriving DecidableEq

/-- The requests that hold `flush_lock`, and the last sync of a teardown. -/
def Op.Locked {E : Type} : Op E → Bool
  | .flushing | .syncing _ | .serialized _ _ | .put _ _ _ | .stored _ | .unlocking => true
  | _ => false

structure System (ν ι E : Type) where
  s3 : Option (Object E)
  /-- Counts the PUTs, for the ETags. -/
  puts : Nat
  exports : ν → Life E
  ops : ι → Option (ν × Op E)

inductive Act (ν ι : Type) where
  /-- `create_export` without a source manifest. -/
  | openExport (n : ν)
  /-- `create_export` from a manifest: of another name with that token, or the export's own
      (`resize_export`). -/
  | fork (i : ι) (n : ν) (source : Option Token)
  /-- The process ends, or drops the export. -/
  | drop (n : ν)
  | attach (i : ι) (n : ν) (my : Token)
  | flush (i : ι) (n : ν)
  | sync (i : ι) (n : ν)
  /-- The last sync of a teardown, which does not take `flush_lock`. -/
  | teardown (i : ι) (n : ν)
  | handoff (i : ι) (n : ν)
  | run (i : ι) (reply : Reply)

variable {ν ι E : Type} [DecidableEq ν] [DecidableEq ι] [DecidableEq E] (S : EtagScheme E)

namespace System

def initial : System ν ι E where
  s3 := none
  puts := 0
  exports _ := .unborn
  ops _ := none

def setOp (s : System ν ι E) (i : ι) (op : Option (ν × Op E)) : System ν ι E :=
  { s with ops := Function.update s.ops i op }

def setExport (s : System ν ι E) (n : ν) (life : Life E) : System ν ι E :=
  { s with exports := Function.update s.exports n life }

/-- What `put_manifest` stores next. -/
def next (s : System ν ι E) (token : Token) : Object E := ⟨token, S.tag s.puts token⟩

def store (s : System ν ι E) (token : Token) : System ν ι E :=
  { s with s3 := some (s.next S token), puts := s.puts + 1 }

/-- If-Match, or no condition at all. -/
def Matches (s : System ν ι E) : Option E → Bool
  | none => true
  | some e => s.s3.any fun o => o.etag = e

/-- The request begins: its process has the export open and the index is free. -/
def begin (s : System ν ι E) (i : ι) (n : ν) (op : Op E) : Option (System ν ι E) :=
  match s.exports n, s.ops i with
  | .live _, none => some (s.setOp i (some (n, op)))
  | _, _ => none

/-- A request that takes `flush_lock`. -/
def beginLocked (s : System ν ι E) (i : ι) (n : ν) (op : Op E) : Option (System ν ι E) :=
  match s.exports n, s.ops i with
  | .live x, none =>
      if x.locked then none
      else some ((s.setExport n (.live { x with locked := true })).setOp i (some (n, op)))
  | _, _ => none

/-- The export has left the map, so nothing that takes `flush_lock` begins any more. -/
def beginTeardown (s : System ν ι E) (i : ι) (n : ν) (op : Op E) : Option (System ν ι E) :=
  match s.exports n, s.ops i with
  | .live x, none =>
      some ((s.setExport n (.live { x with locked := true })).setOp i (some (n, op)))
  | _, _ => none

/-- A granted attach: it sets the two cache fields, and goes on if it changes the token. -/
def grant (s : System ν ι E) (i : ι) (n : ν) (x : Export E) (tries : Nat) (my : Token) :
    System ν ι E :=
  let accepted := effective x.manifest my
  let held := s.setExport n (.live { x with held := accepted })
  if my = .none ∨ accepted.composite = x.manifest.composite then held.setOp i none
  else held.setOp i (some (n, .seizing tries my accepted))

/-- A PUT of a request, of which `ok` comes next after it is done, `refused` after a failed
    precondition and `error` after another error. -/
def tryPut (s : System ν ι E) (i : ι) (token : Token) (expected : Option E) (reply : Reply)
    (ok : E → Option (ν × Op E)) (refused error : Option (ν × Op E)) : System ν ι E :=
  match reply with
  | .failed => s.setOp i error
  | .ok => if s.Matches expected then (s.store S token).setOp i (ok (s.next S token).etag)
      else s.setOp i refused
  | .applied => if s.Matches expected then (s.store S token).setOp i error else s.setOp i error

/-- A PUT under way when its process ends may still be done. -/
def orphanPut (s : System ν ι E) (i : ι) (token : Token) (expected : Option E) (reply : Reply) :
    System ν ι E :=
  s.tryPut S i token expected reply (fun _ => none) none none

/-- The next access of a request in a process that has the export open. -/
def runLive (s : System ν ι E) (i : ι) (n : ν) (x : Export E) (reply : Reply) :
    Op E → Option (System ν ι E)
  | .fencing 0 _ => some (s.setOp i none)
  | .fencing (tries + 1) my =>
      if fenceAttach x.manifest my = .reject then some (s.setOp i none)
      else some (s.grant i n x tries my)
  | .seizing tries my accepted => some (s.setOp i (some (n, .stamping tries my accepted x.etag)))
  | .stamping tries my accepted expected =>
      some ((s.setExport n (.live { x with manifest := accepted })).setOp i
        (some (n, .seizePut tries my accepted expected)))
  | .seizePut tries my accepted expected =>
      some (s.tryPut S i accepted expected reply (fun e => some (n, .seized e))
        (some (n, .contended tries my)) none)
  | .seized e => some ((s.setExport n (.live { x with etag := some e })).setOp i none)
  | .contended tries my =>
      match reply, s.s3 with
      | .ok, some found => some (s.setOp i (some (n, .reloading tries my found)))
      | .ok, none => some (s.setOp i (some (n, .reloaded tries my none)))
      | _, _ => some (s.setOp i none)
  | .reloading tries my found =>
      some ((s.setExport n (.live { x with manifest := found.token })).setOp i
        (some (n, .reloaded tries my (some found.etag))))
  | .reloaded tries my e =>
      some ((s.setExport n (.live { x with etag := e })).setOp i (some (n, .fencing tries my)))
  | .flushing =>
      some ((s.setExport n (.live { x with manifest := x.held })).setOp i
        (some (n, .syncing 3)))
  | .syncing attempts => some (s.setOp i (some (n, .serialized attempts x.manifest)))
  | .serialized attempts token => some (s.setOp i (some (n, .put attempts token x.etag)))
  | .put 0 _ _ => some (s.setOp i (some (n, .unlocking)))
  | .put (attempts + 1) token expected =>
      some (s.tryPut S i token expected reply (fun e => some (n, .stored e))
        (some (n, .unlocking)) (some (n, .put attempts token expected)))
  | .stored e =>
      some ((s.setExport n (.live { x with etag := some e })).setOp i (some (n, .unlocking)))
  | .unlocking => some ((s.setExport n (.live { x with locked := false })).setOp i none)
  | .refreshing =>
      match reply, s.s3 with
      | .ok, some found => some (s.setOp i (some (n, .refresh found)))
      | _, _ => some (s.setOp i none)
  | .refresh found =>
      some ((s.setExport n (.live { x with manifest := found.token })).setOp i
        (some (n, .refreshed found.etag)))
  | .refreshed e => some ((s.setExport n (.live { x with etag := some e })).setOp i none)
  | .forkPut _ _ => none

end System

open Router.System

def Act.step (s : System ν ι E) : Act ν ι → Option (System ν ι E)
  | .openExport n =>
      if s.exports n = .unborn then
        some (s.setExport n (.live (match s.s3 with
          | some o => ⟨o.token, some o.etag, .none, false⟩
          | none => ⟨.none, none, .none, false⟩)))
      else none
  | .fork i n source =>
      if s.exports n = .unborn ∧ s.ops i = none then
        match source, s.s3 with
        | some token, _ => some ((s.setExport n .opening).setOp i (some (n, .forkPut token none)))
        | none, some o =>
            some ((s.setExport n .opening).setOp i (some (n, .forkPut o.token (some o.etag))))
        | none, none => none
      else none
  | .drop n => if s.exports n = .unborn then none else some (s.setExport n .gone)
  | .attach i n my => s.begin i n (.fencing 3 my)
  | .flush i n => s.beginLocked i n .flushing
  | .sync i n => s.beginLocked i n (.syncing 1)
  | .teardown i n => s.beginTeardown i n (.syncing 1)
  | .handoff i n => s.begin i n .refreshing
  | .run i reply =>
      match s.ops i with
      | none => none
      | some (n, op) =>
          match s.exports n, op with
          | .live x, op => s.runLive S i n x reply op
          | .gone, .seizePut _ _ accepted expected => some (s.orphanPut S i accepted expected reply)
          | .gone, .put _ token expected => some (s.orphanPut S i token expected reply)
          | .gone, .forkPut token _ => some (s.orphanPut S i token none reply)
          | .opening, .forkPut token _ => some (match reply with
              | .ok => ((s.store S token).setExport n
                  (.live ⟨token, some (s.next S token).etag, .none, false⟩)).setOp i none
              | _ => (s.setExport n .gone).orphanPut S i token none reply)
          | _, _ => none

end GlideFS.Router
