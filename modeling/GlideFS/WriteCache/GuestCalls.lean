import GlideFS.WriteCache.Cache

/-! # Guest calls on the cache, one atomic step at a time

The entry points that a guest's writes, trims and zero-copy writes go through, and
the claims on blocks that their callers take. Every load, compare-and-swap, lock
and disk access on shared data is a step of its own, and the steps of all calls
interleave with each other, with rotations and evictions of the flush, and with
the fence latch.

The data files are byte-addressed. Locks are `data_file` (readers, one writer) and
the mutex of the claim map, which `write_materialized` holds across its commit;
`gates` are the guards that zero-copy I/O holds on `data_file`.
-/

namespace GlideFS.WriteCache.Guest

open Block Lib

abbrev Bytes := Nat → UInt8

/-- `write_all_at`. -/
def Bytes.write (f : Bytes) (offset : Nat) (data : List UInt8) : Bytes :=
  fun i => if offset ≤ i then (data[i - offset]?).getD (f i) else f i

/-- A claim on a block, held by a promoter, by `try_claim_block` or by a materialization. -/
structure ClaimSlot where
  token : Nat
  valid : Bool
  materializing : Bool

inductive CacheError where
  | fenced
  | offsetOutOfBounds
  | blockEvicted
  | io
deriving DecidableEq

inductive Result where
  | ok
  /-- `write_materialized`. -/
  | landed (landed : Bool)
  /-- `try_claim_block`, `unclaim_block`, `unclaim`. -/
  | won (won : Bool)
  /-- `claim_block_for_materialization`. -/
  | claimed (token : Option Nat)
  | error (e : CacheError)
deriving DecidableEq

/-- What all calls share. `token` is the composite of `current_generation` and
    `current_lease_revision`. -/
structure Cells where
  states : Nat → SparseBlockState
  active : Bytes
  flushing : Option Bytes
  claims : Nat → Option ClaimSlot
  nextToken : Nat
  sequence : Nat
  wal : List (Nat × Nat)
  readers : List Nat
  writer : Option Nat
  gates : List Nat
  mutex : Option Nat
  token : Nat
  fenced : Bool

inductive Entry where
  | write (offset : Nat) (data : List UInt8)
  | writeWithEvictionCheck (offset : Nat) (data : List UInt8)
  | zeroRange (offset len : Nat)
  | writeMaterialized (offset : Nat) (data : List UInt8) (block token : Nat)
  | preWrite (offset len : Nat)
  | pwriteAndCommit (offset : Nat) (data : List UInt8)
  | zcPromoteForWriteWith (gate offset length : Nat)
  /-- The kernel's `WRITE_FIXED`. -/
  | writeFixed (gate offset : Nat) (data : List UInt8)
  | commitAfterZcWriteWith (gate offset length : Nat)
  | tryClaimBlock (block : Nat)
  | unclaimBlock (block : Nat)
  | claimBlockForMaterialization (block : Nat)
  | unclaim (block token : Nat)
  /-- `Drop for MaterializationClaim`. -/
  | dropClaim (block token : Nat)

namespace Entry

def offset : Entry → Nat
  | write offset _ | writeWithEvictionCheck offset _ | zeroRange offset _
  | writeMaterialized offset _ _ _ | preWrite offset _ | pwriteAndCommit offset _
  | zcPromoteForWriteWith _ offset _ | writeFixed _ offset _
  | commitAfterZcWriteWith _ offset _ => offset
  | _ => 0

def len : Entry → Nat
  | write _ data | writeWithEvictionCheck _ data | writeMaterialized _ data _ _
  | pwriteAndCommit _ data | writeFixed _ _ data => data.length
  | zeroRange _ len | preWrite _ len | zcPromoteForWriteWith _ _ len
  | commitAfterZcWriteWith _ _ len => len
  | _ => 0

/-- The bytes that the call puts into the data file. -/
def data : Entry → List UInt8
  | write _ data | writeWithEvictionCheck _ data | writeMaterialized _ data _ _
  | pwriteAndCommit _ data | writeFixed _ _ data => data
  | zeroRange _ len => List.replicate len 0
  | _ => []

/-- The gate the caller of a zero-copy step holds. -/
def gate : Entry → Option Nat
  | zcPromoteForWriteWith gate _ _ | writeFixed gate _ _ | commitAfterZcWriteWith gate _ _ =>
      some gate
  | _ => none

variable (g : Geometry)

def firstBlock (e : Entry) : Nat := e.offset / g.blockSize

def lastBlock (e : Entry) : Nat := (e.offset + e.len - 1) / g.blockSize

/-- `require_promotion`. -/
def requirePromotion : Entry → Bool
  | writeWithEvictionCheck .. | pwriteAndCommit .. => true
  | zcPromoteForWriteWith _ offset length =>
      ¬(offset % g.blockSize = 0 ∧ length % g.blockSize = 0)
  | _ => false

/-- Whether the function itself takes `data_file`. -/
def locks : Entry → Bool
  | write .. | writeWithEvictionCheck .. | zeroRange .. | writeMaterialized ..
  | pwriteAndCommit .. => true
  | _ => false

end Entry

/-- Where the drop of a promote claim leads. -/
inductive After where
  | again (ff : Bytes) (b : Nat)
  | next (ff : Bytes) (b : Nat)
  | done (r : Result)

/-- The next atomic step of a call. -/
inductive Pc where
  | enter
  /-- `write_inner` after the fence check. -/
  | checked
  | lock
  -- `promote_syncing_blocks`; `ff` is the clone of `flushing_file`, `b` the block of the loop
  | cloneFlushing
  | promote (ff : Bytes) (b : Nat)
  | cleanClaimed (ff : Bytes) (b : Nat)
  | claim (ff : Bytes) (b : Nat) (state : SparseBlockState)
  | steal (ff : Bytes) (b : Nat)
  | wait (ff : Bytes) (b : Nat)
  | reread (ff : Bytes) (b : Nat) (state : SparseBlockState) (token : Nat)
  | copy (ff : Bytes) (b : Nat) (state : SparseBlockState) (token : Nat)
  | cas (ff : Bytes) (b : Nat) (state : SparseBlockState) (token : Nat)
  | release (b token : Nat) (after : After)
  -- its branch without a flushing file
  | recheck (b : Nat)
  | recheckClaimed (b : Nat)
  -- `set_present`
  | present (b : Nat)
  | invalidate (b : Nat)
  | setPresent (b : Nat)
  /-- `if_valid` and the state check of `write_materialized`. -/
  | validate
  | data
  -- `wal_append_and_mark_dirty`
  | mark (b : Nat) (batch : List (Nat × Nat))
  | sequence (b : Nat) (batch : List (Nat × Nat))
  | append (batch : List (Nat × Nat))
  -- the claims
  | take (block : Nat) (materializing : Bool)
  | trySetPresent (block token : Nat) (materializing : Bool)
  | giveBack (block : Nat) (token : Option Nat)
  | unlock (r : Result)
  | returned (r : Result)

structure Call where
  entry : Entry
  pc : Pc

namespace Entry

variable (g : Geometry)

/-- Returns `r`, after the lock is dropped. -/
def finish (e : Entry) (r : Result) : Pc := if e.locks then .unlock r else .returned r

/-- What follows `promote_syncing_blocks`. -/
def promoted (e : Entry) : Pc :=
  match e with
  | write .. | writeWithEvictionCheck .. | zeroRange .. => .present (e.firstBlock g)
  | zcPromoteForWriteWith .. => .returned .ok
  | _ => .data

/-- What follows the `set_present` loop. -/
def presented : Entry → Pc
  | preWrite .. => .returned .ok
  | _ => .data

/-- What follows the data write. -/
def wrote (e : Entry) : Pc :=
  match e with
  | writeFixed .. => .returned .ok
  | _ => .mark (e.firstBlock g) []

/-- What follows `wal_append_and_mark_dirty`. -/
def appended (e : Entry) : Pc :=
  match e with
  | writeMaterialized .. => .unlock (.landed true)
  | _ => e.finish .ok

def nextPromote (e : Entry) (ff : Bytes) (b : Nat) : Pc :=
  if b < e.lastBlock g then .promote ff (b + 1) else e.promoted g

def nextRecheck (e : Entry) (b : Nat) : Pc :=
  if b < e.lastBlock g then .recheck (b + 1) else e.promoted g

def nextPresent (e : Entry) (b : Nat) : Pc :=
  if b < e.lastBlock g then .present (b + 1) else e.presented

def nextMark (e : Entry) (b : Nat) (batch : List (Nat × Nat)) : Pc :=
  if b < e.lastBlock g then .mark (b + 1) batch else .append batch

def afterRelease (e : Entry) : After → Pc
  | .again ff b => .promote ff b
  | .next ff b => e.nextPromote g ff b
  | .done r => e.finish r

/-- The statements of each function before its first access to shared data, the fence
    check of `write_inner` included. -/
def enter (e : Entry) (fenced : Bool) : Pc :=
  match e with
  | write .. | writeWithEvictionCheck .. =>
      if fenced then .returned (.error .fenced) else .checked
  | zeroRange offset len =>
      if len = 0 then .returned .ok
      else if g.size < offset + len then .returned (.error .offsetOutOfBounds)
      else .lock
  | writeMaterialized offset data _ _ =>
      if data = [] then .returned (.landed true)
      else if g.size < offset + data.length then .returned (.error .offsetOutOfBounds)
      else .lock
  | preWrite offset len =>
      if g.size < offset + len then .returned (.error .offsetOutOfBounds)
      else if len = 0 then .returned .ok
      else .present (e.firstBlock g)
  | pwriteAndCommit _ data => if data = [] then .returned .ok else .lock
  | zcPromoteForWriteWith _ _ length => if length = 0 then .returned .ok else .cloneFlushing
  | writeFixed .. => .data
  | commitAfterZcWriteWith _ _ length =>
      if length = 0 then .returned .ok else .mark (e.firstBlock g) []
  | tryClaimBlock block => .take block false
  | claimBlockForMaterialization block => .take block true
  | unclaimBlock block => .giveBack block none
  | unclaim block token => .giveBack block (some token)
  | dropClaim block token => .release block token (.done .ok)

end Entry

namespace Cells

def setState (m : Cells) (b : Nat) (state : SparseBlockState) : Cells :=
  { m with states := Function.update m.states b state }

def setClaim (m : Cells) (b : Nat) (slot : Option ClaimSlot) : Cells :=
  { m with claims := Function.update m.claims b slot }

/-- `state_map.cas`. -/
def cas (m : Cells) (b : Nat) (expected new : SparseBlockState) : Cells :=
  if m.states b = expected then m.setState b new else m

@[simp] theorem setState_fenced (m : Cells) (b : Nat) (state : SparseBlockState) :
    (m.setState b state).fenced = m.fenced := rfl

@[simp] theorem setClaim_fenced (m : Cells) (b : Nat) (slot : Option ClaimSlot) :
    (m.setClaim b slot).fenced = m.fenced := rfl

@[simp] theorem cas_fenced (m : Cells) (b : Nat) (expected new : SparseBlockState) :
    (m.cas b expected new).fenced = m.fenced := by
  unfold cas
  split <;> rfl

/-- `data_file` can be locked for writing. -/
def unlocked (m : Cells) : Bool := m.writer = none ∧ m.readers = [] ∧ m.gates = []

/-- The slot is the live claim with this token. -/
def isValid (m : Cells) (b token : Nat) : Bool :=
  (m.claims b).any fun slot => slot.valid && slot.token = token

end Cells

/-- The bytes of block `b` inside the device, as `promote_syncing_blocks` copies them. -/
def blockBytes (g : Geometry) (f : Bytes) (b : Nat) : List UInt8 :=
  (List.range (min g.blockSize (g.size - b * g.blockSize))).map fun i => f (b * g.blockSize + i)

/-- One atomic step of a call. `io` is `some n` when a disk access fails, after `n` bytes of a
    data write or `n` entries of a log append, and when a wait runs into its deadline. -/
def Call.run (g : Geometry) (id : Nat) (m : Cells) (c : Call) (io : Option Nat) :
    Option (Cells × Pc) :=
  let e := c.entry
  match c.pc with
  | .enter => some (m, e.enter g m.fenced)
  | .checked =>
      if g.size < e.offset + e.len then some (m, .returned (.error .offsetOutOfBounds))
      else if e.len = 0 then some (m, .returned .ok)
      else some (m, .lock)
  | .lock =>
      match e with
      | .writeMaterialized .. =>
          if m.unlocked then some ({ m with writer := some id }, .validate) else none
      | _ =>
          if m.writer = none then some ({ m with readers := id :: m.readers }, .cloneFlushing)
          else none
  | .cloneFlushing =>
      match m.flushing with
      | some ff => some (m, .promote ff (e.firstBlock g))
      | none =>
          if e.requirePromotion g then some (m, .recheck (e.firstBlock g))
          else some (m, e.promoted g)
  | .promote ff b =>
      if numBlocks g ≤ b then some (m, e.nextPromote g ff b)
      else match m.states b with
        | .clean =>
            if e.requirePromotion g then some (m, .cleanClaimed ff b)
            else some (m, e.nextPromote g ff b)
        | .dirty => some (m, e.nextPromote g ff b)
        | state => some (m, .claim ff b state)
  | .cleanClaimed ff b =>
      if m.mutex ≠ none then none
      else if (m.claims b).isSome then some (m, e.finish (.error .blockEvicted))
      else some (m, e.nextPromote g ff b)
  | .claim ff b state =>
      if m.mutex ≠ none then none
      else
        let m' := { m with nextToken := m.nextToken + 1 }
        match m.claims b with
        | none => some (m'.setClaim b (some ⟨m.nextToken, true, false⟩),
            .reread ff b state m.nextToken)
        | some _ =>
            if state = .syncing then some (m', .steal ff b) else some (m', .wait ff b)
  | .steal ff b =>
      if m.mutex ≠ none then none
      else if (m.claims b).any ClaimSlot.materializing then
        some ({ m with nextToken := m.nextToken + 1 }.setClaim b (some ⟨m.nextToken, true, false⟩),
          .reread ff b .syncing m.nextToken)
      else some (m, .wait ff b)
  | .wait ff b =>
      if m.mutex ≠ none then none
      else if (m.claims b).isNone then some (m, .promote ff b)
      else match io with
        | none => none
        | some _ =>
            if e.requirePromotion g then some (m, e.finish (.error .blockEvicted))
            else some (m, .promote ff b)
  | .reread ff b state token =>
      if m.states b ≠ state then some (m, .release b token (.again ff b))
      else match io with
        | some _ => some (m, .release b token (.done (.error .io)))
        | none =>
            if state = .notPresent ∧ (blockBytes g ff b).all (· = 0) then
              some (m, .release b token
                (if e.requirePromotion g then .done (.error .blockEvicted) else .next ff b))
            else some (m, .copy ff b state token)
  | .copy ff b state token =>
      match io with
      | some n =>
          some ({ m with active :=
            m.active.write (b * g.blockSize) ((blockBytes g ff b).take n) },
            .release b token (.done (.error .io)))
      | none =>
          some ({ m with active := m.active.write (b * g.blockSize) (blockBytes g ff b) },
            .cas ff b state token)
  | .cas ff b state token => some (m.cas b state .dirty, .release b token (.next ff b))
  | .release b token after =>
      if m.mutex ≠ none then none
      else if (m.claims b).any fun slot => slot.token = token then
        some (m.setClaim b none, e.afterRelease g after)
      else some (m, e.afterRelease g after)
  | .recheck b =>
      if numBlocks g ≤ b then some (m, e.nextRecheck g b)
      else match m.states b with
        | .clean => some (m, .recheckClaimed b)
        | .dirty => some (m, e.nextRecheck g b)
        | _ => some (m, e.finish (.error .blockEvicted))
  | .recheckClaimed b =>
      if m.mutex ≠ none then none
      else if (m.claims b).isSome then some (m, e.finish (.error .blockEvicted))
      else some (m, e.nextRecheck g b)
  | .present b =>
      if b < numBlocks g ∧ m.states b = .notPresent then some (m, .invalidate b)
      else some (m, e.nextPresent g b)
  | .invalidate b =>
      if m.mutex ≠ none then none
      else some (m.setClaim b ((m.claims b).map fun slot => { slot with valid := false }),
        .setPresent b)
  | .setPresent b => some (m.cas b .notPresent .clean, e.nextPresent g b)
  | .validate =>
      match e with
      | .writeMaterialized _ _ block token =>
          if m.mutex ≠ none then none
          else if m.isValid block token ∧ m.states block = .clean then
            some ({ m with mutex := some id }, .data)
          else some (m, .unlock (.landed false))
      | _ => none
  | .data =>
      match io with
      | some n =>
          some ({ m with active := m.active.write e.offset (e.data.take n) },
            e.finish (.error .io))
      | none => some ({ m with active := m.active.write e.offset e.data }, e.wrote g)
  | .mark b batch =>
      if b < numBlocks g ∧ m.states b ≠ .dirty then
        some (m.setState b .dirty, .sequence b batch)
      else some (m, e.nextMark g b batch)
  | .sequence b batch =>
      some ({ m with sequence := m.sequence + 1 },
        e.nextMark g b (batch ++ [(b, m.sequence + 1)]))
  | .append batch =>
      if batch = [] then some (m, e.appended)
      else match io with
        | some n => some ({ m with wal := m.wal ++ batch.take n }, e.finish (.error .io))
        | none => some ({ m with wal := m.wal ++ batch }, e.appended)
  | .take block materializing =>
      if m.mutex ≠ none then none
      else
        let m' := { m with nextToken := m.nextToken + 1 }
        match m.claims block with
        | none => some (m'.setClaim block (some ⟨m.nextToken, true, materializing⟩),
            .trySetPresent block m.nextToken materializing)
        | some _ => some (m',
            .returned (if materializing then .claimed none else .won false))
  | .trySetPresent block token materializing =>
      let won := block < numBlocks g ∧ m.states block = .notPresent
      let m' := if won then m.setState block .clean else m
      if materializing then
        if won then some (m', .returned (.claimed (some token)))
        else some (m', .release block token (.done (.claimed none)))
      else some (m', .release block token (.done (.won won)))
  | .giveBack block token =>
      match token with
      | none => some (m.cas block .clean .notPresent,
          .returned (.won (m.states block = .clean)))
      | some token =>
          if m.mutex ≠ none then none
          else if m.isValid block token then
            some (m.cas block .clean .notPresent, .returned (.won (m.states block = .clean)))
          else some (m, .returned (.won false))
  | .unlock r =>
      some ({ m with
        readers := m.readers.erase id
        writer := if m.writer = some id then none else m.writer
        mutex := if m.mutex = some id then none else m.mutex }, .returned r)
  | .returned _ => none

/-! ## The whole cache -/

structure State where
  cells : Cells
  calls : Nat → Option Call

inductive Act where
  | call (id : Nat) (e : Entry)
  | run (id : Nat) (io : Option Nat)
  /-- `zc_inflight_enter`, and the drop of its guard. -/
  | enterGate (gate : Nat)
  | leaveGate (gate : Nat)
  -- the flush
  | rotate
  | evict (b : Nat)
  | dropFlushing
  /-- The recovery of a failed flush: a block is copied back and DIRTY again, or, when the
      copy fails, given up. -/
  | copyBack (b : Nat)
  | redirty (b : Nat)
  | strand (b : Nat)
  -- the fence token
  | grant (token : Nat)
  /-- `fenced_by_newer_token`, which read this token from the manifest in S3. -/
  | compareToken (s3Token : Nat)

/-- The steps of the flush and of the fence. -/
def Cells.background (g : Geometry) (m : Cells) : Act → Option Cells
  | .enterGate gate =>
      if m.writer = none ∧ gate ∉ m.gates then some { m with gates := gate :: m.gates } else none
  | .leaveGate gate => some { m with gates := m.gates.erase gate }
  | .rotate =>
      if m.unlocked ∧ m.flushing.isNone then
        some { m with
          active := fun _ => 0
          flushing := some m.active
          states := fun b => if m.states b = .dirty then .syncing else m.states b }
      else none
  | .evict b => if m.unlocked then some (m.cas b .syncing .notPresent) else none
  | .dropFlushing => some { m with flushing := none }
  | .copyBack b =>
      match m.flushing with
      | some ff =>
          if m.unlocked ∧ m.states b = .syncing then
            some { m with active := m.active.write (b * g.blockSize) (blockBytes g ff b) }
          else none
      | none => none
  | .redirty b => some (m.setState b .dirty)
  | .strand b => some (m.cas b .syncing .notPresent)
  | .grant token => some { m with token }
  | .compareToken s3Token =>
      if m.token ≠ 0 ∧ m.token < s3Token then some { m with fenced := true } else some m
  | .call .. | .run .. => none

def step (g : Geometry) (s : State) : Act → Option State
  | .call id e =>
      if (∀ gate ∈ e.gate, gate ∈ s.cells.gates) ∧ (s.calls id).isNone then
        some { s with calls := Function.update s.calls id (some ⟨e, .enter⟩) }
      else none
  | .run id io => do
      let call ← s.calls id
      let (cells, pc) ← call.run g id s.cells io
      some { cells, calls := Function.update s.calls id (some { call with pc }) }
  | a => (s.cells.background g a).map fun cells => { s with cells }

/-- A step begins a call, runs one, or is one of the background. -/
theorem step_cases {g : Geometry} {s t : State} {a : Act} (h : step g s a = some t) :
    (∃ id e, a = .call id e ∧ (∀ gate ∈ e.gate, gate ∈ s.cells.gates) ∧ s.calls id = none ∧
        t = { s with calls := Function.update s.calls id (some ⟨e, .enter⟩) }) ∨
      (∃ id io c cells pc, a = .run id io ∧ s.calls id = some c ∧
        c.run g id s.cells io = some (cells, pc) ∧
        t = { cells, calls := Function.update s.calls id (some { c with pc }) }) ∨
      ∃ cells, s.cells.background g a = some cells ∧ t = { s with cells } := by
  cases a with
  | call id e =>
    simp only [step, Option.isNone_iff_eq_none] at h
    split at h
    · rename_i free
      cases h
      exact .inl ⟨id, e, rfl, free.1, free.2, rfl⟩
    · cases h
  | run id io =>
    obtain ⟨c, at_c, h⟩ := Option.bind_eq_some_iff.mp h
    obtain ⟨⟨cells, pc⟩, taken, h⟩ := Option.bind_eq_some_iff.mp h
    cases h
    exact .inr (.inl ⟨id, io, c, cells, pc, rfl, at_c, taken, rfl⟩)
  | enterGate | leaveGate | rotate | evict | dropFlushing | copyBack | redirty | strand | grant
  | compareToken =>
    simp only [step, Option.map_eq_some_iff] at h
    obtain ⟨cells, moved, rfl⟩ := h
    exact .inr (.inr ⟨cells, moved, rfl⟩)

end GlideFS.WriteCache.Guest
