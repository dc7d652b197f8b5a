import GlideFS.Lib.Runs
import Mathlib.Data.UInt
import Mathlib.Logic.Function.Basic

/-! # The circuit breaker of the content store

One word holds the breaker's phase, its failure count, the probes it still lets through and the
time of its last change; every change is a compare-and-swap of the whole word. Operations of all
content stores share it: each asks for leave before its first S3 call and reports what came of
its calls. In the half-open phase the leave is a permit, and nothing gives a permit back: only a
report moves the breaker on.
-/

namespace GlideFS.Block.Breaker

open Lib

/-! ## The word -/

inductive Phase where
  | closed
  | opened
  | halfOpen
  /-- The fourth value of the two bits. -/
  | invalid
deriving DecidableEq

structure Word where
  phase : Phase
  failures : Nat
  permits : Nat
  timestamp : UInt64
deriving DecidableEq

def pack (phase : Phase) (failures permits : Nat) (timestamp : UInt64) : Word :=
  ⟨phase, failures % 2 ^ 14, permits % 2 ^ 16, timestamp % 2 ^ 32⟩

inductive FailurePolicy where
  | consecutive (threshold : Nat)
  | windowed (threshold : Nat) (windowSecs : UInt64)

structure Config where
  failurePolicy : FailurePolicy
  resetTimeout : UInt64
  halfOpenPermits : Nat

/-- What `allow` does with the word it has loaded. -/
inductive Allow where
  | pass
  | reject
  /-- A swap after which the loop goes on. -/
  | open_ (new : Word)
  /-- A swap that takes a permit. -/
  | claim (new : Word)
  /-- A swap whose outcome is not looked at. -/
  | reset (new : Word)

def allow (c : Config) (now : UInt64) (seen : Word) : Allow :=
  match seen.phase with
  | .closed => .pass
  | .opened =>
      if c.resetTimeout ≤ now - seen.timestamp then
        .open_ (pack .halfOpen 0 c.halfOpenPermits now)
      else .reject
  | .halfOpen =>
      if seen.permits = 0 then .reject
      else .claim (pack .halfOpen seen.failures (seen.permits - 1) seen.timestamp)
  | .invalid => .reset (pack .closed 0 0 now)

/-- The loop of `record_success`: the word to swap in, unless there is nothing to do. -/
def successWord (now : UInt64) (seen : Word) : Option Word :=
  match seen.phase with
  | .closed | .halfOpen => some (pack .closed 0 0 now)
  | .opened | .invalid => none

/-- The loop of `record_failure`, with the count after this failure. -/
def failureWord (threshold : Nat) (newFailures : Nat) (now : UInt64) (seen : Word) : Option Word :=
  match seen.phase with
  | .closed =>
      if threshold ≤ newFailures then some (pack .opened 0 0 now)
      else some (pack .closed newFailures 0 now)
  | .halfOpen => some (pack .opened 0 0 now)
  | .opened | .invalid => none

/-! ## Operations -/

/-- How an S3 call ends: well, with an error that shows S3 to be reachable, or with one of
    connectivity. -/
inductive Reply where
  | ok
  | reachable
  | unreachable
deriving DecidableEq

inductive Report where
  | success
  | failure
deriving DecidableEq

/-- `record_s3_result` and `record_s3_list_error`. -/
def Reply.report : Reply → Report
  | .ok | .reachable => .success
  | .unreachable => .failure

/-- Where an operation stands between its reports. -/
inductive Stage where
  /-- One request: a put, get, head or delete of a manifest, snapshot, boot set, run spec or
      pack. -/
  | call
  /-- A request after something that can fail by itself: `get_range_from_key`,
      `get_suffix_from_key`, `put_chunk_pack` and the single PUT of `stream_chunk_pack`. -/
  | guarded
  /-- `list_snapshots`, `list_chunk_packs` and `list_all_manifests`. -/
  | listing
  /-- `delete_all_snapshots`. -/
  | deleting
  /-- The multipart upload of `stream_chunk_pack` before it is created. -/
  | multipart
  /-- The same while its parts are written and when it is finished. -/
  | parts
  | done
deriving DecidableEq

inductive Event where
  | reply (r : Reply)
  /-- A pack that cannot be assembled or streamed, a closed semaphore, a task that is not
      joined. -/
  | internalError
  | item
  | listError (r : Reply)
  | listEnd
deriving DecidableEq

/-- What an operation reports of an event, and where it goes on. -/
def next : Stage → Event → Option (Option Report × Stage)
  | .call, .reply r => some (some r.report, .done)
  | .guarded, .reply r => some (some r.report, .done)
  | .guarded, .internalError => some (none, .done)
  | .listing, .item => some (none, .listing)
  | .listing, .listError r => some (some r.report, .done)
  | .listing, .listEnd => some (some .success, .done)
  | .deleting, .listError _ => some (none, .deleting)
  | .deleting, .reply r => some (some r.report, .deleting)
  | .deleting, .listEnd => some (none, .done)
  | .multipart, .reply .ok => some (some .success, .parts)
  | .multipart, .reply r => some (some r.report, .done)
  | .parts, .internalError => some (none, .done)
  | .parts, .reply r => some (some r.report, .done)
  | _, _ => none

/-- The next access to the breaker, or the stage between two of them. A report keeps the stage
    after it. -/
inductive Pc where
  | allow (stage : Stage)
  | swapOpen (stage : Stage) (seen new : Word)
  | swapClaim (stage : Stage) (seen new : Word)
  | swapReset (stage : Stage) (seen new : Word)
  | body (stage : Stage)
  | success (after : Stage)
  | clearWindow (after : Stage)
  | successLoop (after : Stage)
  | swapSuccess (after : Stage) (seen new : Word)
  | failure (after : Stage)
  | swapWindow (after : Stage) (seen new : UInt64) (resetCount : Bool) (now : UInt64)
  /-- The time of a windowed report is read once, that of another one in every turn. -/
  | failureLoop (after : Stage) (resetCount : Bool) (since : Option UInt64)
  | closeWindow (after : Stage) (seen new : Word) (resetCount : Bool) (since : Option UInt64)
  | swapFailure (after : Stage) (seen new : Word) (resetCount : Bool) (since : Option UInt64)

/-- `took` is the half-open period in which the operation took a permit, and `reported` says
    whether it has reported since; both are history. -/
structure Op where
  pc : Pc
  took : Option Nat
  reported : Bool

def Op.afterReport (op : Op) : Stage → Option Op
  | .done => none
  | stage => some { op with pc := .body stage, reported := true }

variable {ι : Type} [DecidableEq ι]

/-- `period` counts the half-open periods; it is history too. -/
structure State (ι : Type) where
  word : Word
  windowStart : UInt64
  period : Nat
  ops : ι → Option Op

inductive Act (ι : Type) where
  | start (i : ι) (stage : Stage)
  /-- The next access of an operation to the breaker, at a time; a weak swap may fail for no
      reason. -/
  | run (i : ι) (now : UInt64) (spurious : Bool)
  | event (i : ι) (e : Event)
  /-- The future is dropped where it awaits. -/
  | drop (i : ι)

namespace State

def setOp (s : State ι) (i : ι) (op : Option Op) : State ι :=
  { s with ops := Function.update s.ops i op }

/-- A report is complete. -/
def reported (s : State ι) (i : ι) (op : Op) (after : Stage) : State ι :=
  s.setOp i (op.afterReport after)

def goTo (s : State ι) (i : ι) (op : Op) (pc : Pc) : State ι := s.setOp i (some { op with pc })

end State

def FailurePolicy.threshold : FailurePolicy → Nat
  | .consecutive threshold | .windowed threshold _ => threshold

/-- The next access of an operation to the breaker. -/
def access (c : Config) (s : State ι) (i : ι) (op : Op) (now : UInt64) (spurious : Bool) :
    Option (State ι) :=
  match op.pc with
  | .allow stage =>
      match allow c now s.word with
      | .pass => some (s.goTo i op (.body stage))
      | .reject => some (s.setOp i none)
      | .open_ new => some (s.goTo i op (.swapOpen stage s.word new))
      | .claim new => some (s.goTo i op (.swapClaim stage s.word new))
      | .reset new => some (s.goTo i op (.swapReset stage s.word new))
  | .swapOpen stage seen new =>
      if s.word = seen ∧ ¬spurious then
        some { s.goTo i op (.allow stage) with word := new, period := s.period + 1 }
      else some (s.goTo i op (.allow stage))
  | .swapClaim stage seen new =>
      if s.word = seen ∧ ¬spurious then
        some { s.setOp i (some ⟨.body stage, some s.period, false⟩) with word := new }
      else some (s.goTo i op (.allow stage))
  | .swapReset stage seen new =>
      if s.word = seen then some { s.goTo i op (.body stage) with word := new }
      else some (s.goTo i op (.body stage))
  | .body _ => none
  | .success after =>
      if s.word.phase = .closed ∧ s.word.failures = 0 then some (s.reported i op after)
      else some (s.goTo i op (.clearWindow after))
  | .clearWindow after => some { s.goTo i op (.successLoop after) with windowStart := 0 }
  | .successLoop after =>
      match successWord now s.word with
      | none => some (s.reported i op after)
      | some new => some (s.goTo i op (.swapSuccess after s.word new))
  | .swapSuccess after seen new =>
      if s.word = seen ∧ ¬spurious then some { s.reported i op after with word := new }
      else some (s.goTo i op (.successLoop after))
  | .failure after =>
      match c.failurePolicy with
      | .consecutive _ => some (s.goTo i op (.failureLoop after false none))
      | .windowed _ windowSecs =>
          if s.windowStart = 0 ∨ windowSecs ≤ now - s.windowStart then
            if now ≠ s.windowStart then
              some (s.goTo i op (.swapWindow after s.windowStart now true now))
            else some (s.goTo i op (.failureLoop after true (some now)))
          else some (s.goTo i op (.failureLoop after false (some now)))
  | .swapWindow after seen new resetCount since =>
      some { s.goTo i op (.failureLoop after resetCount (some since)) with
        windowStart := if s.windowStart = seen then new else s.windowStart }
  | .failureLoop after resetCount since =>
      let newFailures := if resetCount then 1 else s.word.failures + 1
      match failureWord c.failurePolicy.threshold newFailures (since.getD now) s.word with
      | none => some (s.reported i op after)
      | some new =>
          if since.isSome ∧ new.phase = .opened then
            some (s.goTo i op (.closeWindow after s.word new resetCount since))
          else some (s.goTo i op (.swapFailure after s.word new resetCount since))
  | .closeWindow after seen new resetCount since =>
      some { s.goTo i op (.swapFailure after seen new resetCount since) with windowStart := 0 }
  | .swapFailure after seen new resetCount since =>
      if s.word = seen ∧ ¬spurious then some { s.reported i op after with word := new }
      else some (s.goTo i op (.failureLoop after resetCount since))

def Report.pc (after : Stage) : Report → Pc
  | .success => .success after
  | .failure => .failure after

/-- An operation that awaits sees an event. -/
def see (s : State ι) (i : ι) (op : Op) (e : Event) : Option (State ι) :=
  match op.pc with
  | .body stage =>
      match next stage e with
      | some (some report, after) => some (s.goTo i op (report.pc after))
      | some (none, .done) => some (s.setOp i none)
      | some (none, after) => some (s.goTo i op (.body after))
      | none => none
  | _ => none

def step (c : Config) (s : State ι) : Act ι → Option (State ι)
  | .start i stage =>
      if (s.ops i).isNone then some (s.setOp i (some ⟨.allow stage, none, false⟩)) else none
  | .run i now spurious => (s.ops i).bind fun op => access c s i op now spurious
  | .event i e => (s.ops i).bind fun op => see s i op e
  | .drop i =>
      match s.ops i with
      | some ⟨.body _, _, _⟩ => some (s.setOp i none)
      | _ => none

/-- Before any operation. -/
def initial (now : UInt64) : State ι := ⟨pack .closed 0 0 now, 0, 0, fun _ => none⟩

/-- The operation holds a permit of this half-open period and has not reported. -/
def State.Owes (s : State ι) (i : ι) : Bool :=
  s.word.phase = .halfOpen ∧ (s.ops i).any fun op => op.took = some s.period ∧ op.reported = false

/-- The event ends the operation without a report. -/
def endsSilently (s : State ι) (i : ι) (e : Event) : Bool :=
  (s.ops i).any fun op => match op.pc with
    | .body stage => next stage e = some (none, .done)
    | _ => false

/-- An operation that holds a permit of the half-open period reports before it ends. -/
def Careful (s : State ι) : Act ι → Prop
  | .event i e => endsSilently s i e → s.Owes i = false
  | .drop i => s.Owes i = false
  | .start _ _ | .run _ _ _ => True

instance (s : State ι) : (a : Act ι) → Decidable (Careful s a)
  | .event i e => inferInstanceAs (Decidable (endsSilently s i e = true → s.Owes i = false))
  | .drop i => inferInstanceAs (Decidable (s.Owes i = false))
  | .start _ _ | .run _ _ _ => inferInstanceAs (Decidable True)

/-! ## What an access can do -/

/-- The operation still asks for leave. -/
def Pc.Asks : Pc → Prop
  | .allow _ | .swapOpen _ _ _ | .swapClaim _ _ _ | .swapReset _ _ _ => True
  | _ => False

/-- The words an operation is about to swap are those the loop has worked out. -/
def Pc.Fits (c : Config) : Pc → Prop
  | .swapOpen _ seen new => seen.phase = .opened ∧ new.phase = .halfOpen ∧
      new.permits = c.halfOpenPermits % 2 ^ 16
  | .swapClaim _ seen new => seen.phase = .halfOpen ∧ new.phase = .halfOpen
  | .swapReset _ _ new | .swapSuccess _ _ new | .closeWindow _ _ new _ _
  | .swapFailure _ _ new _ _ => new.phase ≠ .halfOpen
  | _ => True

theorem allow_fits {c : Config} {now : UInt64} {seen : Word} :
    match allow c now seen with
    | .open_ new => seen.phase = .opened ∧ new.phase = .halfOpen ∧
        new.permits = c.halfOpenPermits % 2 ^ 16
    | .claim new => seen.phase = .halfOpen ∧ new.phase = .halfOpen
    | .reset new => new.phase ≠ .halfOpen
    | _ => True := by
  unfold allow
  cases phase : seen.phase with
  | closed => trivial
  | opened =>
    by_cases late : c.resetTimeout ≤ now - seen.timestamp
    · simp [late, pack]
    · simp [late]
  | halfOpen =>
    by_cases none : seen.permits = 0
    · simp [none]
    · simp [none, pack]
  | invalid => simp [pack]

theorem successWord_cases (now : UInt64) (seen : Word) :
    (successWord now seen = none ∧ seen.phase ≠ .halfOpen) ∨
      ∃ new, successWord now seen = some new ∧ new.phase ≠ .halfOpen := by
  unfold successWord
  cases seen.phase <;> simp [pack]

theorem failureWord_cases (threshold newFailures : Nat) (now : UInt64) (seen : Word) :
    (failureWord threshold newFailures now seen = none ∧ seen.phase ≠ .halfOpen) ∨
      ∃ new, failureWord threshold newFailures now seen = some new ∧ new.phase ≠ .halfOpen := by
  unfold failureWord
  cases seen.phase with
  | closed => by_cases many : threshold ≤ newFailures <;> simp [many, pack]
  | opened | halfOpen | invalid => simp [pack]

/-- What an access does to the word, the period and the operation. -/
inductive Moves (c : Config) (s : State ι) (i : ι) (op : Op) : State ι → Prop where
  /-- The operation goes on, the word is as it was. -/
  | goesOn {t : State ι} (pc : Pc) (fits : pc.Fits c) (asks : pc.Asks → op.pc.Asks)
      (word : t.word = s.word) (period : t.period = s.period)
      (ops : t.ops = Function.update s.ops i (some { op with pc })) : Moves c s i op t
  | rejected {t : State ι} (asks : op.pc.Asks) (word : t.word = s.word)
      (period : t.period = s.period) (ops : t.ops = Function.update s.ops i none) : Moves c s i op t
  /-- The breaker is not half-open when a report is complete, or after a reset. -/
  | leaves {t : State ι} (after : Option Op)
      (same : ∀ o ∈ after, o.took = op.took ∧ o.pc.Fits c ∧ ¬o.pc.Asks)
      (phase : t.word.phase ≠ .halfOpen) (period : t.period = s.period)
      (ops : t.ops = Function.update s.ops i after) : Moves c s i op t
  | opens {t : State ι} (stage : Stage) (asks : op.pc.Asks)
      (permits : t.word.permits = c.halfOpenPermits % 2 ^ 16)
      (period : t.period = s.period + 1)
      (ops : t.ops = Function.update s.ops i (some { op with pc := .allow stage })) :
      Moves c s i op t
  | claims {t : State ι} (stage : Stage) (phase : s.word.phase = .halfOpen)
      (period : t.period = s.period)
      (ops : t.ops = Function.update s.ops i (some ⟨.body stage, some s.period, false⟩)) :
      Moves c s i op t

theorem reported_moves {c : Config} {s t : State ι} {i : ι} {op : Op} (after : Stage)
    (phase : t.word.phase ≠ .halfOpen) (period : t.period = s.period)
    (ops : t.ops = Function.update s.ops i (op.afterReport after)) : Moves c s i op t := by
  refine .leaves (op.afterReport after) ?_ phase period ops
  intro o mem
  cases after with
  | done => cases mem
  | call | guarded | listing | deleting | multipart | parts =>
    cases mem
    exact ⟨rfl, trivial, id⟩

theorem access_moves {c : Config} {s t : State ι} {i : ι} {op : Op} {now : UInt64} {spurious : Bool}
    (fits : op.pc.Fits c) (taken : access c s i op now spurious = some t) : Moves c s i op t := by
  obtain ⟨pc, took, rep⟩ := op
  cases pc with
  | allow stage =>
    have word := @allow_fits c now s.word
    simp only [access] at taken
    cases attempt : allow c now s.word with
    | pass =>
      rw [attempt] at taken
      cases taken
      exact .goesOn (.body stage) trivial nofun rfl rfl rfl
    | reject =>
      rw [attempt] at taken
      cases taken
      exact .rejected trivial rfl rfl rfl
    | open_ new =>
      rw [attempt] at taken word
      cases taken
      exact .goesOn (.swapOpen stage s.word new) word id rfl rfl rfl
    | claim new =>
      rw [attempt] at taken word
      cases taken
      exact .goesOn (.swapClaim stage s.word new) word id rfl rfl rfl
    | reset new =>
      rw [attempt] at taken word
      cases taken
      exact .goesOn (.swapReset stage s.word new) word id rfl rfl rfl
  | swapOpen stage seen new =>
    simp only [access] at taken
    split at taken
    · cases taken
      exact .opens stage trivial fits.2.2 rfl rfl
    · cases taken
      exact .goesOn (.allow stage) trivial id rfl rfl rfl
  | swapClaim stage seen new =>
    simp only [access] at taken
    split at taken
    · rename_i swapped
      cases taken
      exact .claims stage (swapped.1 ▸ fits.1) rfl rfl
    · cases taken
      exact .goesOn (.allow stage) trivial id rfl rfl rfl
  | swapReset stage seen new =>
    simp only [access] at taken
    split at taken
    · cases taken
      exact .leaves (some ⟨.body stage, took, rep⟩) (by rintro o ⟨⟩; exact ⟨rfl, trivial, id⟩)
        fits rfl rfl
    · cases taken
      exact .goesOn (.body stage) trivial nofun rfl rfl rfl
  | body stage => cases taken
  | success after =>
    simp only [access] at taken
    split at taken
    · rename_i closed
      cases taken
      exact reported_moves after (by simp [State.reported, State.setOp, closed.1]) rfl rfl
    · cases taken
      exact .goesOn (.clearWindow after) trivial nofun rfl rfl rfl
  | clearWindow after =>
    cases taken
    exact .goesOn (.successLoop after) trivial nofun rfl rfl rfl
  | successLoop after =>
    simp only [access] at taken
    rcases successWord_cases now s.word with ⟨none, phase⟩ | ⟨new, some, phase⟩
    · rw [none] at taken
      cases taken
      exact reported_moves after phase rfl rfl
    · rw [some] at taken
      cases taken
      exact .goesOn (.swapSuccess after s.word new) phase nofun rfl rfl rfl
  | swapSuccess after seen new =>
    simp only [access] at taken
    split at taken
    · cases taken
      exact reported_moves after fits rfl rfl
    · cases taken
      exact .goesOn (.successLoop after) trivial nofun rfl rfl rfl
  | failure after =>
    simp only [access] at taken
    split at taken
    · cases taken
      exact .goesOn (.failureLoop after false none) trivial nofun rfl rfl rfl
    · split at taken
      · split at taken
        · cases taken
          exact .goesOn (.swapWindow after s.windowStart now true now) trivial nofun rfl rfl rfl
        · cases taken
          exact .goesOn (.failureLoop after true (some now)) trivial nofun rfl rfl rfl
      · cases taken
        exact .goesOn (.failureLoop after false (some now)) trivial nofun rfl rfl rfl
  | swapWindow after seen new resetCount since =>
    cases taken
    exact .goesOn (.failureLoop after resetCount (some since)) trivial nofun rfl rfl rfl
  | failureLoop after resetCount since =>
    simp only [access] at taken
    rcases failureWord_cases c.failurePolicy.threshold
      (if resetCount = true then 1 else s.word.failures + 1) (since.getD now) s.word with
      ⟨none, phase⟩ | ⟨new, some, phase⟩
    · rw [none] at taken
      cases taken
      exact reported_moves after phase rfl rfl
    · rw [some] at taken
      dsimp only at taken
      split at taken
      · cases taken
        exact .goesOn (.closeWindow after s.word new resetCount since) phase nofun rfl rfl rfl
      · cases taken
        exact .goesOn (.swapFailure after s.word new resetCount since) phase nofun rfl rfl rfl
  | closeWindow after seen new resetCount since =>
    cases taken
    exact .goesOn (.swapFailure after seen new resetCount since) fits nofun rfl rfl rfl
  | swapFailure after seen new resetCount since =>
    simp only [access] at taken
    split at taken
    · cases taken
      exact reported_moves after fits rfl rfl
    · cases taken
      exact .goesOn (.failureLoop after resetCount since) trivial nofun rfl rfl rfl

/-! ## No permit is lost -/

/-- What is known of an operation in a state. -/
structure Op.Good (c : Config) (s : State ι) (op : Op) : Prop where
  fits : op.pc.Fits c
  asks : op.pc.Asks → op.took = none
  took : ∀ p, op.took = some p → p ≤ s.period
  /-- The period in which an operation took its permit is over when it has reported. -/
  reported : op.reported = true → op.took = some s.period → s.word.phase ≠ .halfOpen

structure Inv (c : Config) (s : State ι) : Prop where
  good : ∀ i op, s.ops i = some op → op.Good c s
  /-- A permit of this period that is gone is with an operation. -/
  pending : s.word.phase = .halfOpen → s.word.permits = c.halfOpenPermits % 2 ^ 16 ∨
    ∃ i op, s.ops i = some op ∧ op.took = some s.period

section

variable {c : Config} {s t : State ι} {i : ι} {op : Op}

theorem good_update {x : Option Op} (ops : t.ops = Function.update s.ops i x)
    (mine : ∀ o, x = some o → o.Good c t) (others : ∀ j o, s.ops j = some o → o.Good c t)
    (j : ι) (o : Op) (h : t.ops j = some o) : o.Good c t := by
  rcases update_eq_some (ops ▸ h) with ⟨-, new⟩ | ⟨-, old⟩
  · exact mine o new
  · exact others j o old

/-- A permit stays with its operation, if the one that moves keeps its own. -/
theorem pending_update {x : Option Op} (ops : t.ops = Function.update s.ops i x)
    (here : s.ops i = some op) {p : Nat}
    (mine : op.took = some p → ∃ o, x = some o ∧ o.took = some p)
    (held : ∃ j o, s.ops j = some o ∧ o.took = some p) :
    ∃ j o, t.ops j = some o ∧ o.took = some p := by
  obtain ⟨j, o, there, took⟩ := held
  by_cases same : j = i
  · subst same
    rw [here] at there
    cases there
    obtain ⟨o, new, took⟩ := mine took
    exact ⟨j, o, by rw [ops, Function.update_self, new], took⟩
  · exact ⟨j, o, by rw [ops, Function.update_of_ne same, there], took⟩

omit [DecidableEq ι] in
theorem Op.Good.same {o : Op} (good : o.Good c s) (word : t.word = s.word)
    (period : t.period = s.period) : o.Good c t :=
  ⟨good.fits, good.asks, period ▸ good.took, period ▸ word ▸ good.reported⟩

/-- An operation may end when no permit of this half-open period is with it. -/
theorem Inv.remove (inv : Inv c s) (here : s.ops i = some op)
    (free : s.word.phase = .halfOpen → op.took ≠ some s.period) (word : t.word = s.word)
    (period : t.period = s.period) (ops : t.ops = Function.update s.ops i none) : Inv c t := by
  refine ⟨good_update ops ?_ fun j o old => (inv.good j o old).same word period, ?_⟩
  · intro o gone
    cases gone
  · rw [word, period]
    intro half
    exact (inv.pending half).imp_right
      (pending_update ops here fun took => absurd took (free half))

theorem Inv.goesOn (inv : Inv c s) (here : s.ops i = some op) (pc : Pc) (fits : pc.Fits c)
    (asks : pc.Asks → op.pc.Asks) (word : t.word = s.word) (period : t.period = s.period)
    (ops : t.ops = Function.update s.ops i (some { op with pc })) : Inv c t := by
  have own := (inv.good i op here).same word period
  refine ⟨good_update ops ?_ fun j o old => (inv.good j o old).same word period, ?_⟩
  · rintro o ⟨⟩
    exact ⟨fits, fun asking => own.asks (asks asking), own.took, own.reported⟩
  · rw [word, period]
    intro half
    exact (inv.pending half).imp_right (pending_update ops here fun took => ⟨_, rfl, took⟩)

theorem Moves.inv (moves : Moves c s i op t) (here : s.ops i = some op) (inv : Inv c s) :
    Inv c t := by
  have own := inv.good i op here
  cases moves with
  | goesOn pc fits asks word period ops => exact inv.goesOn here pc fits asks word period ops
  | rejected asks word period ops =>
    refine inv.remove here (fun _ took => ?_) word period ops
    rw [own.asks asks] at took
    cases took
  | leaves after same phase period ops =>
    refine ⟨good_update ops ?_ ?_, fun half => absurd half phase⟩
    · intro o mem
      obtain ⟨took, fits, quiet⟩ := same o mem
      exact ⟨fits, fun asks => absurd asks quiet, took ▸ period ▸ own.took, fun _ _ => phase⟩
    · intro j o old
      have good := inv.good j o old
      exact ⟨good.fits, good.asks, period ▸ good.took, fun _ _ => phase⟩
  | opens stage asks permits period ops =>
    refine ⟨good_update ops ?_ ?_, fun _ => .inl permits⟩
    · rintro o ⟨⟩
      have none := own.asks asks
      exact ⟨trivial, fun _ => none, by simp [none], by simp [none]⟩
    · intro j o old
      have good := inv.good j o old
      refine ⟨good.fits, good.asks, fun p took => ?_, fun _ took => ?_⟩
      · have := good.took p took
        omega
      · have := good.took _ took
        omega
  | claims stage phase period ops =>
    have holder : t.ops i = some ⟨.body stage, some s.period, false⟩ := by
      rw [ops, Function.update_self]
    refine ⟨good_update ops ?_ ?_, fun _ => .inr ⟨i, _, holder, congrArg some period.symm⟩⟩
    · rintro o ⟨⟩
      exact ⟨trivial, nofun, by rintro p ⟨⟩; omega, nofun⟩
    · intro j o old
      have good := inv.good j o old
      refine ⟨good.fits, good.asks, period ▸ good.took, fun reported took => ?_⟩
      exact absurd phase (good.reported reported (period ▸ took))

omit [DecidableEq ι] in
/-- What an operation has reported is over, so only one that has not reported owes. -/
theorem Inv.free (inv : Inv c s) (here : s.ops i = some op) (clear : s.Owes i = false)
    (half : s.word.phase = .halfOpen) : op.took ≠ some s.period := by
  intro took
  have reported : op.reported = true := by
    simpa [State.Owes, half, here, took] using clear
  exact (inv.good i op here).reported reported took half

theorem see_inv {e : Event} (inv : Inv c s) (here : s.ops i = some op)
    (careful : endsSilently s i e → s.Owes i = false) (taken : see s i op e = some t) : Inv c t := by
  obtain ⟨pc, took, rep⟩ := op
  cases pc with
  | body stage =>
    simp only [see] at taken
    split at taken
    · rename_i report after _
      cases taken
      cases report with
      | success => exact inv.goesOn here (.success after) trivial nofun rfl rfl rfl
      | failure => exact inv.goesOn here (.failure after) trivial nofun rfl rfl rfl
    · rename_i silent
      cases taken
      have clear := careful (by simp [endsSilently, here, silent])
      exact inv.remove here (inv.free here clear) rfl rfl rfl
    · rename_i after _ _
      cases taken
      exact inv.goesOn here (.body after) trivial nofun rfl rfl rfl
    · cases taken
  | _ => cases taken

theorem step_inv {a : Act ι} (inv : Inv c s) (careful : Careful s a)
    (taken : step c s a = some t) : Inv c t := by
  cases a with
  | start i stage =>
    simp only [step] at taken
    split at taken
    · rename_i unused
      cases taken
      have none : s.ops i = none := Option.isNone_iff_eq_none.mp unused
      refine ⟨good_update rfl ?_ fun j o old => (inv.good j o old).same rfl rfl, ?_⟩
      · rintro o ⟨⟩
        exact ⟨trivial, fun _ => rfl, nofun, nofun⟩
      · intro half
        refine (inv.pending half).imp_right ?_
        rintro ⟨j, o, there, took⟩
        have other : j ≠ i := by
          rintro rfl
          rw [none] at there
          cases there
        exact ⟨j, o, (Function.update_of_ne other _ _).trans there, took⟩
    · cases taken
  | run i now spurious =>
    obtain ⟨op, here, taken⟩ := Option.bind_eq_some_iff.mp taken
    exact (access_moves (inv.good i op here).fits taken).inv here inv
  | event i e =>
    obtain ⟨op, here, taken⟩ := Option.bind_eq_some_iff.mp taken
    exact see_inv inv here careful taken
  | drop i =>
    simp only [step] at taken
    split at taken
    · rename_i here
      cases taken
      exact inv.remove here (inv.free here careful) rfl rfl rfl
    · cases taken

omit [DecidableEq ι] in
theorem inv_initial (now : UInt64) : Inv c (initial now : State ι) := by
  constructor
  · intro i op there
    cases there
  · intro half
    cases half

end

/-- In every run in which the operations that hold a permit of the half-open period report before
    they end, a half-open breaker without permits has one of them in flight. -/
theorem permits_not_lost (c : Config) (permits : c.halfOpenPermits % 2 ^ 16 ≠ 0) (now : UInt64)
    (s : State ι) (run : Reach (step c) Careful (initial now) s)
    (half : s.word.phase = .halfOpen) (none : s.word.permits = 0) :
    ∃ i op, s.ops i = some op ∧ op.took = some s.period := by
  have inv : Inv c s :=
    Reach.invariant (I := Inv c) (inv_initial now) (fun _ _ _ => step_inv) run
  rcases inv.pending half with full | held
  · exact absurd (full.symm.trans none) permits
  · exact held

/-- The breaker of the router: it opens after five failures in a row, for 30 s, and then lets
    three probes through. -/
def routerBreaker : Config := ⟨.consecutive 5, 30, 3⟩

/-- Five requests fail, and the breaker opens. -/
def outage : List (Act (Fin 3)) := (List.replicate 5 [.start 0 .call, .run 0 0 false,
  .event 0 (.reply .unreachable), .run 0 0 false, .run 0 0 false, .run 0 0 false]).flatten

/-- 30 s later three operations take the permits. -/
def probes (stage : Stage) : List (Act (Fin 3)) :=
  [.start 0 stage, .run 0 30 false, .run 0 30 false, .start 1 stage, .start 2 stage, .run 0 30 false,
    .run 0 30 false, .run 1 30 false, .run 1 30 false, .run 2 30 false, .run 2 30 false]

theorem probe_holds_permit :
    ∃ t, execWhile (step routerBreaker) Careful (initial 0) (outage ++ probes .deleting) = some t ∧
      t.word.phase = .halfOpen ∧ t.word.permits = 0 ∧
      ∃ i op, t.ops i = some op ∧ op.took = some t.period := by
  have ends : (execWhile (step routerBreaker) Careful (initial 0) (outage ++ probes .deleting)).any
      (fun t => t.word.phase = .halfOpen ∧ t.word.permits = 0) = true := by decide +kernel
  obtain ⟨t, run, rest⟩ := exists_of_any ends
  obtain ⟨half, none⟩ := of_decide_eq_true rest
  exact ⟨t, run, half, none,
    permits_not_lost routerBreaker (by decide) 0 t (reach_execWhile run) half none⟩

/-- The snapshots of three exports are deleted that have none. -/
theorem empty_listing_loses_permit :
    ∃ t, exec (step routerBreaker) (initial 0) (outage ++ probes .deleting ++
        [.event 0 .listEnd, .event 1 .listEnd, .event 2 .listEnd]) = some t ∧
      t.word.phase = .halfOpen ∧ t.word.permits = 0 ∧ ∀ i, (t.ops i).isNone := by
  have ends : (exec (step routerBreaker) (initial 0) (outage ++ probes .deleting ++
      [.event 0 .listEnd, .event 1 .listEnd, .event 2 .listEnd])).any
      (fun t => t.word.phase = .halfOpen ∧ t.word.permits = 0 ∧ ∀ i, (t.ops i).isNone) = true := by
    decide +kernel
  obtain ⟨t, run, rest⟩ := exists_of_any ends
  exact ⟨t, run, of_decide_eq_true rest⟩

end GlideFS.Block.Breaker
