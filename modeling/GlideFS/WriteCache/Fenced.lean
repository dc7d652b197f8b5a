import GlideFS.WriteCache.GuestCalls

/-! # A fenced writer

Once the cache has seen a newer token in S3 it can store nothing any more. The
latch is read in one place, the first statement of `write_inner`. A guest
mutation that begins there after the latch is refused; one that is past it, or
that goes through another entry point, is not.
-/

namespace GlideFS.WriteCache.Guest

open Block Lib

variable {g : Geometry} {s t : State}

namespace Entry

/-- The calls by which a guest changes data; the others are claims on blocks. -/
def mutates : Entry → Bool
  | tryClaimBlock .. | unclaimBlock .. | claimBlockForMaterialization .. | unclaim ..
  | dropClaim .. => false
  | _ => true

/-- The function begins with the fence check. -/
def checksFence : Entry → Bool
  | write .. | writeWithEvictionCheck .. => true
  | _ => false

/-- The function's own check of its range refuses the call. -/
def refusesRange (g : Geometry) : Entry → Bool
  | zeroRange offset len => len ≠ 0 ∧ g.size < offset + len
  | writeMaterialized offset data _ _ => data ≠ [] ∧ g.size < offset + data.length
  | preWrite offset len => g.size < offset + len
  | _ => false

end Entry

/-- The call changes nothing, and answers with an error, if the latch is set now. -/
def Call.Stoppable (g : Geometry) (c : Call) : Prop :=
  match c.pc with
  | .enter => c.entry.checksFence ∨ c.entry.refusesRange g
  | .checked => g.size < c.entry.offset + c.entry.len
  | .returned _ => True
  | _ => False

/-- The latch finds no guest mutation past its check, and after it none begins that does
    not check. -/
def Act.Guarded (g : Geometry) (s : State) : Act → Prop
  | .call _ e => s.cells.fenced → e.mutates → e.checksFence ∨ e.refusesRange g
  | .compareToken s3Token => s.cells.token ≠ 0 → s.cells.token < s3Token →
      ∀ id c, s.calls id = some c → c.entry.mutates → c.Stoppable g
  | _ => True

/-- Behind the latch every guest mutation is one that stops. -/
def Closed (g : Geometry) (s : State) : Prop :=
  s.cells.fenced → ∀ id c, s.calls id = some c → c.entry.mutates → c.Stoppable g

/-- What a call that stops does next. -/
theorem Call.Stoppable.run {c : Call} {id : Nat} {m m' : Cells} {io : Option Nat} {pc : Pc}
    (h : c.Stoppable g) (latched : m.fenced) (taken : c.run g id m io = some (m', pc)) :
    m' = m ∧ ∃ e, pc = .returned (.error e) := by
  cases c with | mk entry at_pc =>
  cases at_pc with
  | enter =>
    cases taken
    refine ⟨rfl, ?_⟩
    rcases h with checks | refuses
    · cases entry <;> simp_all [Entry.checksFence, Entry.enter]
    · cases entry <;> simp_all [Entry.refusesRange, Entry.enter]
  | checked =>
    have outside : g.size < entry.offset + entry.len := h
    simp only [Call.run, outside, ↓reduceIte, Option.some.injEq, Prod.mk.injEq] at taken
    exact ⟨taken.1.symm, .offsetOutOfBounds, taken.2.symm⟩
  | returned r => cases taken
  | lock | cloneFlushing | promote | cleanClaimed | claim | steal | wait | reread | copy | cas
  | release | recheck | recheckClaimed | present | invalidate | setPresent | validate | data
  | mark | sequence | append | take | trySetPresent | giveBack | unlock => exact h.elim

/-- No call clears or sets the latch. -/
theorem Call.run_fenced {c : Call} {id : Nat} {m m' : Cells} {io : Option Nat} {pc : Pc}
    (taken : c.run g id m io = some (m', pc)) : m'.fenced = m.fenced := by
  unfold Call.run at taken
  dsimp only at taken
  split at taken
  all_goals
    repeat' split at taken
    all_goals first
      | cases taken; done
      | (cases taken; simp)

/-- In the background only the comparison of tokens sets the latch. -/
theorem Cells.background_fenced {m m' : Cells} {a : Act} (h : m.background g a = some m') :
    m'.fenced = m.fenced ∨
      ∃ s3Token, a = .compareToken s3Token ∧ m.token ≠ 0 ∧ m.token < s3Token := by
  unfold Cells.background at h
  split at h
  case h_10 s3Token =>
    split at h
    · rename_i newer
      exact .inr ⟨s3Token, rfl, newer⟩
    · cases h
      exact .inl rfl
  all_goals
    repeat' split at h
    all_goals first
      | cases h; done
      | (cases h; exact .inl (by simp))

theorem step_closed {a : Act} (I : Closed g s) (guarded : a.Guarded g s)
    (h : step g s a = some t) : Closed g t := by
  rcases step_cases h with ⟨id, e, rfl, -, -, rfl⟩ | ⟨id, io, c, cells, pc, rfl, at_c, taken, rfl⟩ |
    ⟨cells, moved, rfl⟩
  · intro latched id' c at_id mutates
    by_cases same : id' = id
    · subst same
      cases (Function.update_self ..).symm.trans at_id
      exact guarded latched mutates
    · exact I latched id' c ((Function.update_of_ne same ..).symm.trans at_id) mutates
  · intro latched id' c' at_id mutates
    have before : s.cells.fenced := by rwa [← Call.run_fenced taken]
    by_cases same : id' = id
    · subst same
      cases (Function.update_self ..).symm.trans at_id
      obtain ⟨-, e, rfl⟩ := (I before id' c at_c mutates).run before taken
      trivial
    · exact I before id' c' ((Function.update_of_ne same ..).symm.trans at_id) mutates
  · intro latched
    rcases Cells.background_fenced moved with same | ⟨s3Token, rfl, held, newer⟩
    · exact I (by rwa [← same])
    · exact guarded held newer

/-! ## Behind the latch -/

/-- A cache nothing is called on yet. -/
structure Start (s : State) : Prop where
  calls : ∀ id, s.calls id = none

/-- In every run of guarded steps: a guest mutation that takes a step behind the latch leaves
    the block states and the data files as they are, and if it returns, it returns an error. -/
theorem fenced_writer_acknowledges_nothing (start : Start s)
    (run : Reach (step g) (fun t a => a.Guarded g t) s t) (latched : t.cells.fenced)
    {id : Nat} {io : Option Nat} {c : Call} {u : State} (at_id : t.calls id = some c)
    (mutates : c.entry.mutates) (taken : step g t (.run id io) = some u) :
    u.cells = t.cells ∧ ∀ c' r, u.calls id = some c' → c'.pc = .returned r →
      ∃ e, r = .error e := by
  have closed : Closed g t := Reach.invariant (I := Closed g)
    (fun _ id c at_id => by simp [start.calls id] at at_id)
    (fun _ _ _ I guarded taken => step_closed I guarded taken) run
  have stops := closed latched id c at_id mutates
  rcases step_cases taken with ⟨_, _, ⟨⟩, -⟩ | ⟨_, _, c', cells, pc, ⟨⟩, at_c, ran, rfl⟩ | ⟨_, ⟨⟩, -⟩
  cases at_id.symm.trans at_c
  obtain ⟨rfl, e, rfl⟩ := stops.run latched ran
  refine ⟨rfl, fun c' r at_id returned => ?_⟩
  cases (Function.update_self ..).symm.trans at_id
  cases returned
  exact ⟨e, rfl⟩

/-- A new cache. -/
def freshCache : State where
  cells :=
    { states := fun _ => .notPresent
      active := fun _ => 0
      flushing := none
      claims := fun _ => none
      nextToken := 1
      sequence := 0
      wal := []
      readers := []
      writer := none
      gates := []
      mutex := none
      token := 0
      fenced := false }
  calls := fun _ => none

/-- The volume is taken by the token 2, and the writer that holds 1 finds out. -/
def superseded : List Act := [.grant 1, .compareToken 2]

/-- A write that begins after the latch is refused. -/
theorem late_write_refused : ∃ t u : State,
    Steps (step .gib4k) (fun t a => a.Guarded .gib4k t) freshCache
      (superseded ++ [.call 0 (.write 0 [1])]) t ∧ t.cells.fenced ∧
    t.calls 0 = some ⟨.write 0 [1], .enter⟩ ∧ step .gib4k t (.run 0 none) = some u ∧
    u.cells = t.cells ∧ u.calls 0 = some ⟨.write 0 [1], .returned (.error .fenced)⟩ := by
  obtain ⟨t, run, latched, at_id, u, taken, result⟩ : ∃ t,
      Steps (step .gib4k) (fun t a => a.Guarded .gib4k t) freshCache
        (superseded ++ [.call 0 (.write 0 [1])]) t ∧ t.cells.fenced ∧
      t.calls 0 = some ⟨.write 0 [1], .enter⟩ ∧ ∃ u, step .gib4k t (.run 0 none) = some u ∧
      u.calls 0 = some ⟨.write 0 [1], .returned (.error .fenced)⟩ := by
    refine ⟨_, ⟨trivial, _, rfl, ?_, _, rfl, fun _ _ => .inl rfl, _, rfl, rfl⟩, rfl, rfl, _, rfl, rfl⟩
    rintro - - id c ⟨⟩
  have same := (fenced_writer_acknowledges_nothing ⟨fun _ => rfl⟩ (reach_steps run) latched at_id rfl
    taken).1
  exact ⟨t, u, run, latched, at_id, taken, same, result⟩

/-- A trim that begins after the latch is acknowledged and leaves its block DIRTY. -/
theorem late_trim_acknowledged : ∃ s t : State,
    Reach (step .gib4k) anyStep freshCache s ∧ s.cells.fenced ∧ s.calls 0 = none ∧
    Reach (step .gib4k) anyStep s t ∧ s.cells.states 0 = .notPresent ∧
    t.cells.states 0 = .dirty ∧ t.calls 0 = some ⟨.zeroRange 0 1, .returned .ok⟩ := by
  obtain ⟨s, latch, latched, free, before, t, trim, after, result⟩ : ∃ s,
      exec (step .gib4k) freshCache superseded = some s ∧ s.cells.fenced ∧ s.calls 0 = none ∧
      s.cells.states 0 = .notPresent ∧ ∃ t,
      exec (step .gib4k) s (.call 0 (.zeroRange 0 1) :: List.replicate 11 (.run 0 none)) = some t ∧
      t.cells.states 0 = .dirty ∧ t.calls 0 = some ⟨.zeroRange 0 1, .returned .ok⟩ :=
    ⟨_, rfl, rfl, rfl, rfl, _, rfl, rfl, rfl⟩
  exact ⟨s, t, reach_exec latch, latched, free, reach_exec trim, before, after, result⟩

end GlideFS.WriteCache.Guest
