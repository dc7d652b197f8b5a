import GlideFS.Lib.Runs
import Mathlib.Data.List.Perm.Basic

/-! # The pool of bounce buffers

A future that finds no free slot puts the waker of its task at the end of a queue, and a slot
that is released wakes the task at the front. Wakers stay in the queue when their future got a slot
on another poll or was dropped.
-/

namespace GlideFS.Ublk.BufferPool

open Lib

/-- `POOL_SLOTS`. -/
def poolSlots : Nat := 256

/-- An `AcquireFut` whose last poll returned `Pending`, with the task that polled it. -/
structure AcquireFut where
  id : Nat
  waker : Nat
  /-- The task was woken since. -/
  woken : Bool
deriving DecidableEq

/-- One worker's pool. The last slot released is the first of `free`. -/
structure State where
  free : List Nat
  waiters : List Nat
  held : List Nat
  pending : List AcquireFut

def initial (slots : Nat) : State := ⟨List.range slots, [], [], []⟩

inductive Act where
  | poll (id waker : Nat)
  | drop (id : Nat)
  /-- A `PoolSlot` is dropped. -/
  | release (slot : Nat)

def wake (task : Nat) (pending : List AcquireFut) : List AcquireFut :=
  pending.map fun f => if f.waker = task then { f with woken := true } else f

def remove (id : Nat) (pending : List AcquireFut) : List AcquireFut :=
  pending.eraseP fun f => f.id = id

def step (s : State) : Act → Option State
  | .poll id waker => match s.free with
      | slot :: rest =>
          some { s with free := rest, held := slot :: s.held, pending := remove id s.pending }
      | [] =>
          some { s with
            waiters := s.waiters ++ [waker]
            pending := ⟨id, waker, false⟩ :: remove id s.pending }
  | .drop id =>
      if s.pending.any fun f => f.id = id then some { s with pending := remove id s.pending }
      else none
  | .release slot =>
      if slot ∈ s.held then
        let s := { s with free := slot :: s.free, held := s.held.erase slot }
        match s.waiters with
        | task :: rest => some { s with waiters := rest, pending := wake task s.pending }
        | [] => some s
      else none

def State.NoLostWakeup (s : State) : Prop :=
  s.free ≠ [] → s.pending ≠ [] → ∃ f ∈ s.pending, f.woken = true

def State.woken (s : State) : Nat := s.pending.countP (·.woken)

/-- Enough futures are woken for one more free slot, or for one woken future less. -/
def State.Spare (s : State) : Prop := s.free.length < s.woken ∨ ∀ f ∈ s.pending, f.woken = true

instance (s : State) : Decidable s.Spare := inferInstanceAs (Decidable (_ ∨ _))

/-- A slot is released to a task that waits for it, and no woken future is dropped, unless enough
    others are woken. -/
def Careful (s : State) : Act → Prop
  | .poll _ _ => True
  | .drop id => (s.pending.find? fun f => f.id = id).any (·.woken) = true → s.Spare
  | .release _ =>
      (∀ task ∈ s.waiters.head?, ∃ f ∈ s.pending, f.waker = task ∧ f.woken = false) ∨ s.Spare

instance (s : State) : (a : Act) → Decidable (Careful s a)
  | .poll _ _ => inferInstanceAs (Decidable True)
  | .drop _ => inferInstanceAs (Decidable (_ → _))
  | .release _ => inferInstanceAs (Decidable (_ ∨ _))

/-! ## Slots -/

/-- Every slot is free or held, once. -/
def Slots (slots : Nat) (s : State) : Prop := (s.free ++ s.held).Perm (List.range slots)

theorem step_slots {slots : Nat} {s t : State} {a : Act} (inv : Slots slots s)
    (taken : step s a = some t) : Slots slots t := by
  cases a with
  | poll id waker =>
    simp only [step] at taken
    split at taken
    · rename_i slot rest free
      cases taken
      rw [Slots, free] at inv
      exact List.perm_middle.trans inv
    · cases taken
      exact inv
  | drop id =>
    simp only [step] at taken
    split at taken <;> cases taken
    exact inv
  | release slot =>
    simp only [step] at taken
    split at taken
    · rename_i held
      have moved : (slot :: s.free ++ s.held.erase slot).Perm (List.range slots) :=
        List.perm_middle.symm.trans ((List.Perm.append_left _
          (List.perm_cons_erase held).symm).trans inv)
      split at taken
      all_goals
        cases taken
        exact moved
    · cases taken

/-! ## Wakeups -/

/-- A future that was not woken has its waker in the queue, and as many futures are woken as slots
    are free, as far as there are any. -/
structure Inv (s : State) : Prop where
  queued : ∀ f ∈ s.pending, f.woken = false → f.waker ∈ s.waiters
  enough : s.free.length ≤ s.woken ∨ ∀ f ∈ s.pending, f.woken = true

theorem Inv.noLostWakeup {s : State} (inv : Inv s) : s.NoLostWakeup := by
  intro free pending
  rcases inv.enough with enough | all
  · have some : 0 < s.woken := Nat.lt_of_lt_of_le (List.length_pos_of_ne_nil free) enough
    simpa using List.countP_pos_iff.mp some
  · obtain ⟨f, member⟩ := List.exists_mem_of_ne_nil _ pending
    exact ⟨f, member, all f member⟩

section

variable {pending : List AcquireFut} {id task : Nat}

theorem mem_of_mem_remove {f : AcquireFut} (member : f ∈ remove id pending) : f ∈ pending :=
  List.mem_of_mem_eraseP member

theorem remove_cons (f : AcquireFut) (rest : List AcquireFut) :
    remove id (f :: rest) = if f.id = id then rest else f :: remove id rest := by
  by_cases here : f.id = id <;> simp [remove, here]

theorem wake_cons (f : AcquireFut) (rest : List AcquireFut) :
    wake task (f :: rest) =
      (if f.waker = task then { f with woken := true } else f) :: wake task rest := rfl

/-- At most one woken future less. -/
theorem countP_remove (id : Nat) (pending : List AcquireFut) :
    pending.countP (·.woken) ≤ (remove id pending).countP (·.woken) + 1 := by
  induction pending with
  | nil => simp
  | cons f rest ih =>
    rw [remove_cons, List.countP_cons]
    by_cases here : f.id = id
    · cases f.woken <;> simp [here]
    · rw [if_neg here, List.countP_cons]
      omega

theorem countP_remove_of_not_woken (id : Nat) (pending : List AcquireFut)
    (asleep : ¬(pending.find? fun f => f.id = id).any (·.woken) = true) :
    (remove id pending).countP (·.woken) = pending.countP (·.woken) := by
  induction pending with
  | nil => rfl
  | cons f rest ih =>
    rw [remove_cons]
    by_cases here : f.id = id
    · have still : f.woken = false := by simpa [List.find?_cons, here] using asleep
      simp [here, still]
    · have later := ih (by simpa [List.find?_cons, here] using asleep)
      simp [here, List.countP_cons, later]

/-- A wake leaves woken futures woken. -/
theorem countP_wake (task : Nat) (pending : List AcquireFut) :
    pending.countP (·.woken) ≤ (wake task pending).countP (·.woken) := by
  induction pending with
  | nil => simp
  | cons f rest ih =>
    rw [wake_cons]
    by_cases here : f.waker = task <;> cases woken : f.woken <;>
      simp [here, woken] <;> omega

theorem countP_wake_lt {f : AcquireFut} (member : f ∈ pending) (here : f.waker = task)
    (asleep : f.woken = false) :
    pending.countP (·.woken) < (wake task pending).countP (·.woken) := by
  induction pending with
  | nil => cases member
  | cons g rest ih =>
    have others := countP_wake task rest
    rw [wake_cons]
    rcases List.mem_cons.mp member with rfl | member
    · simp [here, asleep]
      omega
    · have more := ih member
      by_cases same : g.waker = task <;> cases woken : g.woken <;>
        simp [same, woken] <;> omega

end

theorem step_inv {s t : State} {a : Act} (inv : Inv s) (ok : Careful s a)
    (taken : step s a = some t) : Inv t := by
  cases a with
  | poll id waker =>
    simp only [step] at taken
    split at taken
    · rename_i slot rest free
      cases taken
      refine ⟨fun f member => inv.queued f (mem_of_mem_remove member), ?_⟩
      apply inv.enough.imp
      · intro enough
        have fewer := countP_remove id s.pending
        rw [free, List.length_cons] at enough
        exact Nat.le_of_succ_le_succ (Nat.le_trans enough fewer)
      · exact fun all f member => all f (mem_of_mem_remove member)
    · rename_i free
      cases taken
      refine ⟨fun f member asleep => ?_, .inl (by simp [free])⟩
      rw [List.mem_append]
      rcases List.mem_cons.mp member with rfl | member
      · simp
      · exact .inl (inv.queued f (mem_of_mem_remove member) asleep)
  | drop id =>
    simp only [step] at taken
    split at taken <;> cases taken
    refine ⟨fun f member => inv.queued f (mem_of_mem_remove member), ?_⟩
    by_cases woken : (s.pending.find? fun f => f.id = id).any (·.woken) = true
    · apply (ok woken).imp
      · intro spare
        exact Nat.le_of_lt_succ (Nat.lt_of_lt_of_le spare (countP_remove id s.pending))
      · exact fun all f member => all f (mem_of_mem_remove member)
    · apply inv.enough.imp
      · intro enough
        exact Nat.le_trans enough (Nat.le_of_eq (countP_remove_of_not_woken id s.pending woken).symm)
      · exact fun all f member => all f (mem_of_mem_remove member)
  | release slot =>
    simp only [step] at taken
    split at taken
    · split at taken
      · rename_i task rest waiters
        cases taken
        constructor
        · intro f member asleep
          obtain ⟨g, old, rfl⟩ := List.mem_map.mp member
          by_cases here : g.waker = task
          · simp [here] at asleep
          · rw [if_neg here] at asleep ⊢
            have queued := inv.queued g old asleep
            rw [waiters] at queued
            exact (List.mem_cons.mp queued).resolve_left here
        · rcases ok with live | spare
          · obtain ⟨f, member, here, asleep⟩ := live task (by simp [waiters])
            apply inv.enough.imp
            · intro enough
              exact Nat.lt_of_le_of_lt enough (countP_wake_lt member here asleep)
            · intro all
              simp [all f member] at asleep
          · apply spare.imp
            · exact fun more => Nat.lt_of_lt_of_le more (countP_wake task s.pending)
            · intro all f member
              obtain ⟨g, old, rfl⟩ := List.mem_map.mp member
              split
              · rfl
              · exact all g old
      · rename_i waiters
        cases taken
        have all : ∀ f ∈ s.pending, f.woken = true := by
          intro f member
          by_contra asleep
          have queued := inv.queued f member (by simpa using asleep)
          simp [waiters] at queued
        exact ⟨inv.queued, .inr all⟩
    · cases taken

theorem inv_initial (slots : Nat) : Inv (initial slots) := by
  constructor <;> simp [initial]

/-- **Slots and wakeups.** No slot is held twice, in any run; and where slots are released to tasks
    that wait, a free slot has a woken future whenever one is pending. -/
theorem pool_wakes_waiters (slots : Nat) :
    (∀ s, Reach step anyStep (initial slots) s → s.held.Nodup ∧ ∀ slot ∈ s.held, slot ∉ s.free) ∧
    ∀ s, Reach step Careful (initial slots) s → s.NoLostWakeup := by
  constructor
  · intro s run
    have inv : Slots slots s := run.invariant (I := Slots slots) (by simp [Slots, initial])
      fun _ _ _ inv _ => step_slots inv
    have distinct := inv.nodup_iff.mpr List.nodup_range
    obtain ⟨-, once, apart⟩ := List.nodup_append.mp distinct
    exact ⟨once, fun slot held free => apart slot free slot held rfl⟩
  · intro s run
    exact (run.invariant (inv_initial slots) fun _ _ _ => step_inv).noLostWakeup

/-! ## Runs that take all slots -/

def drain : List Act := (List.range poolSlots).map fun i => .poll i i

def State.slept (s : State) : Bool :=
  !s.free.isEmpty && !s.pending.isEmpty && s.pending.all fun f => !f.woken

theorem lost_of_slept {s : State} (slept : s.slept = true) : ¬s.NoLostWakeup := by
  simp only [State.slept, Bool.and_eq_true, Bool.not_eq_true', List.isEmpty_eq_false_iff,
    List.all_eq_true] at slept
  obtain ⟨⟨free, pending⟩, asleep⟩ := slept
  intro kept
  obtain ⟨f, member, woken⟩ := kept free pending
  simp [asleep f member] at woken

/-- Two futures wait, and both get the slots that are released. -/
theorem released_slots_taken : ∃ s, Reach step Careful (initial poolSlots) s ∧
    s.pending.length = 1 ∧ s.free ≠ [] ∧ s.NoLostWakeup := by
  obtain ⟨s, ran, ended⟩ := exists_of_any (show (execWhile step Careful (initial poolSlots)
      (drain ++ [.poll 300 300, .poll 301 301, .release 0, .poll 300 300, .release 1])).any
      (fun s => s.pending.length == 1 && !s.free.isEmpty) = true by decide +kernel)
  have run := reach_execWhile ran
  simp only [Bool.and_eq_true, beq_iff_eq, Bool.not_eq_true', List.isEmpty_eq_false_iff] at ended
  exact ⟨s, run, ended.1, ended.2, (pool_wakes_waiters poolSlots).2 s run⟩

/-- With no slot left, a future that is polled twice leaves a waker behind when it gets its slot. -/
def polledTwice : List Act :=
  drain ++ [.poll 300 300, .poll 300 300, .poll 301 301, .release 0, .poll 300 300, .release 1]

/-- So does one that is dropped. -/
def dropped : List Act := drain ++ [.poll 300 300, .poll 301 301, .drop 300, .release 0]

/-- The next slot is released to nobody while another future waits. -/
theorem wakeups_lost :
    (∃ s, exec step (initial poolSlots) polledTwice = some s ∧ ¬s.NoLostWakeup ∧
      s.held.length = 255) ∧
    ∃ s, exec step (initial poolSlots) dropped = some s ∧ ¬s.NoLostWakeup ∧ s.held.length = 255 := by
  have lost {acts : List Act} (ended : ((exec step (initial poolSlots) acts).any fun s =>
      s.slept && s.held.length == 255) = true) :
      ∃ s, exec step (initial poolSlots) acts = some s ∧ ¬s.NoLostWakeup ∧ s.held.length = 255 := by
    obtain ⟨s, ran, ended⟩ := exists_of_any ended
    simp only [Bool.and_eq_true, beq_iff_eq] at ended
    exact ⟨s, ran, lost_of_slept ended.1, ended.2⟩
  exact ⟨lost (by decide +kernel), lost (by decide +kernel)⟩

end GlideFS.Ublk.BufferPool
