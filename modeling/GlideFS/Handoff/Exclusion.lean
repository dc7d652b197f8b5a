import GlideFS.Handoff.Protocol

/-! # At most one daemon serves

The successor takes over only after PREDS_DEAD, and the predecessor sends PREDS_DEAD
only after it has dropped its UblkServer. What is left is the way back: the predecessor
revives when it gets no ALIVE. That is safe if the successor is gone by then, and a
timeout alone does not say so.
-/

namespace GlideFS.Handoff

open Lib Handoff.System

variable {s t : System}

/-- Revived and unfrozen: it answers I/O again, or still does. -/
structure Predecessor.Serves (p : Predecessor) : Prop where
  up : p.stage ≠ .crashed
  idle : p.phase = .idle
  unfrozen : p.frozen = false
  ublk : p.ublk = true

def System.Exclusive (s : System) : Prop := ∀ n, s.succ = .serving n → ¬s.pred.Serves

/-- The predecessor has sent PREDS_DEAD and does not take it back. -/
def PredStage.HandedOver : PredStage → Prop
  | .awaitAlive | .ending (.succeeded _) | .done (.succeeded _) | .crashed => True
  | _ => False

/-- The predecessor has read READY and goes on. -/
def PredStage.AfterReady : PredStage → Prop
  | .freezing | .sendCutover | .cutting | .sendPredsDead | .awaitAlive => True
  | _ => False

def SuccStage.SentReady : SuccStage → Prop
  | .absent | .connecting | .awaitAck | .adopting _ _ | .sendReady _ _ => False
  | _ => True

/-- The successor has read PREDS_DEAD. -/
def SuccStage.TakesOver : SuccStage → Prop
  | .takeover _ _ | .sendAlive _ | .serving _ => True
  | _ => False

def SuccStage.Dead : SuccStage → Prop
  | .failed | .crashed => True
  | _ => False

def Message.IsAlive (m : Message) : Prop := ∃ n, m = .alive n

structure Inv (s : System) : Prop where
  ordered : s.toPred.Pairwise fun a b => a = .ready → b.IsAlive
  ready : .ready ∈ s.toPred → s.succ.SentReady
  after : s.pred.stage.AfterReady → s.succ.SentReady ∧ ∀ m ∈ s.toPred, m.IsAlive
  handed : ¬s.succ.Dead → .predsDead ∈ s.toSucc ∨ s.succ.TakesOver → s.pred.stage.HandedOver
  alive : s.pred.stage = .awaitAlive → ∀ n, s.succ = .serving n → s.toPred ≠ []
  dropped : s.pred.stage.HandedOver ∨ s.pred.stage = .sendPredsDead →
    s.pred.stage = .crashed ∨ s.pred.ublk = false

theorem Inv.exclusive (h : Inv s) : s.Exclusive := by
  intro n at_succ serves
  have handedOver := h.handed (by rw [at_succ]; exact id) (Or.inr (by rw [at_succ]; trivial))
  cases h.dropped (Or.inl handedOver) with
  | inl crashed => exact serves.up crashed
  | inr dropped =>
    have live := serves.ublk
    rw [dropped] at live
    cases live

theorem initial_inv : Inv System.initial where
  ordered := .nil
  ready mem := by cases mem
  after h := h.elim
  handed _ h := h.elim nofun id
  alive h := by cases h
  dropped h := h.elim (fun h => h.elim) nofun

/-! ## Steps of the predecessor -/

theorem Inv.pred (h : Inv s) (succ : t.succ = s.succ) (inbox : t.toPred <:+ s.toPred)
    (after : t.pred.stage.AfterReady → s.succ.SentReady ∧ ∀ m ∈ t.toPred, m.IsAlive)
    (handed : ¬s.succ.Dead → .predsDead ∈ t.toSucc ∨ s.succ.TakesOver →
      t.pred.stage.HandedOver)
    (alive : t.pred.stage = .awaitAlive → ∀ n, s.succ = .serving n → t.toPred ≠ [])
    (dropped : t.pred.stage.HandedOver ∨ t.pred.stage = .sendPredsDead →
      t.pred.stage = .crashed ∨ t.pred.ublk = false) : Inv t where
  ordered := h.ordered.sublist inbox.sublist
  ready mem := succ ▸ h.ready (inbox.mem mem)
  after := succ ▸ after
  handed := succ ▸ handed
  alive := succ ▸ alive
  dropped := dropped

@[simp] theorem tell_pred (s : System) (m : Message) : (s.tell m).pred = s.pred := by
  unfold System.tell
  split <;> rfl

@[simp] theorem tell_succ (s : System) (m : Message) : (s.tell m).succ = s.succ := by
  unfold System.tell
  split <;> rfl

@[simp] theorem tell_toPred (s : System) (m : Message) : (s.tell m).toPred = s.toPred := by
  unfold System.tell
  split <;> rfl

variable {m : Message} {rest : List Message}

theorem mem_tell (other : m ≠ .predsDead) (mem : .predsDead ∈ (s.tell m).toSucc) :
    .predsDead ∈ s.toSucc := by
  unfold System.tell at mem
  split at mem
  · exact mem
  · cases List.mem_append.mp mem with
    | inl before => exact before
    | inr last => exact absurd (List.mem_singleton.mp last).symm other

/-- A step after which the predecessor is not on its way to the cutover. -/
theorem Inv.off (h : Inv s) (before : ¬s.pred.stage.HandedOver) (succ : t.succ = s.succ)
    (inbox : t.toPred <:+ s.toPred) (outbox : .predsDead ∈ t.toSucc → .predsDead ∈ s.toSucc)
    (off : ¬t.pred.stage.AfterReady) (undone : ¬t.pred.stage.HandedOver) : Inv t := by
  refine h.pred succ inbox (fun on => absurd on off) (fun live sent => ?_) (fun at_t => ?_) ?_
  · exact absurd (h.handed live (sent.imp_left outbox)) before
  · rw [at_t] at off
    exact absurd trivial off
  · rintro (handedOver | sending)
    · exact absurd handedOver undone
    · rw [sending] at off
      exact absurd trivial off

/-- The predecessor reads up to `rest` and turns to a stage off the way to the cutover. -/
theorem Inv.turn (h : Inv s) (before : ¬s.pred.stage.HandedOver) (tail : rest <:+ s.toPred)
    {stage : PredStage} (off : ¬stage.AfterReady) (undone : ¬stage.HandedOver) :
    Inv ({ s with toPred := rest }.setPred stage) :=
  h.off before rfl tail id off undone

theorem Inv.tellTurn (h : Inv s) (before : ¬s.pred.stage.HandedOver) (tail : rest <:+ s.toPred)
    (other : m ≠ .predsDead) {stage : PredStage} (off : ¬stage.AfterReady)
    (undone : ¬stage.HandedOver) : Inv (({ s with toPred := rest }.tell m).setPred stage) :=
  h.off before (tell_succ _ m) (by change (tell _ m).toPred <:+ _; simpa using tail)
    (mem_tell (s := { s with toPred := rest }) other) off undone

theorem predMessage_inv (h : Inv s) (inbox : s.toPred = m :: rest)
    (taken : onPredMessage { s with toPred := rest } m = some t) : Inv t := by
  have tail : rest <:+ s.toPred := inbox ▸ List.suffix_cons m rest
  have listed : m ∈ s.toPred := inbox ▸ List.mem_cons_self
  have before {stage : PredStage} (at_stage : s.pred.stage = stage) (other : ¬stage.HandedOver) :
      ¬s.pred.stage.HandedOver := at_stage ▸ other
  unfold onPredMessage at taken
  split at taken
  case h_1 version capabilities dryRun at_hello =>
    dsimp only at taken
    split at taken
    · cases taken
      exact h.tellTurn (before at_hello id) tail (by nofun) (by exact id) (by exact id)
    · split at taken
      · cases taken
        exact h.tellTurn (before at_hello id) tail (by nofun) (by exact id) (by exact id)
      · cases taken
        exact h.turn (before at_hello id) tail id id
  case h_2 at_hello _ =>
    cases taken
    exact h.turn (before at_hello id) tail id id
  case h_3 at_ready =>
    cases taken
    exact h.tellTurn (before at_ready id) tail (by nofun) (by exact id) (by exact id)
  case h_4 at_ready =>
    cases taken
    have later : ∀ m ∈ rest, m.IsAlive := by
      intro m mem
      have ordered := h.ordered
      rw [inbox] at ordered
      exact (List.pairwise_cons.mp ordered).1 m mem rfl
    refine h.pred rfl tail (fun _ => ⟨h.ready listed, later⟩) (fun live sent => ?_)
      nofun (fun handedOver => ?_)
    · exact absurd (h.handed live sent) (before at_ready id)
    · rcases handedOver with handedOver | handedOver
      · exact handedOver.elim
      · cases handedOver
  case h_5 =>
    rename _ = PredStage.awaitReady _ => at_ready
    cases taken
    exact h.turn (before at_ready id) tail id id
  case h_6 =>
    rename _ = PredStage.awaitReady _ => at_ready
    cases taken
    exact h.turn (before at_ready id) tail id id
  case h_7 recovered at_alive =>
    cases taken
    refine h.pred rfl tail (fun on => on.elim) (fun _ _ => trivial) nofun
      (fun _ => ?_)
    have dropped := h.dropped (Or.inl (by rw [show s.pred.stage = _ from at_alive]; trivial))
    rw [show s.pred.stage = _ from at_alive] at dropped
    exact Or.inr (dropped.resolve_left nofun)
  case h_8 at_alive other =>
    have on : s.pred.stage.AfterReady := by rw [show s.pred.stage = _ from at_alive]; trivial
    obtain ⟨n, alive⟩ := (h.after on).2 _ listed
    exact absurd alive (other n)
  case h_9 => cases taken

/-- The predecessor stays on its way to the cutover. -/
theorem Inv.onward (h : Inv s) (was : s.pred.stage.AfterReady)
    (before : ¬s.pred.stage.HandedOver) (succ : t.succ = s.succ) (inbox : t.toPred = s.toPred)
    (outbox : .predsDead ∈ t.toSucc → .predsDead ∈ s.toSucc) (undone : ¬t.pred.stage.HandedOver)
    (dropped : t.pred.stage = .sendPredsDead → t.pred.ublk = false) : Inv t := by
  refine h.pred succ (inbox ▸ List.suffix_rfl) (fun _ => inbox ▸ h.after was) (fun live sent => ?_)
    (fun at_t => ?_) ?_
  · exact absurd (h.handed live (sent.imp_left outbox)) before
  · rw [at_t] at undone
    exact absurd trivial undone
  · rintro (handedOver | sending)
    · exact absurd handedOver undone
    · exact Or.inr (dropped sending)

theorem freeze_inv (h : Inv s) (at_s : s.pred.stage = .freezing) (ok : Bool) :
    Inv (s.freeze ok) := by
  have before : ¬s.pred.stage.HandedOver := at_s ▸ id
  unfold freeze
  dsimp only
  split
  · exact h.onward (by rw [at_s]; trivial) before rfl rfl id id nofun
  · refine h.off before (tell_succ _ _) ?_ (mem_tell (by nofun)) id id
    exact ⟨[], tell_toPred _ _⟩

theorem sendCutover_inv (h : Inv s) (at_s : s.pred.stage = .sendCutover) :
    Inv (s.tellOr .cutover .cutting) := by
  have before : ¬s.pred.stage.HandedOver := at_s ▸ id
  unfold tellOr
  split
  · exact h.off before rfl List.suffix_rfl id id id
  · exact h.onward (by rw [at_s]; trivial) before (tell_succ s _) (tell_toPred s _)
      (mem_tell (by nofun)) id nofun

theorem cut_inv (h : Inv s) (at_s : s.pred.stage = .cutting) (ok : Bool) : Inv (s.cut ok) := by
  have before : ¬s.pred.stage.HandedOver := at_s ▸ id
  cases ok with
  | true => exact h.onward (by rw [at_s]; trivial) before rfl rfl id id fun _ => rfl
  | false => exact h.off before rfl List.suffix_rfl id id id

theorem sendPredsDead_inv (h : Inv s) (at_s : s.pred.stage = .sendPredsDead) :
    Inv (s.tellOr .predsDead .awaitAlive) := by
  have before : ¬s.pred.stage.HandedOver := at_s ▸ id
  have was : s.pred.stage.AfterReady := by rw [at_s]; trivial
  unfold tellOr
  split
  · exact h.off before rfl List.suffix_rfl id id id
  · rename_i opened
    refine h.pred (tell_succ s _) ?_ (fun _ => ?_) (fun _ _ => trivial) (fun _ n serving => ?_)
      (fun _ => ?_)
    · exact ⟨[], tell_toPred _ _⟩
    · change _ ∧ ∀ m ∈ (s.tell _).toPred, _
      rw [tell_toPred]
      exact h.after was
    · rw [serving] at opened
      exact absurd rfl opened
    · change _ ∨ (s.tell _).pred.ublk = false
      rw [tell_pred]
      refine Or.inr ((h.dropped (Or.inr at_s)).resolve_left fun crashed => ?_)
      rw [at_s] at crashed
      cases crashed

/-- The way back after PREDS_DEAD is open only when the successor is dead. -/
theorem reviving_inv (h : Inv s) (dead : s.succ.Dead) : Inv (s.setPred .reviving) :=
  h.pred rfl List.suffix_rfl (fun on => on.elim) (fun live => absurd dead live)
    nofun (fun handedOver => handedOver.elim False.elim nofun)

theorem predError_inv (h : Inv s) (empty : s.toPred = []) (closed : s.succ.Closed = true)
    (taken : s.onPredError = some t) : Inv t := by
  unfold onPredError at taken
  split at taken
  case h_1 at_hello =>
    cases taken
    exact h.off (at_hello ▸ id) rfl List.suffix_rfl id id id
  case h_2 at_ready =>
    cases taken
    exact h.off (at_ready ▸ id) rfl List.suffix_rfl id id id
  case h_3 at_alive =>
    cases taken
    refine reviving_inv h ?_
    cases at_succ : s.succ with
    | serving n => exact absurd empty (h.alive at_alive n at_succ)
    | failed | crashed => trivial
    | _ => rw [at_succ] at closed; cases closed
  case h_4 => cases taken

theorem predTimeout_inv (h : Inv s) (patient : s.pred.stage = .awaitAlive → s.succ.Dead)
    (taken : s.onPredTimeout = some t) : Inv t := by
  unfold onPredTimeout at taken
  split at taken
  case h_1 at_s | h_2 at_s | h_3 at_s =>
    cases taken
    exact h.off (at_s ▸ id) rfl List.suffix_rfl id id id
  case h_4 at_alive =>
    cases taken
    exact reviving_inv h (patient at_alive)
  case h_5 => cases taken

/-! ## Steps of the successor -/

theorem Inv.succ (h : Inv s) (pred : t.pred = s.pred) (inbox : t.toPred = s.toPred)
    (sent : s.succ.SentReady → t.succ.SentReady)
    (handed : ¬t.succ.Dead → .predsDead ∈ t.toSucc ∨ t.succ.TakesOver →
      ¬s.succ.Dead ∧ (.predsDead ∈ s.toSucc ∨ s.succ.TakesOver))
    (unserving : ∀ n, t.succ ≠ .serving n) : Inv t where
  ordered := inbox ▸ h.ordered
  ready mem := sent (h.ready (inbox ▸ mem))
  after := by
    rw [pred, inbox]
    exact fun on => ⟨sent (h.after on).1, (h.after on).2⟩
  handed := by
    rw [pred]
    exact fun live way => h.handed (handed live way).1 (handed live way).2
  alive _ n serving := absurd serving (unserving n)
  dropped := pred ▸ h.dropped

theorem Inv.die (h : Inv s) (rest : List Message) {stage : SuccStage} (dead : stage.Dead) :
    Inv ({ s with toSucc := rest }.setSucc stage) := by
  cases stage with
  | failed | crashed =>
    exact h.succ rfl rfl (fun _ => trivial) (fun live => absurd trivial live) nofun
  | _ => exact dead.elim

theorem Inv.fail (h : Inv s) : Inv (s.setSucc .failed) :=
  h.die s.toSucc trivial

/-- A message before READY, or READY. -/
theorem Inv.say (h : Inv s) (early : ¬s.succ.SentReady)
    (live : ¬s.succ.Dead) {next : SuccStage} (quiet : ¬next.TakesOver)
    (sent : m = .ready → next.SentReady) : Inv (s.answer m next) := by
  have unready : .ready ∉ s.toPred := fun mem => early (h.ready mem)
  have off : ¬s.pred.stage.AfterReady := fun on => early (h.after on).1
  unfold answer
  split
  · exact h.fail
  · refine ⟨?_, fun mem => ?_, fun on => absurd on off, fun _ way => ?_, fun at_s n serving => ?_,
      h.dropped⟩
    · refine List.pairwise_append.mpr ⟨h.ordered, List.pairwise_singleton _ _, ?_⟩
      intro a mem b _ first
      exact absurd (first ▸ mem) unready
    · cases List.mem_append.mp mem with
      | inl before => exact absurd before unready
      | inr last => exact sent (List.mem_singleton.mp last).symm
    · exact h.handed live (way.imp_right fun takes => absurd takes quiet)
    · cases serving
      exact absurd trivial quiet

theorem sendAlive_inv (h : Inv s) {recovered : Nat} (at_s : s.succ = .sendAlive recovered) :
    Inv (s.answer (.alive recovered) (.serving recovered)) := by
  unfold answer
  split
  · exact h.fail
  · refine ⟨?_, fun _ => trivial, fun on => ⟨trivial, fun m mem => ?_⟩, fun _ _ => ?_,
      fun _ _ _ => ?_, h.dropped⟩
    · refine List.pairwise_append.mpr ⟨h.ordered, List.pairwise_singleton _ _, ?_⟩
      intro _ _ b last _
      exact ⟨recovered, List.mem_singleton.mp last⟩
    · cases List.mem_append.mp mem with
      | inl before => exact (h.after on).2 m before
      | inr last => exact ⟨recovered, List.mem_singleton.mp last⟩
    · exact h.handed (at_s ▸ id) (Or.inr (by rw [at_s]; trivial))
    · exact List.append_ne_nil_of_right_ne_nil _ (List.cons_ne_nil _ _)

theorem succMessage_inv (h : Inv s) (inbox : s.toSucc = m :: rest)
    (taken : onSuccMessage { s with toSucc := rest } m = some t) : Inv t := by
  have later {x : Message} (mem : x ∈ rest) : x ∈ s.toSucc := inbox ▸ List.mem_cons_of_mem m mem
  unfold onSuccMessage at taken
  split at taken
  case h_1 version _ strategy exports at_ack =>
    have at_s : s.succ = .awaitAck := at_ack
    split at taken
    · cases taken
      exact h.die _ trivial
    · cases taken
      refine h.succ rfl rfl (fun early => ?_) (fun _ way => ⟨at_s ▸ id, ?_⟩) nofun
      · rw [at_s] at early
        exact early
      · exact Or.inl (later (way.resolve_right id))
  case h_2 | h_4 | h_6 =>
    cases taken
    exact h.die _ trivial
  case h_3 strategy exports at_cutover =>
    cases taken
    have at_s : s.succ = .awaitCutover strategy exports := at_cutover
    refine h.succ rfl rfl (fun _ => trivial) (fun _ way => ⟨at_s ▸ id, ?_⟩) nofun
    exact Or.inl (later (way.resolve_right id))
  case h_5 strategy exports at_dead =>
    cases taken
    have at_s : s.succ = .awaitPredsDead strategy exports := at_dead
    refine h.succ rfl rfl (fun _ => trivial) (fun _ _ => ⟨at_s ▸ id, ?_⟩) nofun
    exact Or.inl (inbox ▸ List.mem_cons_self)
  case h_7 => cases taken

theorem succError_inv (h : Inv s) (taken : s.onSuccError = some t) : Inv t := by
  unfold onSuccError at taken
  split at taken
  case h_1 | h_2 | h_3 =>
    cases taken
    exact h.fail
  case h_4 => cases taken

/-! ## Every run -/

/-- The wait for ALIVE times out only when the successor has failed or crashed. -/
def Act.Patient (s : System) : Act → Prop
  | .predTimeout => s.pred.stage = .awaitAlive → s.succ.Dead
  | _ => True

theorem start_inv (h : Inv s) (fresh : s.pred.stage = .serving) (at_s : s.succ = .absent)
    (dryRun : Bool) :
    Inv { s with pred := { s.pred with stage := .accepting, phase := .warming },
                 succ := .connecting, dryRun } where
  ordered := h.ordered
  ready mem := by
    have early := h.ready mem
    rw [at_s] at early
    exact early
  after on := on.elim
  handed _ way := by
    have handedOver := h.handed (at_s ▸ id) (Or.inl (way.resolve_right id))
    rw [fresh] at handedOver
    exact handedOver.elim
  alive at_t := by cases at_t
  dropped handedOver := handedOver.elim False.elim nofun

theorem finish_inv (h : Inv s) {outcome : Outcome} (at_s : s.pred.stage = .ending outcome) :
    Inv { s with pred := { s.pred with phase := .idle, stage := .done outcome } } := by
  cases outcome with
  | succeeded n =>
    have handedOver : s.pred.stage.HandedOver := by rw [at_s]; trivial
    refine h.pred rfl List.suffix_rfl (fun on => on.elim) (fun _ _ => trivial)
      nofun (fun _ => Or.inr ?_)
    refine (h.dropped (Or.inl handedOver)).resolve_left fun crashed => ?_
    rw [at_s] at crashed
    cases crashed
  | _ => exact h.off (at_s ▸ id) rfl List.suffix_rfl id id id

theorem step_inv (h : Inv s) {a : Act} (patient : a.Patient s) (taken : a.step s = some t) :
    Inv t := by
  cases a with
  | start dryRun =>
    simp only [Act.step] at taken
    split at taken
    · rename_i at_s
      cases taken
      exact start_inv h at_s.1 at_s.2 dryRun
    · cases taken
  | accept ok =>
    obtain ⟨at_s, taken⟩ := Option.ite_none_right_eq_some.mp taken
    split at taken
    · cases taken
      exact h.off (at_s ▸ id) rfl List.suffix_rfl id id id
    · obtain ⟨-, done⟩ := Option.ite_none_left_eq_some.mp taken
      cases done
      exact h.off (at_s ▸ id) rfl List.suffix_rfl id id id
  | predRecv =>
    simp only [Act.step] at taken
    split at taken
    · rename_i m rest inbox
      exact predMessage_inv h inbox taken
    · rename_i empty
      split at taken
      · rename_i closed
        exact predError_inv h empty closed taken
      · cases taken
  | predTimeout => exact predTimeout_inv h patient taken
  | fence ok exports =>
    simp only [Act.step] at taken
    split at taken
    · rename_i negotiated dryRun at_s
      have before : ¬s.pred.stage.HandedOver := at_s ▸ id
      split at taken
      · cases taken
        unfold tellOr
        split
        · exact h.off before rfl List.suffix_rfl id id id
        · refine h.off before (tell_succ _ _) ?_ (mem_tell (by nofun)) id id
          exact ⟨[], tell_toPred _ _⟩
      · cases taken
        exact h.tellTurn before List.suffix_rfl (by nofun) (by exact id) (by exact id)
    · cases taken
  | freeze ok =>
    obtain ⟨at_s, done⟩ := Option.ite_none_right_eq_some.mp taken
    cases done
    exact freeze_inv h at_s ok
  | sendCutover =>
    obtain ⟨at_s, done⟩ := Option.ite_none_right_eq_some.mp taken
    cases done
    exact sendCutover_inv h at_s
  | cutover ok =>
    obtain ⟨at_s, done⟩ := Option.ite_none_right_eq_some.mp taken
    cases done
    exact cut_inv h at_s ok
  | sendPredsDead =>
    obtain ⟨at_s, done⟩ := Option.ite_none_right_eq_some.mp taken
    cases done
    exact sendPredsDead_inv h at_s
  | revive ok =>
    obtain ⟨at_s, done⟩ := Option.ite_none_right_eq_some.mp taken
    cases done
    cases ok <;> exact h.off (at_s ▸ id) rfl List.suffix_rfl id id id
  | unfreeze =>
    simp only [Act.step] at taken
    split at taken
    · rename_i cause at_s
      cases taken
      cases cause <;> exact h.off (at_s ▸ id) rfl List.suffix_rfl id id id
    · cases taken
  | finish =>
    simp only [Act.step] at taken
    split at taken
    · rename_i outcome at_s
      cases taken
      exact finish_inv h at_s
    · cases taken
  | predCrash =>
    cases taken
    exact h.pred rfl List.suffix_rfl (fun on => on.elim) (fun _ _ => trivial)
      nofun (fun _ => Or.inl rfl)
  | connect ok =>
    obtain ⟨at_s, done⟩ := Option.ite_none_right_eq_some.mp taken
    split at done
    · cases done
      exact h.say (at_s ▸ id) (at_s ▸ id) (by exact id) (by nofun)
    · cases done
      exact h.fail
  | succRecv =>
    simp only [Act.step] at taken
    split at taken
    · rename_i m rest inbox
      exact succMessage_inv h inbox taken
    · split at taken
      · exact succError_inv h taken
      · cases taken
  | succTimeout => exact succError_inv h taken
  | adopt missing =>
    simp only [Act.step] at taken
    split at taken
    · rename_i strategy exports at_s
      split at taken
      · cases taken
        refine h.succ rfl rfl (fun early => ?_) (fun _ way => ⟨at_s ▸ id, ?_⟩) nofun
        · rw [at_s] at early
          exact early
        · exact Or.inl (way.resolve_right id)
      · cases taken
        exact h.say (at_s ▸ id) (at_s ▸ id) (by exact id) (by nofun)
    · cases taken
  | sendReady =>
    simp only [Act.step] at taken
    split at taken
    · rename_i strategy exports at_s
      cases taken
      exact h.say (at_s ▸ id) (at_s ▸ id) (by exact id) (fun _ => trivial)
    · cases taken
  | takeover result =>
    simp only [Act.step] at taken
    split at taken
    · rename_i strategy exports at_s
      split at taken
      · cases taken
        exact h.fail
      · split at taken
        · cases taken
          refine h.succ rfl rfl (fun _ => trivial) (fun _ _ => ⟨at_s ▸ id, ?_⟩) nofun
          exact Or.inr (by rw [at_s]; trivial)
        · cases taken
          exact h.fail
    · cases taken
  | sendAlive =>
    simp only [Act.step] at taken
    split at taken
    · rename_i recovered at_s
      cases taken
      exact sendAlive_inv h at_s
    · cases taken
  | succCrash =>
    obtain ⟨_, done⟩ := Option.ite_none_left_eq_some.mp taken
    cases done
    exact h.die s.toSucc trivial

/-- In every run whose waits for ALIVE time out only when the successor is dead, no state has
    both daemons serving. -/
theorem handoff_exclusive (run : Reach Act.step Act.Patient System.initial s) : s.Exclusive :=
  (run.invariant initial_inv fun _ _ _ held patient taken => step_inv held patient taken).exclusive

/-- A handoff up to PREDS_DEAD. -/
def toPredsDead : List Act :=
  [.start false, .connect true, .accept true, .predRecv, .fence true [⟨"vol", some 0⟩], .succRecv,
    .adopt [], .sendReady, .predRecv, .freeze true, .sendCutover, .cutover true, .sendPredsDead,
    .succRecv, .succRecv]

/-- A whole handoff ends with one daemon serving. -/
theorem handoff_succeeds_exclusive :
    ∃ s : System, s.succ = .serving 1 ∧ s.pred.stage = .done (.succeeded 1) ∧ s.Exclusive := by
  obtain ⟨s, run, serving, done⟩ : ∃ s, exec Act.step System.initial
      (toPredsDead ++ [.takeover (some 1), .sendAlive, .predRecv, .finish]) = some s ∧
      s.succ = .serving 1 ∧ s.pred.stage = .done (.succeeded 1) := ⟨_, rfl, rfl, rfl⟩
  refine ⟨s, serving, done, handoff_exclusive (reach_exec_of run ?_)⟩
  intro a mem u
  simp only [toPredsDead, List.cons_append, List.nil_append, List.mem_cons, List.not_mem_nil,
    or_false] at mem
  rcases mem with rfl | rfl | rfl | rfl | rfl | rfl | rfl | rfl | rfl | rfl | rfl | rfl | rfl | rfl |
    rfl | rfl | rfl | rfl | rfl <;> exact trivial

/-- A slow successor: the predecessor stops waiting for ALIVE and revives, then the successor
    finishes its takeover and sends ALIVE into the open socket. -/
theorem slow_successor_both_serve :
    ∃ s, Reach Act.step anyStep System.initial s ∧ ¬s.Exclusive := by
  obtain ⟨s, run, serving, serves⟩ : ∃ s, exec Act.step System.initial
      (toPredsDead ++ [.predTimeout, .revive true, .unfreeze, .takeover (some 0), .sendAlive]) = some s ∧
      s.succ = .serving 0 ∧ s.pred.Serves := ⟨_, rfl, rfl, nofun, rfl, rfl, rfl⟩
  exact ⟨s, reach_exec run, fun exclusive => exclusive 0 serving serves⟩

end GlideFS.Handoff
