import GlideFS.Nbd.Session
import Mathlib.Algebra.Order.Group.Multiset
import Mathlib.Tactic.Abel

/-! # Replies stay framed

Every request that asks for a reply is in one place at a time: owed by the loop, in a
task, in the channel or sent. What is sent are whole messages, so the client reads
them as replies as long as each has the data the client expects behind it. Messages
of reads have it only if the read succeeds with the requested number of bytes: an
error or a panic still sends zeros.
-/

namespace GlideFS.Nbd

open Lib

/-- A disconnect is answered by closing the connection, unless it is refused for its length. -/
def asksReply (r : NBDRequest) : Bool := r.cmdType ≠ .disconnect || maxRequestPayload < r.length

/-- Nothing is worked on and nothing waits to be sent. -/
def Session.Idle (s : Session) : Prop := s.writing = true ∧ s.tasks = [] ∧ s.queue = []

/-- The requests taken are the client's, and what was sent is read as replies to some of them,
    each with one reply. Those that are left are being worked on; once the writer is gone,
    the part of a message that was sent last belongs to one of them. -/
structure Framed (client : List ClientRequest) (s : Session) : Prop where
  taken : s.taken <+: client.map ClientRequest.request
  replies : ∃ answered pending replies cut,
    readReplies answered s.sent = some (replies, cut) ∧
    (answered ++ pending).Perm (s.taken.filter asksReply) ∧
    (s.Idle → pending = []) ∧
    (s.writing = true → cut = []) ∧
    (cut ≠ [] → ∃ r ∈ pending, ∃ more reply, readReply r (cut ++ more) = some (reply, []))

/-! ## The requests that are read well -/

/-- The read below the handler succeeds, from blocks that are as long as the cache's block size,
    the last one at least up to where the range ends. A range that goes beyond the device is
    filled up, so the first block only has to reach where the range begins. -/
def CacheMet.Covers (E : Export) (offset length : Nat) : CacheMet → Prop
  | .failed _ | .panicked => False
  | .onDisk _ => True
  | .blocks line =>
      let first := offset / E.blockSize
      let last := (offset + length - 1) / E.blockSize
      if offset + length ≤ E.deviceSize then
        (∀ b, first ≤ b → b < last → (line b).length = E.blockSize) ∧
          offset + length - last * E.blockSize ≤ (line last).length
      else offset - first * E.blockSize ≤ (line first).length

/-- The read is empty, or it lies beyond the device, or it succeeds in full. -/
def ReadMet.Serves (E : Export) (met : ReadMet) (r : NBDRequest) : Prop :=
  r.length = 0 ∨ met.degraded = false ∧
    (r.offset.toNat < E.deviceSize → met.cache.Covers E r.offset.toNat r.length.toNat)

/-- No read that asks for data fails, panics or is served from blocks of another size. -/
def Careful (E : Export) (s : Session) : Act → Prop
  | .finishRead i met => ∀ task, s.tasks[i]? = some task → met.Serves E task.request
  | _ => True

variable {E : Export} {r : NBDRequest} {client earlier later : List ClientRequest} {s t : Session}
  {c : ClientRequest}

theorem cacheRead_blocks {line : Nat → List UInt8} {offset len : Nat} (some_len : 0 < len)
    (inside : offset + len ≤ E.deviceSize) :
    cacheRead E (.blocks line) offset len = .ofOption (assemble E.blockSize line offset len) := by
  rw [cacheRead, if_neg (by omega), if_neg (by omega)]
  by_cases one : offset / E.blockSize = (offset + len - 1) / E.blockSize
  · simp only [if_pos one, assemble_single line one]
  · simp only [if_neg one]

theorem handlerRead_of_serves {met : ReadMet} (positive : r.length ≠ 0) (serves : met.Serves E r) :
    ∃ data, handlerRead E met r.offset.toNat r.length.toNat = .ok data ∧
      data.length = r.length.toNat := by
  have some_len : 0 < r.length.toNat := by
    rw [Nat.pos_iff_ne_zero]
    intro zero
    exact positive (UInt32.toNat_inj.mp zero)
  obtain ⟨up, covers⟩ := serves.resolve_left positive
  rw [handlerRead, if_neg (by simp [up])]
  by_cases beyond : E.deviceSize ≤ r.offset.toNat
  · rw [if_pos beyond]
    exact ⟨_, rfl, List.length_replicate⟩
  · rw [if_neg beyond, if_neg (by omega)]
    have covers := covers (by omega)
    by_cases inside : r.offset.toNat + r.length.toNat ≤ E.deviceSize
    · -- the whole range is on the device
      have whole : min r.length.toNat (E.deviceSize - r.offset.toNat) = r.length.toNat := by omega
      simp only [whole, Nat.lt_irrefl, if_false]
      cases here : met.cache with
      | failed e => simp [here, CacheMet.Covers] at covers
      | panicked => simp [here, CacheMet.Covers] at covers
      | onDisk file =>
        rw [cacheRead, if_neg (by omega), if_neg (by omega)]
        exact ⟨_, rfl, by simp⟩
      | blocks line =>
        simp only [here, CacheMet.Covers, inside, if_true] at covers
        obtain ⟨d, put, size⟩ := length_assemble E.pos some_len covers.1 covers.2
        rw [cacheRead_blocks some_len inside, put]
        exact ⟨_, rfl, size⟩
    · -- the read is cut at the end of the device and filled up
      have short : min r.length.toNat (E.deviceSize - r.offset.toNat) =
          E.deviceSize - r.offset.toNat := by omega
      have less : E.deviceSize - r.offset.toNat < r.length.toNat := by omega
      simp only [short, less, if_true]
      cases here : met.cache with
      | failed e => simp [here, CacheMet.Covers] at covers
      | panicked => simp [here, CacheMet.Covers] at covers
      | onDisk file =>
        rw [cacheRead, if_neg (by omega), if_neg (by omega)]
        exact ⟨_, rfl, by simp⟩
      | blocks line =>
        simp only [here, CacheMet.Covers, inside, if_false] at covers
        obtain ⟨d, put⟩ := assemble_of_begun line (E.deviceSize - r.offset.toNat) covers
        rw [cacheRead_blocks (by omega) (by omega), put]
        exact ⟨_, rfl, by simp⟩

/-! ## The messages of the server -/

theorem answers_of_empty {error : UInt32} (dataless : r.cmdType = .read → error ≠ nbdSuccess) :
    Answers r ⟨r.cookie, error, []⟩ := by
  constructor
  · rfl
  · rw [NBDRequest.payloadLength, if_neg fun both => dataless both.1 both.2]
    rfl

theorem refusal_answers (r : NBDRequest) : ∃ m, refusal r = .simple m ∧ Answers r m :=
  ⟨_, rfl, answers_of_empty fun _ => by decide⟩

theorem callResponse_answers (other : r.cmdType ≠ .read) (outcome : Outcome Unit) :
    ∃ m, callResponse r outcome = .simple m ∧ Answers r m := by
  cases outcome <;> exact ⟨_, rfl, answers_of_empty fun read => absurd read other⟩

theorem readResponse_answers {met : ReadMet} (read : r.cmdType = .read) (serves : met.Serves E r) :
    ∃ m, readResponse E r met = .simple m ∧ Answers r m := by
  by_cases empty : r.length = 0
  · -- there is no data to send, whatever the read meets
    have none_of (error : UInt32) : r.payloadLength error = 0 := by
      simp [NBDRequest.payloadLength, empty]
    cases got : handlerRead E met r.offset.toNat r.length.toNat with
    | ok data =>
      have nothing : data = [] := by
        rw [handlerRead] at got
        simp only [empty, UInt32.toNat_zero, if_true, List.replicate_zero] at got
        split at got
        · cases got
        · split at got <;> cases got <;> rfl
      refine ⟨_, by rw [readResponse, got], rfl, ?_⟩
      rw [none_of, nothing]
      rfl
    | error e => exact ⟨_, by rw [readResponse, got], rfl, by simp [none_of, empty]⟩
    | panicked => exact ⟨_, by rw [readResponse, got], rfl, by simp [none_of, empty]⟩
  · obtain ⟨data, got, size⟩ := handlerRead_of_serves empty serves
    exact ⟨_, by rw [readResponse, got], rfl, by simp [NBDRequest.payloadLength, read, size]⟩

/-! ## Where the requests are -/

/-- The replies among the messages. -/
def simples (queue : List Response) : List Simple :=
  queue.filterMap fun
    | .simple m => some m
    | _ => none

/-- The requests taken: answered by the messages sent, by messages in the channel, worked on, lost
    to a writer that is gone, or still owed. -/
structure Books (s : Session) (owed answered waiting lost : List NBDRequest) (messages : List Simple)
    (cut : List UInt8) : Prop where
  answers : List.Forall₂ Answers answered messages
  sent : s.sent = messages.flatMap Simple.toBytes ++ cut
  queued : List.Forall₂ Answers waiting (simples s.queue)
  sum : (answered + waiting + s.tasks.map Task.request + lost + owed : Multiset NBDRequest) =
    s.taken.filter asksReply
  whole : s.writing = true → lost = [] ∧ cut = []
  part : cut ≠ [] → ∃ r ∈ waiting, ∃ m, Answers r m ∧ cut <+: m.toBytes

def Ledger (s : Session) (owed : List NBDRequest) : Prop :=
  ∃ answered waiting lost messages cut, Books s owed answered waiting lost messages cut

namespace Ledger

variable {s : Session} {r : NBDRequest}

/-- The books do not look at the reader and the token. -/
theorem keep {owed : List NBDRequest} (h : Ledger s owed) (input : List UInt8) (reading cancelled : Bool) :
    Ledger { s with input := input, reading := reading, cancelled := cancelled } owed := by
  obtain ⟨answered, waiting, lost, messages, cut, h⟩ := h
  exact ⟨answered, waiting, lost, messages, cut, { h with }⟩

theorem take (h : Ledger s []) (asks : asksReply r = true) (rest : List UInt8) :
    Ledger (s.take r rest) [r] := by
  obtain ⟨answered, waiting, lost, messages, cut, h⟩ := h
  refine ⟨answered, waiting, lost, messages, cut, { h with sum := ?_ }⟩
  have sum := h.sum
  simp only [Session.take, List.filter_append, List.filter_cons, asks, if_true, List.filter_nil,
    ← Multiset.coe_add] at sum ⊢
  rw [← sum]
  simp

theorem take_silent (h : Ledger s []) (silent : asksReply r = false) (rest : List UInt8) :
    Ledger (s.take r rest) [] := by
  obtain ⟨answered, waiting, lost, messages, cut, h⟩ := h
  refine ⟨answered, waiting, lost, messages, cut, { h with sum := ?_ }⟩
  simpa [Session.take, List.filter_append, silent] using h.sum

theorem spawn (h : Ledger s [r]) (data : Bool) : Ledger (s.spawn r data) [] := by
  obtain ⟨answered, waiting, lost, messages, cut, h⟩ := h
  refine ⟨answered, waiting, lost, messages, cut, { h with sum := Eq.trans ?_ h.sum }⟩
  simp only [Session.spawn, List.map_append, List.map_singleton, ← Multiset.coe_add, Multiset.coe_nil]
  abel

/-- The message of a task that is done is owed. -/
theorem finish (h : Ledger s []) {i : Nat} {task : Task} (there : s.tasks[i]? = some task) :
    Ledger { s with tasks := s.tasks.eraseIdx i } [task.request] := by
  obtain ⟨answered, waiting, lost, messages, cut, h⟩ := h
  refine ⟨answered, waiting, lost, messages, cut, { h with sum := Eq.trans ?_ h.sum }⟩
  obtain ⟨inside, rfl⟩ := List.getElem?_eq_some_iff.mp there
  have moved : (s.tasks.map Task.request : Multiset NBDRequest) =
      [s.tasks[i].request] + (s.tasks.eraseIdx i).map Task.request :=
    Multiset.coe_eq_coe.mpr ((List.getElem_cons_eraseIdx_perm inside).map Task.request).symm
  rw [moved, Multiset.coe_nil]
  abel

theorem send (h : Ledger s [r]) {m : Simple} (answers : Answers r m) :
    Ledger (s.send (.simple m)) [] := by
  obtain ⟨answered, waiting, lost, messages, cut, h⟩ := h
  rw [Session.send]
  split
  · rename_i up
    refine ⟨answered, waiting ++ [r], lost, messages, cut, { h with
      queued := ?_, sum := Eq.trans ?_ h.sum, part := fun some_cut => ?_ }⟩
    · simpa [simples] using List.rel_append h.queued (.cons answers .nil)
    · simp only [← Multiset.coe_add, Multiset.coe_nil]
      abel
    · exact absurd (h.whole up).2 some_cut
  · rename_i down
    refine ⟨answered, waiting, lost ++ [r], messages, cut, { h with
      sum := Eq.trans ?_ h.sum, whole := fun up => absurd up down }⟩
    simp only [← Multiset.coe_add, Multiset.coe_nil]
    abel

theorem send_control (h : Ledger s []) {m : Response} (control : simples [m] = []) :
    Ledger (s.send m) [] := by
  obtain ⟨answered, waiting, lost, messages, cut, h⟩ := h
  rw [Session.send]
  split
  · refine ⟨answered, waiting, lost, messages, cut, { h with queued := ?_ }⟩
    have same : simples (s.queue ++ [m]) = simples s.queue := by
      rw [simples, List.filterMap_append]
      simp [simples] at control ⊢
      exact control
    rw [same]
    exact h.queued
  · exact ⟨answered, waiting, lost, messages, cut, h⟩

theorem close (h : Ledger s []) : Ledger s.close [] := by
  obtain ⟨answered, waiting, lost, messages, cut, h⟩ := h
  exact ⟨answered, waiting, lost, messages, cut, { h with whole := fun open_ => by cases open_ }⟩

variable {rest : List Response}

theorem write (h : Ledger s []) {m : Simple} (up : s.writing = true)
    (next : s.queue = .simple m :: rest) :
    Ledger { s with queue := rest, sent := s.sent ++ m.toBytes } [] := by
  obtain ⟨answered, waiting, lost, messages, cut, h⟩ := h
  obtain ⟨rfl, rfl⟩ := h.whole up
  have queued := h.queued
  rw [next] at queued
  cases queued with
  | @cons r _ waiting _ first later =>
    refine ⟨answered ++ [r], waiting, [], messages ++ [m], [], { h with
      answers := List.rel_append h.answers (.cons first .nil)
      sent := by simp [h.sent], queued := later, sum := Eq.trans ?_ h.sum
      part := fun some_cut => absurd rfl some_cut }⟩
    have split : ((r :: waiting : List NBDRequest) : Multiset NBDRequest) = [r] + waiting := rfl
    rw [split, ← Multiset.coe_add]
    abel

/-- A control message is taken off the channel. -/
theorem drop_control (h : Ledger s []) {m : Response} (next : s.queue = m :: rest)
    (control : simples [m] = []) : Ledger { s with queue := rest } [] := by
  obtain ⟨answered, waiting, lost, messages, cut, h⟩ := h
  refine ⟨answered, waiting, lost, messages, cut, { h with queued := ?_ }⟩
  have same : simples s.queue = simples rest := by
    rw [next, ← List.singleton_append, simples, List.filterMap_append]
    exact congrArg (· ++ simples rest) control
  rw [← same]
  exact h.queued

theorem fail (h : Ledger s []) {m : Simple} (up : s.writing = true)
    (next : s.queue = .simple m :: rest) (n : Nat) :
    Ledger { s with sent := s.sent ++ m.toBytes.take n }.close [] := by
  obtain ⟨answered, waiting, lost, messages, cut, h⟩ := h
  obtain ⟨rfl, rfl⟩ := h.whole up
  refine ⟨answered, waiting, [], messages, m.toBytes.take n, { h with
    sent := by simp [Session.close, h.sent], whole := nofun
    part := fun _ => ?_ }⟩
  have queued := h.queued
  rw [next] at queued
  cases queued with
  | @cons r _ waiting _ first later =>
    exact ⟨r, List.mem_cons_self, m, first, m.toBytes.drop n, List.take_append_drop n _⟩

end Ledger

/-! ## What the loop has taken -/

/-- The requests taken come first in what the client sends, and the loop goes on with the next
    one, or with nothing if the connection has failed. -/
def Taking (client : List ClientRequest) (s : Session) : Prop :=
  ∃ earlier later, client = earlier ++ later ∧ s.taken = earlier.map ClientRequest.request ∧
    (s.reading = true → s.input = stream later ∨ s.input = [])

theorem taken_of_taking (h : Taking client s) : s.taken <+: client.map ClientRequest.request := by
  obtain ⟨earlier, later, rfl, same, -⟩ := h
  rw [same, List.map_append]
  exact List.prefix_append _ _

/-- The header at the front of what the loop reads is that of the client's next request. -/
theorem header_of_taking (h : Taking client s) (reading : s.reading = true)
    (long : nbdRequestHeaderSize ≤ s.input.length) :
    ∃ earlier c later, client = earlier ++ c :: later ∧
      s.taken = earlier.map ClientRequest.request ∧
      NBDRequest.fromBytes (s.input.take nbdRequestHeaderSize) = some c.request ∧
      s.input.drop nbdRequestHeaderSize = c.payload ++ stream later := by
  obtain ⟨earlier, later, rfl, same, input⟩ := h
  rcases input reading with input | input
  · cases later with
    | nil => simp [input, stream, nbdRequestHeaderSize] at long
    | cons c later =>
      have front : s.input = c.request.toBytes ++ (c.payload ++ stream later) := by
        simp [input, stream, ClientRequest.toBytes]
      refine ⟨earlier, c, later, rfl, same, ?_, ?_⟩
      · rw [front, List.take_left' c.request.length_toBytes, NBDRequest.fromBytes_toBytes]
      · rw [front, List.drop_left' c.request.length_toBytes]
  · simp [input, nbdRequestHeaderSize] at long

/-- The loop goes on behind a request it has taken. -/
theorem taking_next (taken : t.taken = earlier.map ClientRequest.request ++ [c.request])
    (input : t.reading = true → t.input = stream later ∨ t.input = []) :
    Taking (earlier ++ c :: later) t :=
  ⟨earlier ++ [c], later, by simp, by simp [taken], input⟩

/-- Steps that leave the reader alone, or end it. -/
theorem Taking.keep (h : Taking client s) (taken : t.taken = s.taken)
    (input : t.reading = true → s.reading = true ∧ t.input = s.input) : Taking client t := by
  obtain ⟨earlier, later, same, old, front⟩ := h
  refine ⟨earlier, later, same, taken.trans old, fun reading => ?_⟩
  obtain ⟨before, kept⟩ := input reading
  rw [kept]
  exact front before

/-! ## Steps -/

structure Inv (client : List ClientRequest) (s : Session) : Prop where
  taking : Taking client s
  ledger : Ledger s []

theorem asksReply_of_ne (other : r.cmdType ≠ .disconnect) : asksReply r = true := by
  simp [asksReply, other]

/-- A request that is refused, or answered by the loop. -/
theorem Inv.reply (ledger : Ledger s []) (taken : s.taken = earlier.map ClientRequest.request)
    (asks : asksReply c.request = true) {m : Response}
    (answers : ∃ reply, m = .simple reply ∧ Answers c.request reply) :
    Inv (earlier ++ c :: later) ((s.take c.request (stream later)).send m) := by
  obtain ⟨reply, rfl, answers⟩ := answers
  constructor
  · apply taking_next
    · simp [Session.take, taken]
    · intro _
      simp [Session.take]
  · exact (ledger.take asks _).send answers

theorem Inv.spawn (ledger : Ledger s []) (taken : s.taken = earlier.map ClientRequest.request)
    (asks : asksReply c.request = true) {rest : List UInt8}
    (input : rest = stream later ∨ rest = []) (data : Bool) :
    Inv (earlier ++ c :: later) ((s.take c.request rest).spawn c.request data) := by
  constructor
  · apply taking_next
    · simp [Session.spawn, Session.take, taken]
    · intro _
      exact input
  · exact (ledger.take asks _).spawn data

theorem Inv.dispatch (ledger : Ledger s []) (taken : s.taken = earlier.map ClientRequest.request)
    (short : ¬maxRequestPayload < c.request.length) {flushed : Outcome Unit}
    (done : Nbd.dispatch (s.take c.request (stream later)) c.request flushed = some t) :
    Inv (earlier ++ c :: later) t := by
  have task (other : c.request.cmdType ≠ .disconnect)
      (done : (if (s.take c.request (stream later)).tasks.length < maxInflightRequests then
        some ((s.take c.request (stream later)).spawn c.request true) else none) = some t) :
      Inv (earlier ++ c :: later) t := by
    obtain ⟨-, done⟩ := Option.ite_none_right_eq_some.mp done
    cases done
    exact .spawn ledger taken (asksReply_of_ne other) (.inl rfl) true
  simp only [Nbd.dispatch] at done
  cases kind : c.request.cmdType with
  | disconnect =>
    rw [kind] at done
    obtain ⟨-, done⟩ := Option.ite_none_right_eq_some.mp done
    cases done
    have silent : asksReply c.request = false := by
      simpa [asksReply, kind] using short
    constructor
    · apply taking_next
      · simp [Session.take, taken]
      · intro reading
        cases reading
    · exact ((ledger.take_silent silent _).send_control (m := .disconnect) rfl).keep _ _ _
  | flush =>
    rw [kind] at done
    obtain ⟨-, done⟩ := Option.ite_none_right_eq_some.mp done
    cases done
    have answers := callResponse_answers (r := c.request) (by simp [kind]) flushed
    exact .reply (s := { s with cancelled := s.cancelled || cancels flushed }) (ledger.keep _ _ _) taken
      (asksReply_of_ne (by simp [kind])) answers
  | unknown id other =>
    rw [kind] at done
    cases done
    exact .reply ledger taken (asksReply_of_ne (by simp [kind])) (refusal_answers c.request)
  | _ =>
    rw [kind] at done
    exact task (by simp [kind]) done

theorem Inv.receive (h : Inv client s) {flushed : Outcome Unit}
    (done : Nbd.receive s flushed = some t) : Inv client t := by
  obtain ⟨reads, done⟩ := Option.ite_none_left_eq_some.mp done
  obtain ⟨reading, long⟩ := not_or.mp reads
  obtain ⟨earlier, c, later, rfl, taken, header, rest⟩ :=
    header_of_taking h.taking (by simpa using reading) (by omega)
  simp only [header, rest, ← c.sized, List.drop_left] at done
  obtain ⟨-, done⟩ := Option.ite_none_left_eq_some.mp done
  split at done
  · rename_i oversized
    cases done
    exact .reply h.ledger taken (by simp [asksReply, oversized]) (refusal_answers c.request)
  · rename_i short
    exact .dispatch h.ledger taken short done

theorem Inv.cutOff (h : Inv client s) (done : Nbd.cutOff s = some t) : Inv client t := by
  obtain ⟨reads, done⟩ := Option.ite_none_left_eq_some.mp done
  obtain ⟨reading, long⟩ := not_or.mp reads
  obtain ⟨earlier, c, later, rfl, taken, header, -⟩ :=
    header_of_taking h.taking (by simpa using reading) (by omega)
  simp only [header] at done
  obtain ⟨⟨write, -⟩, done⟩ := Option.ite_none_right_eq_some.mp done
  split at done
  · cases done
    exact ⟨h.taking.keep rfl nofun, h.ledger.keep _ _ _⟩
  · obtain ⟨-, done⟩ := Option.ite_none_right_eq_some.mp done
    cases done
    exact .spawn h.ledger taken (asksReply_of_ne (by simp [write])) (.inr rfl) false

/-- The loop ends with a message to the writer. -/
theorem Inv.shutDown (h : Inv client s) : Inv client { s.send .shutdown with reading := false } :=
  ⟨h.taking.keep (by simp) nofun,
    (h.ledger.send_control (m := .shutdown) rfl).keep _ _ _⟩

/-- A task ends with the message that answers its request. -/
theorem Inv.finish (h : Inv client s) {i : Nat} {task : Task} (there : s.tasks[i]? = some task)
    {m : Response} (answers : ∃ reply, m = .simple reply ∧ Answers task.request reply)
    (cancelled : Bool) :
    Inv client ({ s with tasks := s.tasks.eraseIdx i, cancelled := cancelled }.send m) := by
  obtain ⟨reply, rfl, answers⟩ := answers
  constructor
  · apply h.taking.keep
    · simp
    · intro reading
      simpa using reading
  · exact ((h.ledger.finish there).keep s.input s.reading cancelled).send answers

theorem Inv.writeNext (h : Inv client s) (done : Nbd.writeNext s = some t) : Inv client t := by
  obtain ⟨up, done⟩ := Option.ite_none_right_eq_some.mp done
  cases next : s.queue with
  | nil => simp [next] at done
  | cons m rest =>
    cases m with
    | simple m =>
      simp only [next, Option.some.injEq] at done
      cases done
      exact ⟨h.taking.keep rfl fun reading => ⟨reading, rfl⟩, h.ledger.write up next⟩
    | disconnect =>
      simp only [next, Option.some.injEq] at done
      cases done
      exact ⟨h.taking.keep rfl fun reading => ⟨reading, rfl⟩, (h.ledger.drop_control next rfl).close⟩
    | shutdown =>
      simp only [next, Option.some.injEq] at done
      cases done
      exact ⟨h.taking.keep rfl fun reading => ⟨reading, rfl⟩, (h.ledger.drop_control next rfl).close⟩

theorem Inv.writeFails (h : Inv client s) {n : Nat} (done : Nbd.writeFails s n = some t) :
    Inv client t := by
  obtain ⟨up, done⟩ := Option.ite_none_right_eq_some.mp done
  split at done
  · rename_i m rest next
    cases done
    exact ⟨h.taking.keep rfl fun reading => ⟨reading, rfl⟩, h.ledger.fail up next n⟩
  · cases done
    exact ⟨h.taking.keep rfl fun reading => ⟨reading, rfl⟩, h.ledger.close⟩

theorem Inv.step {a : Act} (h : Inv client s) (careful : Careful E s a)
    (taken : Nbd.step E s a = some t) : Inv client t := by
  cases a with
  | receive flushed => exact h.receive taken
  | cutOff => exact h.cutOff taken
  | hangUp =>
    obtain ⟨-, taken⟩ := Option.ite_none_right_eq_some.mp taken
    cases taken
    exact h.shutDown
  | stop =>
    obtain ⟨-, taken⟩ := Option.ite_none_right_eq_some.mp taken
    cases taken
    exact h.shutDown
  | finishRead i met =>
    simp only [Nbd.step, finishRead] at taken
    split at taken
    · rename_i task there
      obtain ⟨read, taken⟩ := Option.ite_none_right_eq_some.mp taken
      cases taken
      exact h.finish there (readResponse_answers read (careful task there)) s.cancelled
    · cases taken
  | finish i outcome =>
    simp only [Nbd.step, Nbd.finish] at taken
    split at taken
    · rename_i task there
      obtain ⟨other, taken⟩ := Option.ite_none_left_eq_some.mp taken
      cases taken
      exact h.finish there (callResponse_answers other _) _
    · cases taken
  | write => exact h.writeNext taken
  | fail n => exact h.writeFails taken
  | drained =>
    obtain ⟨-, taken⟩ := Option.ite_none_right_eq_some.mp taken
    cases taken
    exact ⟨h.taking.keep rfl fun reading => ⟨reading, rfl⟩, h.ledger.close⟩

theorem inv_start (client : List ClientRequest) : Inv client (.start client) := by
  constructor
  · exact ⟨[], client, rfl, rfl, fun _ => .inl rfl⟩
  · exact ⟨[], [], [], [], [], .nil, rfl, .nil, rfl, fun _ => ⟨rfl, rfl⟩, fun some_cut => absurd rfl some_cut⟩

theorem Inv.framed (h : Inv client s) : Framed client s := by
  obtain ⟨answered, waiting, lost, messages, cut, books⟩ := h.ledger
  refine ⟨taken_of_taking h.taking, answered, waiting ++ s.tasks.map Task.request ++ lost,
    messages.map Simple.reply, cut, ?_, ?_, ?_, ?_, ?_⟩
  · rw [books.sent]
    exact readReplies_messages books.answers cut
  · apply Multiset.coe_eq_coe.mp
    rw [← books.sum]
    simp only [← Multiset.coe_add, Multiset.coe_nil]
    abel
  · rintro ⟨up, no_tasks, no_messages⟩
    have none_waiting : waiting = [] := by
      have queued := books.queued
      rw [no_messages] at queued
      cases queued
      rfl
    simp [none_waiting, no_tasks, (books.whole up).1]
  · exact fun up => (books.whole up).2
  · intro some_cut
    obtain ⟨r, there, m, answers, more, whole⟩ := books.part some_cut
    refine ⟨r, by simp [there], more, m.reply, ?_⟩
    rw [whole, ← List.append_nil m.toBytes]
    exact answers.read []

/-- In every run in which no read that asks for data fails, panics or meets blocks of another
    size, what is sent are whole replies, one for each request. -/
theorem replies_stay_framed (run : Reach (step E) (Careful E) (.start client) t) :
    Framed client t :=
  Inv.framed (run.invariant (I := Inv client) (inv_start client) fun _ _ _ h ok taken => h.step ok taken)

/-! ## A read that fails -/

private def smallExport : Export := ⟨8, 4, by decide⟩

/-- A read of two bytes. -/
private def shortRead : ClientRequest := ⟨⟨0, .read, 7, 1, 2⟩, [], rfl⟩

/-- The request is taken, its task ends, and the writer takes the message. -/
private def answered (met : ReadMet) : List Act := [.receive (.ok ()), .finishRead 0 met, .write]

private def view (s : Session) : List NBDRequest × List UInt8 × Bool × Bool × List Response :=
  (s.taken, s.sent, s.writing, s.tasks.isEmpty, s.queue)

private theorem failed_read_run :
    (exec (step smallExport) (.start [shortRead]) (answered ⟨false, .failed .ioError⟩)).map view =
      some ([shortRead.request], (Simple.mk 7 nbdEio [0, 0]).toBytes, true, true, []) := by
  decide +kernel

private theorem failed_read_reply :
    readReplies [shortRead.request] (Simple.mk 7 nbdEio [0, 0]).toBytes = some ([⟨nbdEio, []⟩], [0, 0]) := by
  decide +kernel

/-- A read fails, and the zeros behind its reply are not what the client expects there. -/
theorem failed_read_sends_zeros :
    ∃ (E : Export) (client : List ClientRequest) (t : Session),
      Reach (step E) anyStep (.start client) t ∧ ¬Framed client t := by
  obtain ⟨t, run, seen⟩ := Option.map_eq_some_iff.mp failed_read_run
  simp only [view, Prod.mk.injEq] at seen
  obtain ⟨taken, sent, up, no_tasks, no_messages⟩ := seen
  refine ⟨smallExport, [shortRead], t, reach_exec run, fun framed => ?_⟩
  obtain ⟨rs, pending, replies, cut, read, same, idle, whole, -⟩ := framed.replies
  have none_pending := idle ⟨up, List.isEmpty_iff.mp no_tasks, no_messages⟩
  have one : rs = [shortRead.request] := by
    rw [none_pending, List.append_nil, taken] at same
    exact List.perm_singleton.mp same
  rw [one, sent, failed_read_reply, whole up] at read
  simp at read

private def goodBlocks : ReadMet := ⟨false, .blocks fun _ => [1, 2, 3, 4]⟩

private theorem goodBlocks_serves : goodBlocks.Serves smallExport shortRead.request := by
  refine .inr ⟨rfl, fun _ => ?_⟩
  change (∀ b, 0 ≤ b → b < 0 → _) ∧ _
  exact ⟨fun b _ below => absurd below (Nat.not_lt_zero b), by decide⟩

theorem good_read_framed :
    ∃ t, Reach (step smallExport) (Careful smallExport) (.start [shortRead]) t ∧
      t.sent = (Simple.mk 7 nbdSuccess [2, 3]).toBytes ∧ Framed [shortRead] t := by
  have run : Steps (step smallExport) (Careful smallExport) (.start [shortRead]) (answered goodBlocks)
      ⟨[], true, false, [], [], true, (Simple.mk 7 nbdSuccess [2, 3]).toBytes, [shortRead.request]⟩ := by
    refine ⟨trivial, ⟨[], true, false, [⟨shortRead.request, true⟩], [], true, [], [shortRead.request]⟩,
      rfl, fun task there => ?_, _, rfl, trivial, _, rfl, rfl⟩
    cases there
    exact goodBlocks_serves
  exact ⟨_, reach_steps run, rfl, replies_stay_framed (reach_steps run)⟩

end GlideFS.Nbd
