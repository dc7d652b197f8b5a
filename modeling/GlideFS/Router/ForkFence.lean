import GlideFS.Router.Manifests

/-! # The fence of a fork

A forked volume begins with a copy of its source's manifest, token included. The life of
the fork is a list of requests, each done before the next one starts: PUTs of
`create_or_attach_volume` on any node, flushes, crashes and restarts. `decisions` lists
how the fence answered the PUTs.
-/

namespace GlideFS.Router

namespace Fork

/-- The manifest object of the fork; the number of PUTs is its next ETag. -/
structure Volume where
  s3 : Option (Object Nat)
  puts : Nat
deriving DecidableEq

namespace Volume

def Matches (v : Volume) : Option Nat → Bool
  | none => true
  | some e => v.s3.any fun o => o.etag = e

def store (v : Volume) (token : Token) : Volume := ⟨some ⟨token, v.puts⟩, v.puts + 1⟩

end Volume

/-- `enforce_attach_fence`, with `tries` rounds left; `none` if the manifest stays contended. -/
def enforceAttachFence : Nat → Volume → Export Nat → Token → Option Fence × Volume × Export Nat
  | 0, v, x, _ => (none, v, x)
  | tries + 1, v, x, my =>
      if fenceAttach x.manifest my = .reject then (some .reject, v, x)
      else
        let accepted := effective x.manifest my
        if my = .none ∨ accepted.composite = x.manifest.composite then
          (some .grant, v, { x with held := accepted })
        else if v.Matches x.etag then
          (some .grant, v.store accepted,
            { x with held := accepted, manifest := accepted, etag := some v.puts })
        else match v.s3 with
          | some o => enforceAttachFence tries v
              { x with held := accepted, manifest := o.token, etag := some o.etag } my
          | none => enforceAttachFence tries v
              { x with held := accepted, manifest := accepted, etag := none } my

/-- A flush: the stamp, and the PUT if nobody else has written the manifest. -/
def flush (v : Volume) (x : Export Nat) : Volume × Export Nat :=
  if v.Matches x.etag then (v.store x.held, { x with manifest := x.held, etag := some v.puts })
  else (v, { x with manifest := x.held })

/-- The fork on all nodes. `indexed` says that its `export.json` is stored. -/
structure State (ν : Type) where
  volume : Volume
  indexed : Bool
  nodes : ν → Option (Export Nat)

/-- `source` is the token of the manifest that is forked, if the request comes to fork. -/
inductive Event (ν : Type) where
  | put (n : ν) (my source : Token)
  | flush (n : ν)
  | crash (n : ν)
  | recover (n : ν)
deriving DecidableEq

inductive Decision where
  | fence (f : Fence)
  | contended
  | lineageLost
deriving DecidableEq

variable {ν : Type} [DecidableEq ν]

/-- The name is free. -/
def State.unforked : State ν := ⟨⟨none, 0⟩, false, fun _ => none⟩

/-- An export as `create_export` loads it from its own manifest. -/
def loaded (o : Object Nat) : Export Nat := ⟨o.token, some o.etag, .none, false⟩

/-- The fence and what follows: an export that was just opened goes again unless it is granted. -/
def State.fence (s : State ν) (n : ν) (v : Volume) (x : Export Nat) (my : Token) (opened : Bool) :
    State ν × List Decision :=
  match enforceAttachFence 3 v x my with
  | (some .grant, v', x') =>
      (⟨v', true, Function.update s.nodes n (some x')⟩, [.fence .grant])
  | (some .reject, v', x') =>
      (⟨v', s.indexed, Function.update s.nodes n (if opened then none else some x')⟩,
        [.fence .reject])
  | (none, v', x') =>
      (⟨v', s.indexed, Function.update s.nodes n (if opened then none else some x')⟩, [.contended])

def Event.step (s : State ν) : Event ν → State ν × List Decision
  | .put n my source =>
      match s.nodes n with
      | some x => s.fence n s.volume x my false
      | none =>
          if s.indexed then
            match s.volume.s3 with
            | some o => s.fence n s.volume (loaded o) my true
            | none => (s, [.lineageLost])
          else
            -- the fork path stores the manifest of the source, with its token
            let v := s.volume.store source
            s.fence n v ⟨source, some s.volume.puts, .none, false⟩ my true
  | .flush n =>
      match s.nodes n with
      | some x => ({ s with volume := (Fork.flush s.volume x).1,
                            nodes := Function.update s.nodes n (some (Fork.flush s.volume x).2) }, [])
      | none => (s, [])
  | .crash n => ({ s with nodes := Function.update s.nodes n none }, [])
  | .recover n =>
      match s.nodes n, s.indexed, s.volume.s3 with
      | none, true, some o => ({ s with nodes := Function.update s.nodes n (some (loaded o)) }, [])
      | _, _, _ => (s, [])

/-- The answers of the fence to a list of requests. -/
def decisions (s : State ν) : List (Event ν) → List Decision
  | [] => []
  | e :: rest => (e.step s).2 ++ decisions (e.step s).1 rest

/-! ## Forks of sources with different tokens -/

/-- The two forks have stored manifests with the same token. -/
structure Agree (v w : Volume) : Prop where
  stored : ∃ o o', v.s3 = some o ∧ w.s3 = some o' ∧ o.token = o'.token ∧ o.etag < v.puts ∧
    o'.etag < w.puts

/-- The export is open in both, with the same tokens, and the manifest is still the one it knows
    in both or in neither. -/
structure Same (v w : Volume) (x y : Export Nat) : Prop where
  manifest : x.manifest = y.manifest
  held : x.held = y.held
  left : ∃ e, x.etag = some e ∧ e < v.puts
  right : ∃ e, y.etag = some e ∧ e < w.puts
  matched : v.Matches x.etag = w.Matches y.etag

variable {v w : Volume} {x y : Export Nat}

theorem Agree.store (token : Token) : Agree (v.store token) (w.store token) :=
  ⟨⟨_, _, rfl, rfl, rfl, Nat.lt_succ_self _, Nat.lt_succ_self _⟩⟩

/-- An old ETag does not match after a PUT. -/
theorem store_unmatched {etag : Option Nat} (old : ∃ e, etag = some e ∧ e < v.puts) (token : Token) :
    (v.store token).Matches etag = false := by
  obtain ⟨e, rfl, lt⟩ := old
  exact decide_eq_false (Nat.ne_of_gt lt)

theorem store_matched (v : Volume) (token : Token) :
    (v.store token).Matches (some v.puts) = true :=
  decide_eq_true rfl

theorem Same.store (h : Same v w x y) (token : Token) :
    Same (v.store token) (w.store token) x y where
  manifest := h.manifest
  held := h.held
  left := by
    obtain ⟨e, at_e, lt⟩ := h.left
    exact ⟨e, at_e, Nat.lt_succ_of_lt lt⟩
  right := by
    obtain ⟨e, at_e, lt⟩ := h.right
    exact ⟨e, at_e, Nat.lt_succ_of_lt lt⟩
  matched := by rw [store_unmatched h.left, store_unmatched h.right]

/-- The export that has just stored the manifest. -/
theorem same_stored (token held : Token) :
    Same (v.store token) (w.store token) { x with held, manifest := token, etag := some v.puts }
      { y with held, manifest := token, etag := some w.puts } where
  manifest := rfl
  held := rfl
  left := ⟨_, rfl, Nat.lt_succ_self _⟩
  right := ⟨_, rfl, Nat.lt_succ_self _⟩
  matched := by rw [store_matched, store_matched]

/-- The export that has just read the manifest. -/
theorem same_read {o o' : Object Nat} (at_v : v.s3 = some o) (at_w : w.s3 = some o')
    (tokens : o.token = o'.token) (left : o.etag < v.puts) (right : o'.etag < w.puts)
    (held : Token) :
    Same v w { x with held, manifest := o.token, etag := some o.etag }
      { y with held, manifest := o'.token, etag := some o'.etag } where
  manifest := tokens
  held := rfl
  left := ⟨_, rfl, left⟩
  right := ⟨_, rfl, right⟩
  matched := by
    unfold Volume.Matches
    rw [at_v, at_w]
    exact (decide_eq_true rfl).trans (decide_eq_true rfl).symm

/-- Both manifests stayed, or both were replaced by one with the same token. -/
def Together (v w v' w' : Volume) : Prop :=
  v' = v ∧ w' = w ∨ ∃ token, v' = v.store token ∧ w' = w.store token

theorem enforce_same (agree : Agree v w) (same : Same v w x y) (tries : Nat) (my : Token) :
    (enforceAttachFence tries v x my).1 = (enforceAttachFence tries w y my).1 ∧
      Together v w (enforceAttachFence tries v x my).2.1 (enforceAttachFence tries w y my).2.1 ∧
      Same (enforceAttachFence tries v x my).2.1 (enforceAttachFence tries w y my).2.1
        (enforceAttachFence tries v x my).2.2 (enforceAttachFence tries w y my).2.2 := by
  induction tries generalizing x y with
  | zero => exact ⟨rfl, Or.inl ⟨rfl, rfl⟩, same⟩
  | succ tries ih =>
    unfold enforceAttachFence
    rw [← same.manifest, ← same.matched]
    split
    · exact ⟨rfl, Or.inl ⟨rfl, rfl⟩, same⟩
    · dsimp only
      split
      · exact ⟨rfl, Or.inl ⟨rfl, rfl⟩, rfl, rfl, same.left, same.right, same.matched⟩
      · split
        · exact ⟨rfl, Or.inr ⟨_, rfl, rfl⟩, same_stored _ _⟩
        · obtain ⟨o, o', at_v, at_w, tokens, left, right⟩ := agree.stored
          rw [at_v, at_w]
          exact ih (same_read at_v at_w tokens left right _)

theorem Together.agree {v' w' : Volume} (h : Together v w v' w') (agree : Agree v w) :
    Agree v' w' := by
  rcases h with ⟨rfl, rfl⟩ | ⟨token, rfl, rfl⟩
  · exact agree
  · exact .store token

theorem Together.same {v' w' : Volume} (h : Together v w v' w') (same : Same v w x y) :
    Same v' w' x y := by
  rcases h with ⟨rfl, rfl⟩ | ⟨token, rfl, rfl⟩
  · exact same
  · exact same.store token

theorem flush_same (same : Same v w x y) :
    Together v w (flush v x).1 (flush w y).1 ∧
      Same (flush v x).1 (flush w y).1 (flush v x).2 (flush w y).2 := by
  unfold flush
  rw [← same.matched, ← same.held]
  split
  · exact ⟨Or.inr ⟨_, rfl, rfl⟩, same_stored _ _⟩
  · exact ⟨Or.inl ⟨rfl, rfl⟩, rfl, rfl, same.left, same.right, same.matched⟩

/-- Two forks that behave alike from here on. -/
structure Sim (s t : State ν) : Prop where
  agree : Agree s.volume t.volume
  left : s.indexed = true
  right : t.indexed = true
  nodes : ∀ n, Option.Rel (Same s.volume t.volume) (s.nodes n) (t.nodes n)

variable {s t : State ν}

/-- A step of one node. -/
theorem Sim.update (h : Sim s t) {v' w' : Volume} (together : Together s.volume t.volume v' w')
    (n : ν) {a b : Option (Export Nat)} (same : Option.Rel (Same v' w') a b) {i j : Bool}
    (left : i = true) (right : j = true) :
    Sim ⟨v', i, Function.update s.nodes n a⟩ ⟨w', j, Function.update t.nodes n b⟩ where
  agree := together.agree h.agree
  left := left
  right := right
  nodes m := by
    by_cases here : m = n
    · subst here
      change Option.Rel (Same v' w') (Function.update s.nodes m a m) (Function.update t.nodes m b m)
      rw [Function.update_self, Function.update_self]
      exact same
    · change Option.Rel (Same v' w') (Function.update s.nodes n a m) (Function.update t.nodes n b m)
      rw [Function.update_of_ne here, Function.update_of_ne here]
      have before := h.nodes m
      generalize s.nodes m = p at before ⊢
      generalize t.nodes m = q at before ⊢
      cases before with
      | none => exact .none
      | some same => exact .some (together.same same)

theorem fence_sim (h : Sim s t) (same : Same s.volume t.volume x y) (n : ν) (my : Token)
    (opened : Bool) :
    (s.fence n s.volume x my opened).2 = (t.fence n t.volume y my opened).2 ∧
      Sim (s.fence n s.volume x my opened).1 (t.fence n t.volume y my opened).1 := by
  obtain ⟨answer, together, after⟩ := enforce_same h.agree same 3 my
  unfold State.fence
  generalize enforceAttachFence 3 s.volume x my = r at answer together after ⊢
  generalize enforceAttachFence 3 t.volume y my = r' at answer together after ⊢
  obtain ⟨f, v', x'⟩ := r
  obtain ⟨f', w', y'⟩ := r'
  cases answer
  have gone : Option.Rel (Same v' w') (if opened then none else some x')
      (if opened then none else some y') := by
    split
    · exact .none
    · exact .some after
  match f with
  | some .grant => exact ⟨rfl, h.update together n (.some after) rfl rfl⟩
  | some .reject => exact ⟨rfl, h.update together n gone h.left h.right⟩
  | none => exact ⟨rfl, h.update together n gone h.left h.right⟩

/-- The same request, for a source that may have another token. -/
inductive SameRequest : Event ν → Event ν → Prop
  | same (e : Event ν) : SameRequest e e
  | put (n : ν) (my source source' : Token) : SameRequest (.put n my source) (.put n my source')

theorem put_sim (h : Sim s t) (n : ν) (my source source' : Token) :
    ((Event.put n my source).step s).2 = ((Event.put n my source').step t).2 ∧
      Sim ((Event.put n my source).step s).1 ((Event.put n my source').step t).1 := by
  have node := h.nodes n
  simp only [Event.step]
  generalize s.nodes n = p at node ⊢
  generalize t.nodes n = q at node ⊢
  cases node with
  | some same => exact fence_sim h same n my false
  | none =>
    obtain ⟨o, o', at_v, at_w, tokens, left, right⟩ := h.agree.stored
    rw [if_pos h.left, if_pos h.right, at_v, at_w]
    exact fence_sim h (same_read (x := loaded o) (y := loaded o') at_v at_w tokens left right .none)
      n my true

theorem recover_sim (h : Sim s t) (n : ν) :
    ((Event.recover n).step s).2 = ((Event.recover n).step t).2 ∧
      Sim ((Event.recover n).step s).1 ((Event.recover n).step t).1 := by
  have node := h.nodes n
  obtain ⟨o, o', at_v, at_w, tokens, left, right⟩ := h.agree.stored
  simp only [Event.step, at_v, at_w, h.left, h.right]
  generalize s.nodes n = p at node ⊢
  generalize t.nodes n = q at node ⊢
  cases node with
  | some same => exact ⟨rfl, h⟩
  | none =>
    exact ⟨rfl, h.update (Or.inl ⟨rfl, rfl⟩) n
      (.some (same_read (x := loaded o) (y := loaded o') at_v at_w tokens left right .none))
      rfl rfl⟩

/-- Every request is answered alike, whatever the sources are. -/
theorem step_sim (h : Sim s t) {e e' : Event ν} (request : SameRequest e e') :
    (e.step s).2 = (e'.step t).2 ∧ Sim (e.step s).1 (e'.step t).1 := by
  cases request with
  | put n my source source' => exact put_sim h n my source source'
  | same e =>
    cases e with
    | put n my source => exact put_sim h n my source source
    | flush n =>
      have node := h.nodes n
      simp only [Event.step]
      generalize s.nodes n = p at node ⊢
      generalize t.nodes n = q at node ⊢
      cases node with
      | none => exact ⟨rfl, h⟩
      | some same =>
        obtain ⟨together, after⟩ := flush_same same
        exact ⟨rfl, h.update together n (.some after) h.left h.right⟩
    | crash n => exact ⟨rfl, h.update (Or.inl ⟨rfl, rfl⟩) n .none h.left h.right⟩
    | recover n => exact recover_sim h n

theorem decisions_sim (h : Sim s t) {es es' : List (Event ν)}
    (requests : List.Forall₂ SameRequest es es') : decisions s es = decisions t es' := by
  induction requests generalizing s t with
  | nil => rfl
  | cons request _ ih =>
    obtain ⟨answer, after⟩ := step_sim h request
    simp only [decisions, answer, ih after]

/-- The fork is attached with `my` on the node, and nothing is left of its source's token. -/
structure Attached (s : State ν) (n : ν) (my : Token) : Prop where
  indexed : s.indexed = true
  only : ∀ m, m ≠ n → s.nodes m = none
  stored : ∃ k locked, s.volume.s3 = some ⟨my, k⟩ ∧ k < s.volume.puts ∧
    s.nodes n = some ⟨my, some k, my, locked⟩

theorem Attached.sim {n : ν} {my : Token} (left : Attached s n my) (right : Attached t n my) :
    Sim s t := by
  obtain ⟨k, locked, at_s, low, node⟩ := left.stored
  obtain ⟨k', locked', at_t, low', node'⟩ := right.stored
  refine ⟨⟨_, _, at_s, at_t, rfl, low, low'⟩, left.indexed, right.indexed, fun m => ?_⟩
  by_cases here : m = n
  · subst here
    rw [node, node']
    exact .some (same_read (x := ⟨my, some k, my, locked⟩) (y := ⟨my, some k', my, locked'⟩) at_s at_t
      rfl low low' my)
  · rw [left.only m here, right.only m here]
    exact .none

theorem first_put (n : ν) (my source : Token) (le : source.composite ≤ my.composite) :
    ((Event.put n my source).step State.unforked).2 = [.fence .grant] ∧
      Attached ((Event.put n my source).step State.unforked).1 n my := by
  have granted : fenceAttach source my = .grant := (fenceAttach_grant source my).mpr le
  have only : ∀ (a : Option (Export Nat)) (m : ν), m ≠ n →
      Function.update (fun _ => none) n a m = none :=
    fun a m other => Function.update_of_ne other _ _
  have self : ∀ a : Option (Export Nat), Function.update (fun _ => none) n a n = a :=
    fun a => by rw [Function.update_self]
  simp only [Event.step, State.unforked, State.fence, enforceAttachFence, granted,
    effective_of_le le, reduceCtorEq, if_false, Bool.false_eq_true]
  by_cases kept : my = .none ∨ my.composite = source.composite
  · have same : source = my := by
      refine composite_injective (Nat.le_antisymm le ?_)
      rcases kept with rfl | same
      · exact Nat.zero_le _
      · exact same.le
    subst same
    rw [if_pos kept]
    dsimp only
    refine ⟨rfl, rfl, only _, _, false, rfl, Nat.lt_succ_self _, ?_⟩
    exact self _
  · rw [if_neg kept, if_pos (store_matched ⟨none, 0⟩ source)]
    dsimp only
    refine ⟨rfl, rfl, only _, _, false, rfl, Nat.lt_succ_self _, ?_⟩
    exact self _

theorem first_put_grant (n : ν) {my source : Token}
    (granted : ((Event.put n my source).step State.unforked).2 = [.fence .grant]) :
    source.composite ≤ my.composite := by
  by_contra above
  have rejected : fenceAttach source my = .reject := if_neg above
  simp only [Event.step, State.unforked, State.fence, enforceAttachFence, rejected] at granted
  cases granted

/-- A new fork is granted, and is fenced from then on as if its source had no token, exactly if
    the request's token is at least that of the source. -/
theorem fork_fenced_by_own_history_iff (n : ν) (my source : Token) :
    (((Event.put n my source).step State.unforked).2 = [.fence .grant] ∧
      ∀ es es' : List (Event ν), List.Forall₂ SameRequest es es' →
        decisions State.unforked (.put n my source :: es) =
          decisions State.unforked (.put n my .none :: es')) ↔
      source.composite ≤ my.composite := by
  constructor
  · exact fun h => first_put_grant n h.1
  · intro le
    obtain ⟨granted, attached⟩ := first_put n my source le
    obtain ⟨granted', attached'⟩ := first_put n my .none (Nat.zero_le _)
    refine ⟨granted, fun es es' requests => ?_⟩
    simp only [decisions, granted, granted', decisions_sim (attached.sim attached') requests]

/-- A fork of a fenced volume by a caller that does not take part in fencing. -/
theorem fork_of_fenced_source_rejected :
    ((Event.put () .none ⟨5, 0⟩).step State.unforked).2 = [.fence .reject] := by
  decide

end Fork

end GlideFS.Router
