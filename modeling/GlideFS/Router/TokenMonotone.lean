import GlideFS.Router.Manifests

/-! # The stored token never goes back

Every PUT of a manifest carries a token, and a condition on the ETag of the object it
replaces. The invariant relates the two: the token is at least that of the object with
the expected ETag. It needs that a flush stamps no smaller token than the in-memory
manifest has, that PUTs without a condition meet no object they have not seen, and that
`enforce_attach_fence` is not interleaved with another request of its process.
-/

namespace GlideFS.Router

open Lib Router.System

variable {ν ι E : Type} [DecidableEq ν] [DecidableEq ι] [DecidableEq E] {S : EtagScheme E}
  {s t : System ν ι E}

/-! ## The condition -/

namespace System

/-- No request of the process is under way. -/
def Quiet (s : System ν ι E) (n : ν) : Prop := ∀ i op, s.ops i ≠ some (n, op)

/-- Only requests under `flush_lock` are under way in the process. -/
def OnlyLocked (s : System ν ι E) (n : ν) : Prop :=
  ∀ i op, s.ops i = some (n, op) → op.Locked = true

/-- A flush does not stamp a token below that of the manifest in memory, and a PUT without a
    condition meets no object, or the one its request has read. -/
def Sound (s : System ν ι E) (n : ν) : Op E → Prop
  | .flushing => ∀ x, s.exports n = .live x → x.manifest.composite ≤ x.held.composite
  | .seizePut _ _ _ none | .put _ _ none => s.s3 = none
  | .forkPut _ seen => ∀ o, s.s3 = some o → seen = some o.etag
  | _ => True

end System

def Act.Orderly (s : System ν ι E) : Act ν ι → Prop
  | .attach _ n _ | .handoff _ n | .teardown _ n => s.Quiet n
  | .flush _ n | .sync _ n => s.OnlyLocked n
  | .run i _ => ∀ n op, s.ops i = some (n, op) → s.Sound n op
  | _ => True

/-! ## The invariant -/

namespace System

variable (S)

/-- S3 has a token at least as large as that of the object with this ETag. -/
def Known (s : System ν ι E) (e : E) : Prop :=
  ∃ o, s.s3 = some o ∧ (S.tokenOf e).composite ≤ o.token.composite

/-- The ETag goes with the manifest in memory. -/
def Fits (s : System ν ι E) (n : ν) (e : E) : Prop :=
  s.Known S e ∧ ∀ x, s.exports n = .live x → (S.tokenOf e).composite ≤ x.manifest.composite

/-- An object that was read and is about to replace the manifest in memory. -/
def Read (s : System ν ι E) (n : ν) (found : Object E) : Prop :=
  S.tokenOf found.etag = found.token ∧ s.Known S found.etag ∧
    ∀ x, s.exports n = .live x → ∀ e, x.etag = some e →
      (S.tokenOf e).composite ≤ found.token.composite

/-- A PUT whose token is at least that of the object it expects. -/
def Covers (token : Token) (expected : Option E) : Prop :=
  ∀ e, expected = some e → (S.tokenOf e).composite ≤ token.composite

def OpOk (s : System ν ι E) (n : ν) : Op E → Prop
  | .seizing _ _ accepted =>
      ∀ x, s.exports n = .live x → x.manifest.composite ≤ accepted.composite
  | .stamping _ _ accepted expected => Covers S accepted expected ∧
      ∀ x, s.exports n = .live x → x.manifest.composite ≤ accepted.composite
  | .seizePut _ _ token expected | .put _ token expected => Covers S token expected ∧
      ∀ x, s.exports n = .live x → token.composite ≤ x.manifest.composite
  | .seized e | .stored e | .refreshed e => s.Fits S n e
  | .reloading _ _ found | .refresh found => s.Read S n found
  | .reloaded _ _ e => ∀ e', e = some e' → s.Fits S n e'
  | .serialized _ token => ∀ x, s.exports n = .live x → x.manifest = token
  | .forkPut token seen => Covers S token seen
  | _ => True

/-- The token in S3 does not go back. -/
def Grows (s t : System ν ι E) : Prop :=
  ∀ o, s.s3 = some o → ∃ o', t.s3 = some o' ∧ o.token.composite ≤ o'.token.composite

end System

variable (S)

structure Inv (s : System ν ι E) : Prop where
  object : ∀ o, s.s3 = some o → S.tokenOf o.etag = o.token
  exports : ∀ n x, s.exports n = .live x → ∀ e, x.etag = some e → s.Fits S n e
  born : ∀ i n op, s.ops i = some (n, op) → s.exports n ≠ .unborn
  single : ∀ i j n op op', s.ops i = some (n, op) → s.ops j = some (n, op') → i = j
  locked : ∀ i n op, s.ops i = some (n, op) → op.Locked = true →
    ∀ x, s.exports n = .live x → x.locked = true
  ops : ∀ i n op, s.ops i = some (n, op) → s.OpOk S n op

variable {S}

theorem System.Grows.refl (s : System ν ι E) : s.Grows s := fun o at_o => ⟨o, at_o, le_rfl⟩

theorem System.Grows.trans {u : System ν ι E} (first : s.Grows t) (second : t.Grows u) : s.Grows u := by
  intro o at_o
  obtain ⟨o', at_o', le⟩ := first o at_o
  obtain ⟨o'', at_o'', le'⟩ := second o' at_o'
  exact ⟨o'', at_o'', le.trans le'⟩

theorem System.Known.grows {e : E} (h : s.Known S e) (grows : s.Grows t) : t.Known S e := by
  obtain ⟨o, at_o, le⟩ := h
  obtain ⟨o', at_o', le'⟩ := grows o at_o
  exact ⟨o', at_o', le.trans le'⟩

variable {n : ν} {op : Op E} {token : Token}

theorem System.Fits.grows {e : E} (h : s.Fits S n e) (grows : s.Grows t)
    (same : ∀ x, t.exports n = .live x → s.exports n = .live x) : t.Fits S n e :=
  ⟨h.1.grows grows, fun x live => h.2 x (same x live)⟩

theorem System.Read.grows {found : Object E} (h : s.Read S n found) (grows : s.Grows t)
    (same : ∀ x, t.exports n = .live x → s.exports n = .live x) : t.Read S n found :=
  ⟨h.1, h.2.1.grows grows, fun x live => h.2.2 x (same x live)⟩

/-- What holds of a request still holds when S3 goes on and its export is as it was, or gone. -/
theorem System.OpOk.grows (h : s.OpOk S n op) (grows : s.Grows t)
    (same : ∀ x, t.exports n = .live x → s.exports n = .live x) : t.OpOk S n op := by
  cases op with
  | seizing tries my accepted => exact fun x live => h x (same x live)
  | stamping tries my accepted expected => exact ⟨h.1, fun x live => h.2 x (same x live)⟩
  | seizePut tries my token expected | put attempts token expected =>
    exact ⟨h.1, fun x live => h.2 x (same x live)⟩
  | seized e | stored e | refreshed e => exact Fits.grows h grows same
  | reloading tries my found | refresh found => exact Read.grows h grows same
  | reloaded tries my e => exact fun e' at_e => (h e' at_e).grows grows same
  | serialized attempts token => exact fun x live => h x (same x live)
  | forkPut token seen => exact h
  | _ => trivial

/-- A step that touches one process, its requests and S3. -/
theorem Inv.change (h : Inv S s) (n : ν) (grows : s.Grows t)
    (object : ∀ o, t.s3 = some o → S.tokenOf o.etag = o.token)
    (others : ∀ m, m ≠ n → t.exports m = s.exports m)
    (at_n : ∀ x, t.exports n = .live x → ∀ e, x.etag = some e → t.Fits S n e)
    (born : t.exports n ≠ .unborn)
    (ops : ∀ j m op, t.ops j = some (m, op) → m ≠ n ∧ s.ops j = some (m, op) ∨
      m = n ∧ t.OpOk S n op ∧ (op.Locked = true → ∀ x, t.exports n = .live x → x.locked = true))
    (single : ∀ i j op op', t.ops i = some (n, op) → t.ops j = some (n, op') → i = j) :
    Inv S t where
  object := object
  exports m x live e at_e := by
    by_cases here : m = n
    · subst here
      exact at_n x live e at_e
    · exact (h.exports m x (others m here ▸ live) e at_e).grows grows fun _ now => others m here ▸ now
  born i m op at_i := by
    rcases ops i m op at_i with ⟨other, before⟩ | ⟨rfl, _⟩
    · rw [others m other]
      exact h.born i m op before
    · exact born
  single i j m op op' at_i at_j := by
    by_cases here : m = n
    · subst here
      exact single i j op op' at_i at_j
    · have before := ((ops i m op at_i).resolve_right fun new => here new.1).2
      have before' := ((ops j m op' at_j).resolve_right fun new => here new.1).2
      exact h.single i j m op op' before before'
  locked i m op at_i on := by
    rcases ops i m op at_i with ⟨other, before⟩ | ⟨rfl, _, locked⟩
    · rw [others m other]
      exact h.locked i m op before on
    · exact locked on
  ops i m op at_i := by
    rcases ops i m op at_i with ⟨other, before⟩ | ⟨rfl, ok, _⟩
    · exact (h.ops i m op before).grows grows fun _ now => others m other ▸ now
    · exact ok

/-- A step of the only request of a process. -/
theorem Inv.only (h : Inv S s) {i : ι} (alone : ∀ j op, s.ops j = some (n, op) → j = i)
    (grows : s.Grows t) (object : ∀ o, t.s3 = some o → S.tokenOf o.etag = o.token) (life : Life E)
    (exports : t.exports = Function.update s.exports n life)
    (at_n : ∀ x, life = .live x → ∀ e, x.etag = some e → t.Fits S n e) (born : life ≠ .unborn)
    (op' : Option (Op E)) (ops : t.ops = Function.update s.ops i (op'.map (n, ·)))
    (ok : ∀ op, op' = some op → t.OpOk S n op ∧ (op.Locked = true → ∀ x, life = .live x → x.locked = true)) :
    Inv S t := by
  have here : t.exports n = life := by rw [exports, Function.update_self]
  refine h.change n grows object (fun m other => ?_) (here ▸ at_n) (here ▸ born)
    (fun j m op at_j => ?_) fun j k op op'' at_j at_k => ?_
  · rw [exports, Function.update_of_ne other]
  · rw [ops] at at_j
    by_cases at_i : j = i
    · subst at_i
      rw [Function.update_self] at at_j
      obtain ⟨new, was, same⟩ := Option.map_eq_some_iff.mp at_j
      cases same
      exact Or.inr ⟨rfl, (ok op was).1, fun on => here ▸ (ok op was).2 on⟩
    · rw [Function.update_of_ne at_i] at at_j
      refine Or.inl ⟨fun same => at_i ?_, at_j⟩
      subst same
      exact alone j op at_j
  · have only : ∀ j op, t.ops j = some (n, op) → j = i := by
      intro j op at_j
      by_contra other
      rw [ops, Function.update_of_ne other] at at_j
      exact other (alone j op at_j)
    rw [only j op at_j, only k op'' at_k]

/-- S3 stores a token at least as large. -/
theorem store_grows (le : ∀ o, s.s3 = some o → o.token.composite ≤ token.composite) :
    s.Grows (s.store S token) :=
  fun o at_o => ⟨_, rfl, le o at_o⟩

/-- A PUT that goes through keeps the token from going back. -/
theorem Inv.put_le (h : Inv S s) {expected : Option E} (covers : Covers S token expected)
    (matched : s.Matches expected = true) (unconditional : expected = none → s.s3 = none)
    {o : Object E} (at_o : s.s3 = some o) : o.token.composite ≤ token.composite := by
  cases expected with
  | none =>
    rw [unconditional rfl] at at_o
    cases at_o
  | some e =>
    unfold Matches at matched
    rw [at_o] at matched
    have same : o.etag = e := of_decide_eq_true matched
    have le := covers e rfl
    rw [← same, h.object o at_o] at le
    exact le

/-! ## Steps of a request -/

section Steps

variable {i : ι} {n : ν} {op : Op E} {x : Export E}

theorem Inv.alone (h : Inv S s) (at_i : s.ops i = some (n, op)) (j : ι) (op' : Op E)
    (at_j : s.ops j = some (n, op')) : j = i :=
  h.single j i n op' op at_j at_i

/-- The request goes on and nothing else changes. -/
theorem Inv.setOp (h : Inv S s) (at_i : s.ops i = some (n, op)) (op' : Option (Op E))
    (ok : ∀ o, op' = some o → s.OpOk S n o ∧
      (o.Locked = true → ∀ x, s.exports n = .live x → x.locked = true)) :
    Inv S (s.setOp i (op'.map (n, ·))) := by
  refine h.only (h.alone at_i) (.refl s) h.object (s.exports n) ?_
    (fun x live e at_e => h.exports n x live e at_e) (h.born i n op at_i) op' rfl fun o at_o => ?_
  · exact (Function.update_eq_self n s.exports).symm
  · exact ⟨(ok o at_o).1.grows (.refl s) fun _ now => now, (ok o at_o).2⟩

theorem live_setExport {x' y : Export E} (live : (s.setExport n (.live x')).exports n = .live y) :
    x' = y := by
  have self : (s.setExport n (.live x')).exports n = .live x' := Function.update_self n _ s.exports
  exact Life.live.inj (self.symm.trans live)

/-- The request changes its export and goes on. -/
theorem Inv.setLive (h : Inv S s) (at_i : s.ops i = some (n, op)) (x' : Export E)
    (op' : Option (Op E))
    (fits : ∀ e, x'.etag = some e →
      s.Known S e ∧ (S.tokenOf e).composite ≤ x'.manifest.composite)
    (ok : ∀ o, op' = some o → (s.setExport n (.live x')).OpOk S n o ∧
      (o.Locked = true → x'.locked = true)) :
    Inv S ((s.setExport n (.live x')).setOp i (op'.map (n, ·))) := by
  refine h.only (h.alone at_i) (.refl s) h.object (.live x') rfl ?_ nofun op' rfl
    fun o at_o => ⟨(ok o at_o).1.grows (.refl s) fun _ now => now, fun on x same => ?_⟩
  · intro x same e at_e
    cases same
    refine ⟨(fits e at_e).1, fun y live => ?_⟩
    rw [← live_setExport (s := s) live]
    exact (fits e at_e).2
  · cases same
    exact (ok o at_o).2 on

/-- A PUT that goes through. -/
theorem Inv.storeOp (h : Inv S s) (at_i : s.ops i = some (n, op)) {token : Token}
    (le : ∀ o, s.s3 = some o → o.token.composite ≤ token.composite) (op' : Option (Op E))
    (ok : ∀ o, op' = some o → (s.store S token).OpOk S n o ∧
      (o.Locked = true → ∀ x, s.exports n = .live x → x.locked = true)) :
    Inv S ((s.store S token).setOp i (op'.map (n, ·))) := by
  refine h.only (h.alone at_i) (store_grows (S := S) le) ?_ (s.exports n) ?_
    (fun x live e at_e => (h.exports n x live e at_e).grows (store_grows (S := S) le) fun _ now => now)
    (h.born i n op at_i) op' rfl fun o at_o => ?_
  · intro o at_o
    cases at_o
    exact S.tokenOf_tag _ _
  · exact (Function.update_eq_self n s.exports).symm
  · exact ⟨(ok o at_o).1.grows (.refl _) fun _ now => now, (ok o at_o).2⟩

/-- The ETag of a PUT goes with the manifest it was made from. -/
theorem store_fits {token : Token}
    (le : ∀ x, s.exports n = .live x → token.composite ≤ x.manifest.composite) :
    (s.store S token).Fits S n (s.next S token).etag := by
  have same : S.tokenOf (s.next S token).etag = token := S.tokenOf_tag _ _
  refine ⟨⟨_, rfl, ?_⟩, fun x live => ?_⟩
  · rw [same]
    exact le_rfl
  · rw [same]
    exact le x live

theorem tryPut_inv (h : Inv S s) (at_i : s.ops i = some (n, op)) {token : Token}
    {expected : Option E} (covers : Covers S token expected)
    (unconditional : expected = none → s.s3 = none) (reply : Reply)
    (ok : E → Option (Op E)) (refused error : Option (Op E))
    (okOk : ∀ o, ok (s.next S token).etag = some o → (s.store S token).OpOk S n o ∧
      (o.Locked = true → ∀ x, s.exports n = .live x → x.locked = true))
    (refusedOk : ∀ o, refused = some o → s.OpOk S n o ∧
      (o.Locked = true → ∀ x, s.exports n = .live x → x.locked = true))
    (errorOk : ∀ o, error = some o → s.OpOk S n o ∧
      (o.Locked = true → ∀ x, s.exports n = .live x → x.locked = true)) :
    Inv S (s.tryPut S i token expected reply (fun e => (ok e).map (n, ·))
      (refused.map (n, ·)) (error.map (n, ·))) := by
  unfold tryPut
  cases reply with
  | failed => exact h.setOp at_i error errorOk
  | ok =>
    dsimp only
    split
    · rename_i matched
      exact h.storeOp at_i (fun o => h.put_le covers matched unconditional) _ okOk
    · exact h.setOp at_i refused refusedOk
  | applied =>
    dsimp only
    split
    · rename_i matched
      have le := fun o => h.put_le covers matched unconditional (o := o)
      refine h.storeOp at_i le error fun o at_o => ?_
      exact ⟨(errorOk o at_o).1.grows (store_grows le) fun _ now => now, (errorOk o at_o).2⟩
    · exact h.setOp at_i error errorOk

theorem grant_inv (h : Inv S s) (at_i : s.ops i = some (n, op)) (live : s.exports n = .live x)
    (tries : Nat) (my : Token) : Inv S (s.grant i n x tries my) := by
  have fits := h.exports n x live
  unfold grant
  dsimp only
  split
  · exact h.setLive at_i _ none (fun e at_e => ⟨(fits e at_e).1, (fits e at_e).2 x live⟩) nofun
  · refine h.setLive at_i _ (some (.seizing tries my (effective x.manifest my)))
      (fun e at_e => ⟨(fits e at_e).1, (fits e at_e).2 x live⟩) fun o at_o => ?_
    cases at_o
    refine ⟨fun y at_y => ?_, nofun⟩
    rw [← live_setExport at_y, effective_composite]
    exact le_max_left _ _

/-- The steps of `enforce_attach_fence` after the fence. -/
theorem seize_inv (h : Inv S s) (at_i : s.ops i = some (n, op)) (live : s.exports n = .live x)
    (sound : s.Sound n op) {reply : Reply} (taken : s.runLive S i n x reply op = some t)
    (which : (∃ k my accepted, op = .seizing k my accepted) ∨
      (∃ k my accepted e, op = .stamping k my accepted e) ∨
      ∃ k my accepted e, op = .seizePut k my accepted e) : Inv S t := by
  have fits := h.exports n x live
  have ok := h.ops i n op at_i
  rcases which with ⟨k, my, accepted, rfl⟩ | ⟨k, my, accepted, expected, rfl⟩ |
    ⟨k, my, accepted, expected, rfl⟩
  · cases taken
    refine h.setOp at_i (some (.stamping k my accepted x.etag)) fun o at_o => ?_
    cases at_o
    exact ⟨⟨fun e at_e => ((fits e at_e).2 x live).trans (ok x live), ok⟩, nofun⟩
  · cases taken
    refine h.setLive at_i _ (some (.seizePut k my accepted expected)) (fun e at_e => ?_)
      fun o at_o => ?_
    · exact ⟨(fits e at_e).1, ((fits e at_e).2 x live).trans (ok.2 x live)⟩
    · cases at_o
      refine ⟨⟨ok.1, fun y at_y => ?_⟩, nofun⟩
      rw [← live_setExport at_y]
  · cases taken
    refine tryPut_inv h at_i ok.1 ?_ reply (fun e => some (.seized e)) (some (.contended k my)) none
      ?_ ?_ nofun
    · intro none
      subst none
      exact sound
    · intro o at_o
      cases at_o
      exact ⟨store_fits ok.2, nofun⟩
    · intro o at_o
      cases at_o
      exact ⟨trivial, nofun⟩

/-- A manifest that was read replaces the one in memory. -/
theorem reload_inv (h : Inv S s) (at_i : s.ops i = some (n, op)) (live : s.exports n = .live x)
    {found : Object E} (read : s.Read S n found) (op' : Op E) (unlocked : op'.Locked = false)
    (ok : (s.setExport n (.live { x with manifest := found.token })).Fits S n found.etag →
      (s.setExport n (.live { x with manifest := found.token })).OpOk S n op') :
    Inv S ((s.setExport n (.live { x with manifest := found.token })).setOp i (some (n, op'))) := by
  obtain ⟨same, known, newer⟩ := read
  refine h.setLive at_i _ (some op') (fun e at_e => ?_) fun o at_o => ?_
  · exact ⟨(h.exports n x live e at_e).1, newer x live e at_e⟩
  · cases at_o
    refine ⟨ok ⟨known, fun y at_y => ?_⟩, fun on => ?_⟩
    · rw [← live_setExport at_y, same]
    · rw [unlocked] at on
      cases on

/-- A request stores the ETag it was given. -/
theorem setEtag_inv (h : Inv S s) (at_i : s.ops i = some (n, op)) (live : s.exports n = .live x)
    {etag : Option E} (fits : ∀ e, etag = some e → s.Fits S n e) (op' : Option (Op E))
    (ok : ∀ o, op' = some o → (∀ u : System ν ι E, u.OpOk S n o) ∧
      (o.Locked = true → x.locked = true)) :
    Inv S ((s.setExport n (.live { x with etag := etag })).setOp i (op'.map (n, ·))) :=
  h.setLive at_i _ op' (fun e at_e => ⟨(fits e at_e).1, (fits e at_e).2 x live⟩)
    fun o at_o => ⟨(ok o at_o).1 _, (ok o at_o).2⟩

/-- What a GET finds. -/
theorem Inv.read (h : Inv S s) {found : Object E} (at_s3 : s.s3 = some found) (n : ν) :
    s.Read S n found := by
  refine ⟨h.object found at_s3, ⟨found, at_s3, ?_⟩, fun x live e at_e => ?_⟩
  · rw [h.object found at_s3]
  · obtain ⟨o, at_o, le⟩ := (h.exports n x live e at_e).1
    rw [at_s3] at at_o
    cases at_o
    exact le

theorem runLive_inv (h : Inv S s) (at_i : s.ops i = some (n, op)) (live : s.exports n = .live x)
    (sound : s.Sound n op) {reply : Reply} (taken : s.runLive S i n x reply op = some t) :
    Inv S t := by
  have fits := h.exports n x live
  have ok := h.ops i n op at_i
  have locked := fun on => h.locked i n op at_i on x live
  cases op with
  | fencing tries my =>
    cases tries with
    | zero =>
      cases taken
      exact h.setOp at_i none nofun
    | succ tries =>
      simp only [runLive] at taken
      split at taken
      · cases taken
        exact h.setOp at_i none nofun
      · cases taken
        exact grant_inv h at_i live tries my
  | seizing k my accepted => exact seize_inv h at_i live sound taken (Or.inl ⟨k, my, accepted, rfl⟩)
  | stamping k my accepted e =>
    exact seize_inv h at_i live sound taken (Or.inr (Or.inl ⟨k, my, accepted, e, rfl⟩))
  | seizePut k my accepted e =>
    exact seize_inv h at_i live sound taken (Or.inr (Or.inr ⟨k, my, accepted, e, rfl⟩))
  | seized e | refreshed e =>
    cases taken
    exact setEtag_inv h at_i live (fun e' same => Option.some.inj same ▸ ok) none nofun
  | contended tries my =>
    simp only [runLive] at taken
    split at taken
    · rename_i found at_s3
      cases taken
      refine h.setOp at_i (some (.reloading tries my found)) fun o at_o => ?_
      cases at_o
      exact ⟨h.read at_s3 n, nofun⟩
    · cases taken
      refine h.setOp at_i (some (.reloaded tries my none)) fun o at_o => ?_
      cases at_o
      exact ⟨nofun, nofun⟩
    · cases taken
      exact h.setOp at_i none nofun
  | reloading tries my found =>
    cases taken
    exact reload_inv h at_i live ok _ rfl fun fits e same => Option.some.inj same ▸ fits
  | reloaded tries my e =>
    cases taken
    refine setEtag_inv h at_i live ok (some (.fencing tries my)) fun o at_o => ?_
    cases at_o
    exact ⟨fun _ => trivial, nofun⟩
  | flushing =>
    cases taken
    refine h.setLive at_i _ (some (.syncing 3)) (fun e at_e => ?_) fun o at_o => ?_
    · exact ⟨(fits e at_e).1, ((fits e at_e).2 x live).trans (sound x live)⟩
    · cases at_o
      exact ⟨trivial, fun _ => locked rfl⟩
  | syncing attempts =>
    cases taken
    refine h.setOp at_i (some (.serialized attempts x.manifest)) fun o at_o => ?_
    cases at_o
    refine ⟨fun y at_y => ?_, fun _ => h.locked i n _ at_i rfl⟩
    cases live.symm.trans at_y
    rfl
  | serialized attempts token =>
    cases taken
    refine h.setOp at_i (some (.put attempts token x.etag)) fun o at_o => ?_
    cases at_o
    refine ⟨⟨fun e at_e => ?_, fun y at_y => ?_⟩, fun _ => h.locked i n _ at_i rfl⟩
    · rw [← ok x live]
      exact (fits e at_e).2 x live
    · rw [← ok y at_y]
  | put attempts token expected =>
    have still : ∀ o, some (Op.unlocking (E := E)) = some o → s.OpOk S n o ∧
        (o.Locked = true → ∀ x, s.exports n = .live x → x.locked = true) := by
      intro o at_o
      cases at_o
      exact ⟨trivial, fun _ => h.locked i n _ at_i rfl⟩
    cases attempts with
    | zero =>
      cases taken
      exact h.setOp at_i (some .unlocking) still
    | succ attempts =>
      cases taken
      refine tryPut_inv h at_i ok.1 ?_ reply (fun e => some (.stored e)) (some .unlocking)
        (some (.put attempts token expected)) ?_ still ?_
      · intro none
        subst none
        exact sound
      · intro o at_o
        cases at_o
        exact ⟨store_fits ok.2, fun _ => h.locked i n _ at_i rfl⟩
      · intro o at_o
        cases at_o
        exact ⟨ok, fun _ => h.locked i n _ at_i rfl⟩
  | stored e =>
    cases taken
    refine setEtag_inv h at_i live (fun e' same => Option.some.inj same ▸ ok) (some .unlocking)
      fun o at_o => ?_
    cases at_o
    exact ⟨fun _ => trivial, fun _ => locked rfl⟩
  | unlocking =>
    cases taken
    exact h.setLive at_i _ none (fun e at_e => ⟨(fits e at_e).1, (fits e at_e).2 x live⟩) nofun
  | refreshing =>
    simp only [runLive] at taken
    split at taken
    · rename_i found at_s3
      cases taken
      refine h.setOp at_i (some (.refresh found)) fun o at_o => ?_
      cases at_o
      exact ⟨h.read at_s3 n, nofun⟩
    · cases taken
      exact h.setOp at_i none nofun
  | refresh found =>
    cases taken
    exact reload_inv h at_i live ok _ rfl id
  | forkPut token seen => cases taken

theorem tryPut_grows (h : Inv S s) {token : Token} {expected : Option E}
    (covers : Covers S token expected) (unconditional : expected = none → s.s3 = none)
    (reply : Reply) (ok : E → Option (ν × Op E)) (refused error : Option (ν × Op E)) :
    s.Grows (s.tryPut S i token expected reply ok refused error) := by
  have le := fun matched o => h.put_le covers matched unconditional (o := o)
  unfold tryPut
  cases reply with
  | failed => exact .refl s
  | ok | applied =>
    dsimp only
    split
    · rename_i matched
      exact store_grows (S := S) (le matched)
    · exact .refl s

theorem runLive_grows (h : Inv S s) (at_i : s.ops i = some (n, op)) (sound : s.Sound n op)
    {reply : Reply} (taken : s.runLive S i n x reply op = some t) : s.Grows t := by
  have ok := h.ops i n op at_i
  cases op with
  | fencing tries my =>
    cases tries with
    | zero =>
      cases taken
      exact .refl s
    | succ tries =>
      simp only [runLive] at taken
      split at taken
      · cases taken
        exact .refl s
      · cases taken
        unfold grant
        dsimp only
        split <;> exact .refl s
  | seizePut k my accepted expected =>
    cases taken
    exact tryPut_grows h ok.1 (fun none => by subst none; exact sound) _ _ _ _
  | put attempts token expected =>
    cases attempts with
    | zero =>
      cases taken
      exact .refl s
    | succ attempts =>
      cases taken
      exact tryPut_grows h ok.1 (fun none => by subst none; exact sound) _ _ _ _
  | contended tries my =>
    simp only [runLive] at taken
    split at taken <;> cases taken <;> exact .refl s
  | refreshing =>
    simp only [runLive] at taken
    split at taken <;> cases taken <;> exact .refl s
  | forkPut token seen => cases taken
  | _ =>
    cases taken
    exact .refl s

end Steps

/-! ## Every step -/

theorem Inv.begin {i : ι} {x : Export E} (h : Inv S s) (live : s.exports n = .live x)
    (quiet : s.Quiet n) (unlocked : op.Locked = false) (ok : s.OpOk S n op) :
    Inv S (s.setOp i (some (n, op))) := by
  refine h.only (fun j o at_j => absurd at_j (quiet j o)) (.refl s) h.object (s.exports n)
    (Function.update_eq_self n s.exports).symm (fun y live e at_e => h.exports n y live e at_e) ?_
    (some op) rfl fun o at_o => ?_
  · rw [live]
    nofun
  · cases at_o
    refine ⟨ok.grows (.refl s) fun _ now => now, fun on => ?_⟩
    rw [unlocked] at on
    cases on

/-- A request begins that has the export to itself. -/
theorem Inv.beginAlone {i : ι} {x : Export E} (h : Inv S s) (live : s.exports n = .live x)
    (quiet : s.Quiet n) (ok : ∀ u : System ν ι E, u.OpOk S n op) :
    Inv S ((s.setExport n (.live { x with locked := true })).setOp i (some (n, op))) := by
  refine h.only (fun j o at_j => absurd at_j (quiet j o)) (.refl s) h.object
    (.live { x with locked := true }) rfl ?_ nofun (some op) rfl fun o at_o => ?_
  · intro y same e at_e
    cases same
    refine ⟨(h.exports n x live e at_e).1, fun y at_y => ?_⟩
    rw [← live_setExport (s := s) at_y]
    exact (h.exports n x live e at_e).2 x live
  · cases at_o
    refine ⟨ok _, fun _ y same => ?_⟩
    cases same
    rfl

theorem Inv.beginLocked {i : ι} (h : Inv S s) (only : s.OnlyLocked n)
    (ok : ∀ u : System ν ι E, u.OpOk S n op) (taken : s.beginLocked i n op = some t) : Inv S t := by
  unfold System.beginLocked at taken
  split at taken
  · rename_i x live free
    split at taken
    · cases taken
    · rename_i unlocked
      cases taken
      have quiet : s.Quiet n := fun j o at_j => unlocked (h.locked j n o at_j (only j o at_j) x live)
      exact h.beginAlone live quiet ok
  · cases taken

theorem begin_cases {i : ι} (taken : s.begin i n op = some t) :
    ∃ x, s.exports n = .live x ∧ t = s.setOp i (some (n, op)) := by
  unfold System.begin at taken
  split at taken
  · rename_i x live free
    cases taken
    exact ⟨x, live, rfl⟩
  · cases taken

theorem Inv.openExport (h : Inv S s) (unborn : s.exports n = .unborn) (x : Export E)
    (which : (∃ o, s.s3 = some o ∧ x = ⟨o.token, some o.etag, .none, false⟩) ∨ s.s3 = none ∧ x = ⟨.none, none, .none, false⟩) :
    Inv S (s.setExport n (.live x)) := by
  have idle : ∀ j op, s.ops j ≠ some (n, op) := fun j op at_j => h.born j n op at_j unborn
  have self : (s.setExport n (.live x)).exports n = .live x := Function.update_self n _ s.exports
  refine h.change n (.refl s) h.object (fun m other => Function.update_of_ne other _ _)
    (fun y live e at_e => ?_) (by rw [self]; nofun) (fun j m op at_j => ?_)
    fun j k op op' at_j => absurd at_j (idle j op)
  · cases live_setExport live
    rcases which with ⟨o, at_o, rfl⟩ | ⟨_, rfl⟩
    · cases at_e
      have same := h.object o at_o
      refine ⟨⟨o, at_o, by rw [same]⟩, fun y live => ?_⟩
      rw [← live_setExport live, same]
    · cases at_e
  · refine Or.inl ⟨fun same => ?_, at_j⟩
    subst same
    exact idle j op at_j

theorem Inv.drop (h : Inv S s) : Inv S (s.setExport n .gone) := by
  have self : (s.setExport n .gone).exports n = .gone := Function.update_self n _ s.exports
  have ended : ∀ x, (s.setExport n .gone).exports n ≠ .live x := by
    intro x
    rw [self]
    nofun
  refine h.change n (.refl s) h.object (fun m other => Function.update_of_ne other _ _)
    (fun x live => absurd live (ended x)) (by rw [self]; nofun) (fun j m op at_j => ?_)
    fun i j op op' at_i at_j => h.single i j n op op' at_i at_j
  by_cases here : m = n
  · subst here
    exact Or.inr ⟨rfl, (h.ops j m op at_j).grows (.refl s) fun x now => absurd now (ended x),
      fun _ x live => absurd live (ended x)⟩
  · exact Or.inl ⟨here, at_j⟩

theorem Inv.fork {i : ι} (h : Inv S s) (unborn : s.exports n = .unborn) {seen : Option E}
    (covers : Covers S token seen) :
    Inv S ((s.setExport n .opening).setOp i (some (n, .forkPut token seen))) := by
  refine h.only (fun j op at_j => absurd unborn (h.born j n op at_j)) (.refl s) h.object
    .opening rfl nofun nofun (some (.forkPut token seen)) rfl fun o at_o => ?_
  cases at_o
  exact ⟨covers, nofun⟩

/-- A PUT of the fork path or of a process that has ended. -/
theorem orphanPut_inv {i : ι} (h : Inv S s) (at_i : s.ops i = some (n, op)) {expected : Option E}
    (le : s.Matches expected = true → ∀ o, s.s3 = some o → o.token.composite ≤ token.composite)
    (reply : Reply) :
    Inv S (s.orphanPut S i token expected reply) ∧ s.Grows (s.orphanPut S i token expected reply) := by
  unfold orphanPut tryPut
  cases reply with
  | failed => exact ⟨h.setOp at_i none nofun, .refl s⟩
  | ok | applied =>
    dsimp only
    split
    · rename_i matched
      exact ⟨h.storeOp at_i (le matched) none nofun, store_grows (S := S) (le matched)⟩
    · exact ⟨h.setOp at_i none nofun, .refl s⟩

/-- The fork path's PUT, which has no condition. -/
theorem fork_le {seen : Option E} (h : Inv S s) (covers : Covers S token seen)
    (sound : s.Sound n (.forkPut token seen)) (o : Object E) (at_o : s.s3 = some o) :
    o.token.composite ≤ token.composite := by
  have le := covers o.etag (sound o at_o)
  rw [h.object o at_o] at le
  exact le

theorem forkDone_inv {i : ι} (h : Inv S s) (at_i : s.ops i = some (n, op))
    (le : ∀ o, s.s3 = some o → o.token.composite ≤ token.composite) :
    Inv S (((s.store S token).setExport n
      (.live ⟨token, some (s.next S token).etag, .none, false⟩)).setOp i none) := by
  refine h.only (h.alone at_i) (store_grows (S := S) le) ?_
    (.live ⟨token, some (s.next S token).etag, .none, false⟩) rfl ?_ nofun none rfl nofun
  · intro o at_o
    cases at_o
    exact S.tokenOf_tag _ _
  · intro x same e at_e
    cases same
    cases at_e
    have tag : S.tokenOf (s.next S token).etag = token := S.tokenOf_tag _ _
    refine ⟨⟨_, rfl, by rw [tag]; exact le_rfl⟩, fun y live => ?_⟩
    rw [← live_setExport (s := s.store S token) live, tag]

theorem step_inv (h : Inv S s) {a : Act ν ι} (ok : a.Orderly s) (taken : a.step S s = some t) :
    Inv S t ∧ s.Grows t := by
  cases a with
  | openExport n =>
    obtain ⟨unborn, done⟩ := Option.ite_none_right_eq_some.mp taken
    cases done
    refine ⟨h.openExport unborn _ ?_, .refl s⟩
    cases at_s3 : s.s3 with
    | none => exact Or.inr ⟨rfl, rfl⟩
    | some o => exact Or.inl ⟨o, rfl, rfl⟩
  | fork i n source =>
    obtain ⟨⟨unborn, free⟩, done⟩ := Option.ite_none_right_eq_some.mp taken
    split at done
    · cases done
      exact ⟨h.fork unborn nofun, .refl s⟩
    · rename_i o at_s3
      cases done
      refine ⟨h.fork unborn fun e same => ?_, .refl s⟩
      cases same
      rw [h.object o at_s3]
    · cases done
  | drop n =>
    obtain ⟨_, done⟩ := Option.ite_none_left_eq_some.mp taken
    cases done
    exact ⟨h.drop, .refl s⟩
  | attach i n my | handoff i n =>
    obtain ⟨x, live, rfl⟩ := begin_cases taken
    exact ⟨h.begin live ok rfl trivial, .refl s⟩
  | flush i n | sync i n =>
    refine ⟨h.beginLocked ok ?_ taken, ?_⟩
    · exact fun _ => trivial
    · simp only [Act.step, System.beginLocked] at taken
      split at taken
      · split at taken <;> cases taken
        exact .refl s
      · cases taken
  | teardown i n =>
    simp only [Act.step, System.beginTeardown] at taken
    split at taken
    · rename_i x live free
      cases taken
      exact ⟨h.beginAlone live ok fun _ => trivial, .refl s⟩
    · cases taken
  | run i reply =>
    simp only [Act.step] at taken
    split at taken
    · cases taken
    · rename_i n op at_i
      have sound := ok n op at_i
      split at taken
      · rename_i x op live
        exact ⟨runLive_inv h at_i live sound taken, runLive_grows h at_i sound taken⟩
      · rename_i k my accepted expected gone
        cases taken
        have covers := (h.ops i n _ at_i).1
        refine orphanPut_inv h at_i (fun matched o => h.put_le covers matched ?_) reply
        intro none
        subst none
        exact sound
      · rename_i k token expected gone
        cases taken
        have covers := (h.ops i n _ at_i).1
        refine orphanPut_inv h at_i (fun matched o => h.put_le covers matched ?_) reply
        intro none
        subst none
        exact sound
      · rename_i token seen gone
        cases taken
        exact orphanPut_inv h at_i (fun _ => fork_le h (h.ops i n _ at_i) sound) reply
      · rename_i token seen opening
        cases taken
        have le := fork_le h (h.ops i n _ at_i) sound
        cases reply with
        | ok => exact ⟨forkDone_inv h at_i le, store_grows (S := S) le⟩
        | failed | applied =>
          exact orphanPut_inv (s := s.setExport n .gone) h.drop at_i (fun _ => le) _
      · cases taken

theorem initial_inv : Inv S (System.initial : System ν ι E) where
  object o at_o := by cases at_o
  exports n x live := by cases live
  born i n op at_i := by cases at_i
  single i j n op op' at_i := by cases at_i
  locked i n op at_i := by cases at_i
  ops i n op at_i := by cases at_i

/-- In every run of orderly steps the token in S3 never decreases. -/
theorem token_never_decreases (S : EtagScheme E) {s t : System ν ι E} {o : Object E}
    (run : Reach (Act.step S) Act.Orderly System.initial s)
    (later : Reach (Act.step S) Act.Orderly s t) (at_s : s.s3 = some o) :
    ∃ o', t.s3 = some o' ∧ o.token.composite ≤ o'.token.composite := by
  have inv : Inv S s := run.invariant initial_inv fun _ _ _ held ok taken => (step_inv held ok taken).1
  have grown : Inv S t ∧ s.Grows t := later.invariant (I := fun u => Inv S u ∧ s.Grows u)
    ⟨inv, .refl s⟩ fun _ _ _ held ok taken =>
      ⟨(step_inv held.1 ok taken).1, held.2.trans (step_inv held.1 ok taken).2⟩
  exact grown.2 o at_s

/-- ETags that number the PUTs. -/
def EtagScheme.numbered : EtagScheme (Nat × Token) := ⟨Prod.mk, Prod.snd, fun _ _ => rfl⟩

/-- An attach that seizes the volume. -/
def seize (n : Nat) (my : Token) : List (Act Nat Unit) :=
  [.attach () n my, .run () .ok, .run () .ok, .run () .ok, .run () .ok, .run () .ok]

/-- A flush, from its stamp to the end. -/
def flushManifest (n : Nat) : List (Act Nat Unit) :=
  [.flush () n, .run () .ok, .run () .ok, .run () .ok, .run () .ok, .run () .ok, .run () .ok]

private theorem first_attach :
    ∃ s : System Nat Unit (Nat × Token),
      Steps (Act.step .numbered) Act.Orderly System.initial (.openExport 0 :: seize 0 ⟨5, 0⟩) s ∧
      (∃ o, s.s3 = some o ∧ o.token = ⟨5, 0⟩) ∧ ∃ t o',
        Steps (Act.step .numbered) Act.Orderly s (.openExport 1 :: seize 1 ⟨6, 0⟩) t ∧
        t.s3 = some o' ∧ o'.token = ⟨6, 0⟩ := by
  refine ⟨_, ⟨trivial, _, rfl, ?_, _, rfl, ?_, _, rfl, ?_, _, rfl, ?_, _, rfl, ?_, _, rfl, ?_, _,
    rfl, rfl⟩, ⟨_, rfl, rfl⟩, _, _, ⟨trivial, _, rfl, ?_, _, rfl, ?_, _, rfl, ?_, _, rfl, ?_, _, rfl,
    ?_, _, rfl, ?_, _, rfl, rfl⟩, rfl, rfl⟩
  case refine_1 | refine_7 => exact nofun
  case refine_5 =>
    intro n op at_i
    cases at_i
    rfl
  all_goals
    intro n op at_i
    cases at_i
    trivial

/-- A second process takes the volume over. -/
theorem second_attach_raises :
    ∃ s t : System Nat Unit (Nat × Token), ∃ o o',
      Steps (Act.step .numbered) Act.Orderly System.initial (.openExport 0 :: seize 0 ⟨5, 0⟩) s ∧
      Steps (Act.step .numbered) Act.Orderly s (.openExport 1 :: seize 1 ⟨6, 0⟩) t ∧
      s.s3 = some o ∧ o.token = ⟨5, 0⟩ ∧ t.s3 = some o' ∧ o'.token = ⟨6, 0⟩ ∧ o.token.composite ≤ o'.token.composite := by
  obtain ⟨s, first, ⟨o, at_s, five⟩, t, o', second, at_t, six⟩ := first_attach
  obtain ⟨o'', at_t', le⟩ := token_never_decreases .numbered (reach_steps first)
    (reach_steps second) at_s
  cases at_t.symm.trans at_t'
  exact ⟨s, t, o, o', first, second, at_s, five, at_t, six, le⟩

/-- After a restart without an attach the cache holds no token, and the next flush stamps that. -/
theorem restart_lowers_token :
    ∃ s t : System Nat Unit (Nat × Token),
      Reach (Act.step .numbered) anyStep System.initial s ∧
      Reach (Act.step .numbered) anyStep s t ∧
      ∃ o o', s.s3 = some o ∧ t.s3 = some o' ∧ ¬o.token.composite ≤ o'.token.composite := by
  obtain ⟨s, first, rest⟩ : ∃ s : System Nat Unit (Nat × Token),
      exec (Act.step .numbered) System.initial (.openExport 0 :: seize 0 ⟨5, 0⟩) = some s ∧
      ∃ t, exec (Act.step .numbered) s (.drop 0 :: .openExport 1 :: flushManifest 1) = some t ∧
        ∃ o o', s.s3 = some o ∧ t.s3 = some o' ∧ o.token = ⟨5, 0⟩ ∧ o'.token = ⟨0, 0⟩ :=
    ⟨_, rfl, _, rfl, _, _, rfl, rfl, rfl, rfl⟩
  obtain ⟨t, second, o, o', at_s, at_t, five, zero⟩ := rest
  refine ⟨s, t, reach_exec first, reach_exec second, o, o', at_s, at_t, ?_⟩
  rw [five, zero]
  decide

end GlideFS.Router
