import GlideFS.Router.Manifests

/-! # Volumes and tags of one pool

The live manifest of a volume and a published tag are objects of one key space,
`manifests/{name}`. A volume writes its own object conditionally once it knows an
ETag. A fork writes the object of the new volume, and a tag is published under any
name, both without a condition and without a look at what the name stands for.
Requests run side by side; each call to S3 is one step.
-/

namespace GlideFS.Router.PoolNames

open Lib

variable {ν ι M E : Type} [DecidableEq ν] [DecidableEq ι] [DecidableEq E]

structure Object (M E : Type) where
  manifest : M
  etag : E

/-- A volume of the pool with its in-memory manifest and `manifest_etag`. -/
structure Volume (M E : Type) where
  manifest : M
  etag : Option E

/-- A request that is about to call S3, with the bytes it has serialized. -/
inductive Op (ν M E : Type) where
  /-- The fork path of `create_export`. -/
  | forking (n : ν) (m : M)
  /-- A flush, a sync, a snapshot, or `publish_tag` under the volume's own name. -/
  | syncing (n : ν) (m : M) (expected : Option E)
  /-- `publish_tag` under another name. -/
  | tagging (n tag : ν) (m : M)
  | purging (n : ν)

/-- The volume a request is about. -/
def Op.volume : Op ν M E → ν
  | .forking n _ | .syncing n _ _ | .tagging n _ _ | .purging n => n

/-- The request goes for the manifest of its own volume. -/
def Op.Own (n : ν) : Op ν M E → Prop
  | .forking n' _ | .syncing n' _ _ | .purging n' => n' = n
  | .tagging _ _ _ => False

def Op.Tags (t : ν) : Op ν M E → Prop
  | .tagging _ t' _ => t' = t
  | _ => False

/-- The objects `manifests/{name}`, the volumes whose definition exists, and the requests.
    `published` is no part of the pool: it is what was last stored under a tag. -/
structure Pool (ν ι M E : Type) where
  manifests : ν → Option (Object M E)
  puts : Nat
  volumes : ν → Option (Volume M E)
  ops : ι → Option (Op ν M E)
  published : ν → Option M

inductive Act (ν ι M : Type) where
  /-- `create_export` without a source. -/
  | create (n : ν)
  /-- `create_export` from a manifest it has read. -/
  | fork (i : ι) (n : ν) (source : M)
  /-- A flush, a compaction or the fence changes the manifest in memory. -/
  | update (n : ν) (m : M)
  /-- An attach, or a refused seizure, loads the manifest. -/
  | reload (n : ν)
  | sync (i : ι) (n : ν)
  | tag (i : ι) (n tag : ν)
  | purge (i : ι) (n : ν)
  | run (i : ι) (reply : Reply)
  | giveUp (i : ι)

namespace Pool

def setOp (p : Pool ν ι M E) (i : ι) (op : Option (Op ν M E)) : Pool ν ι M E :=
  { p with ops := Function.update p.ops i op }

def setVolume (p : Pool ν ι M E) (n : ν) (v : Option (Volume M E)) : Pool ν ι M E :=
  { p with volumes := Function.update p.volumes n v }

/-- `put_manifest`; `etag` names the object of the next PUT. -/
def put (etag : Nat → M → E) (p : Pool ν ι M E) (n : ν) (m : M) : Pool ν ι M E :=
  { p with
    manifests := Function.update p.manifests n (some ⟨m, etag p.puts m⟩)
    puts := p.puts + 1 }

def delete (p : Pool ν ι M E) (n : ν) : Pool ν ι M E :=
  { p with manifests := Function.update p.manifests n none }

/-- If-Match, or no condition at all. -/
def Matches (p : Pool ν ι M E) (n : ν) : Option E → Bool
  | none => true
  | some e => (p.manifests n).any fun o => o.etag = e

/-- A request starts. -/
def begin (p : Pool ν ι M E) (i : ι) (op : Op ν M E) : Option (Pool ν ι M E) :=
  if (p.ops i).isNone then some (p.setOp i (some op)) else none

/-- The call to S3 of a request. A call that failed may be made again. -/
def call (etag : Nat → M → E) (p : Pool ν ι M E) (i : ι) (reply : Reply) : Op ν M E → Pool ν ι M E
  | .forking n m =>
      match reply with
      | .failed => p
      | .ok => ((p.put etag n m).setVolume n (some ⟨m, some (etag p.puts m)⟩)).setOp i none
      | .applied => p.put etag n m
  | .syncing n m expected =>
      if p.Matches n expected then
        match reply with
        | .failed => p
        | .ok =>
            let v := (p.volumes n).map fun v => { v with etag := some (etag p.puts m) }
            ((p.put etag n m).setVolume n v).setOp i none
        | .applied => p.put etag n m
      else p.setOp i none
  | .tagging _ t m =>
      match reply with
      | .failed => p
      | _ => { (p.put etag t m).setOp i none with published := Function.update p.published t (some m) }
  | .purging n =>
      match reply with
      | .failed => p
      | .ok => ((p.delete n).setVolume n none).setOp i none
      | .applied => p.delete n

end Pool

/-- `new` is the manifest of an empty volume. -/
def step (new : M) (etag : Nat → M → E) (p : Pool ν ι M E) : Act ν ι M → Option (Pool ν ι M E)
  | .create n =>
      if (p.volumes n).isNone then
        some (p.setVolume n (some (match p.manifests n with
          | some o => ⟨o.manifest, some o.etag⟩
          | none => ⟨new, none⟩)))
      else none
  | .fork i n source => if (p.volumes n).isNone then p.begin i (.forking n source) else none
  | .update n m => (p.volumes n).map fun v => p.setVolume n (some { v with manifest := m })
  | .reload n =>
      (p.volumes n).map fun v => p.setVolume n (some (match p.manifests n with
        | some o => ⟨o.manifest, some o.etag⟩
        | none => { v with etag := none }))
  | .sync i n => (p.volumes n).bind fun v => p.begin i (.syncing n v.manifest v.etag)
  | .tag i n tag =>
      (p.volumes n).bind fun v =>
        p.begin i (if tag = n then .syncing n v.manifest v.etag else .tagging n tag v.manifest)
  | .purge i n => (p.volumes n).bind fun _ => p.begin i (.purging n)
  | .run i reply => (p.ops i).map (p.call etag i reply)
  | .giveUp i => some (p.setOp i none)

/-- The volume a step is about. -/
def Act.subject (p : Pool ν ι M E) : Act ν ι M → Option ν
  | .create n | .fork _ n _ | .update n _ | .reload n | .sync _ n | .tag _ n _ | .purge _ n => some n
  | .run i _ | .giveUp i => (p.ops i).map Op.volume

/-- The name of a volume, or of one that a request is creating or still works on. -/
def Pool.InUse (p : Pool ν ι M E) (n : ν) : Prop :=
  (p.volumes n).isSome ∨ ∃ i op, p.ops i = some op ∧ op.Own n

/-- A tag that is published or about to be. -/
def Pool.IsTag (p : Pool ν ι M E) (t : ν) : Prop :=
  (p.published t).isSome ∨ ∃ i op, p.ops i = some op ∧ op.Tags t

/-- New volumes are not named as a tag, and tags not as a volume. -/
def NamesApart (p : Pool ν ι M E) : Act ν ι M → Prop
  | .create n | .fork _ n _ => ¬p.IsTag n
  | .tag _ n tag => tag = n ∨ ¬p.InUse tag
  | _ => True

/-- Nothing is published and no request is under way. -/
structure Start (p : Pool ν ι M E) : Prop where
  published : ∀ t, p.published t = none
  ops : ∀ i, p.ops i = none

/-! ## What the steps touch -/

section Steps

variable {new : M} {etag : Nat → M → E} {p p' : Pool ν ι M E}

variable {op : Op ν M E} {a : Act ν ι M}

theorem of_setOp {i j : ι} {o : Option (Op ν M E)} (h : (p.setOp i o).ops j = some op) :
    p.ops j = some op ∨ o = some op := by
  by_cases same : j = i
  · subst same
    exact .inr (by simpa [Pool.setOp] using h)
  · exact .inl (by simpa [Pool.setOp, same] using h)

/-- What a call to S3 touches: the manifest the request goes for, and for a tag what is
    published under it. -/
structure Called (p p' : Pool ν ι M E) (op : Op ν M E) : Prop where
  ops : ∀ j o, p'.ops j = some o → p.ops j = some o
  volumes : ∀ n, (p'.volumes n).isSome → (p.volumes n).isSome ∨ op.Own n
  published : ∀ t, ¬op.Tags t → p'.published t = p.published t
  manifests : ∀ k, ¬op.Own k → ¬op.Tags k → p'.manifests k = p.manifests k
  tagged : ∀ t, op.Tags t → p'.published t = p.published t ∧ p'.manifests t = p.manifests t ∨
    ∃ m e, p'.published t = some m ∧ p'.manifests t = some ⟨m, e⟩

theorem Called.none (p : Pool ν ι M E) (op : Op ν M E) : Called p p op :=
  ⟨fun _ _ h => h, fun _ h => .inl h, fun _ _ => rfl, fun _ _ _ => rfl, fun _ _ => .inl ⟨rfl, rfl⟩⟩

/-- A request that goes for the manifest of its own volume. -/
theorem called_own {n : ν} (own : op.Own n) (ops : ∀ j o, p'.ops j = some o → p.ops j = some o)
    (volumes : ∀ k ≠ n, p'.volumes k = p.volumes k) (published : p'.published = p.published)
    (manifests : ∀ k ≠ n, p'.manifests k = p.manifests k) : Called p p' op where
  ops := ops
  volumes k h := by
    by_cases same : k = n
    · exact .inr (same ▸ own)
    · exact .inl (volumes k same ▸ h)
  published t _ := by rw [published]
  manifests k other _ := manifests k fun same => other (same ▸ own)
  tagged t tags := by
    cases op with
    | tagging => exact absurd own id
    | forking => exact absurd tags id
    | syncing => exact absurd tags id
    | purging => exact absurd tags id

/-- A request on its own volume that has replaced the object and may be made again. -/
theorem called_again {n : ν} (own : op.Own n) (o : Option (Object M E)) (puts : Nat) :
    Called p { p with manifests := Function.update p.manifests n o, puts } op :=
  called_own own (fun _ _ h => h) (fun _ _ => rfl) rfl fun _ other => Function.update_of_ne other _ _

/-- A request on its own volume that has replaced the object and ends. -/
theorem called_done {n : ν} (own : op.Own n) (i : ι) (o : Option (Object M E)) (puts : Nat)
    (v : Option (Volume M E)) :
    Called p (({ p with manifests := Function.update p.manifests n o, puts }.setVolume n v).setOp i none)
      op := by
  refine called_own own (fun j o h => ?_) (fun _ other => Function.update_of_ne other _ _) rfl
    fun _ other => Function.update_of_ne other _ _
  exact (of_setOp h).resolve_right nofun

theorem call_called {i : ι} {reply : Reply} : Called p (p.call etag i reply op) op := by
  cases op with
  | forking n m =>
    have own : (Op.forking n m : Op ν M E).Own n := rfl
    cases reply with
    | failed => exact .none p _
    | ok => exact called_done own i _ _ _
    | applied => exact called_again own _ _
  | syncing n m expected =>
    have own : (Op.syncing n m expected : Op ν M E).Own n := rfl
    simp only [Pool.call]
    split
    · cases reply with
      | failed => exact .none p _
      | ok => exact called_done own i _ _ _
      | applied => exact called_again own _ _
    · refine called_own own (fun j o h => ?_) (fun _ _ => rfl) rfl fun _ _ => rfl
      exact (of_setOp h).resolve_right nofun
  | purging n =>
    have own : (Op.purging n : Op ν M E).Own n := rfl
    cases reply with
    | failed => exact .none p _
    | ok => exact called_done own i none p.puts none
    | applied => exact called_again own none p.puts
  | tagging n tag m =>
    have stored : Called p { (p.put etag tag m).setOp i none with
        published := Function.update p.published tag (some m) } (.tagging n tag m) := by
      refine ⟨fun j o h => ?_, fun _ h => .inl h, fun t other => ?_, fun k _ other => ?_,
        fun t same => ?_⟩
      · exact (of_setOp (p := p) (by exact h)).resolve_right fun none => by cases none
      · exact Function.update_of_ne (fun same => other same.symm) _ _
      · exact Function.update_of_ne (fun same => other same.symm) _ _
      · cases same
        exact .inr ⟨m, _, Function.update_self .., Function.update_self ..⟩
    cases reply with
    | failed => exact .none p _
    | ok => exact stored
    | applied => exact stored

/-- A step that is no call to S3 may bring a volume or a request. -/
structure Begun (p p' : Pool ν ι M E) (a : Act ν ι M) : Prop where
  manifests : p'.manifests = p.manifests
  published : p'.published = p.published
  inUse : ∀ n, p'.InUse n → p.InUse n ∨ a = .create n ∨ ∃ i m, a = .fork i n m
  isTag : ∀ t, p'.IsTag t → p.IsTag t ∨ ∃ i n, a = .tag i n t ∧ t ≠ n

/-- Only the volume `n` changes, and it is one already. -/
theorem begun_setVolume {n : ν} {v : Volume M E} {w : Option (Volume M E)}
    (here : p.volumes n = some v) : Begun p (p.setVolume n w) a where
  manifests := rfl
  published := rfl
  inUse k use := by
    refine .inl ?_
    rcases use with exists_k | op
    · by_cases same : k = n
      · exact .inl (by simp [same, here])
      · exact .inl (by simpa [Pool.setVolume, same] using exists_k)
    · exact .inr op
  isTag _ tag := .inl tag

theorem begun_op {i : ι} (h : p.begin i op = some p')
    (own : ∀ n, op.Own n → p.InUse n ∨ a = .create n ∨ ∃ i m, a = .fork i n m)
    (tags : ∀ t, op.Tags t → ∃ i n, a = .tag i n t ∧ t ≠ n) : Begun p p' a := by
  obtain ⟨-, h⟩ := Option.ite_none_right_eq_some.mp h
  cases h
  refine ⟨rfl, rfl, fun n use => ?_, fun t tag => ?_⟩
  · rcases use with exists_n | ⟨j, o, there, owns⟩
    · exact .inl (.inl exists_n)
    · rcases of_setOp there with old | new
      · exact .inl (.inr ⟨j, o, old, owns⟩)
      · cases new
        exact own n owns
  · rcases tag with published | ⟨j, o, there, names⟩
    · exact .inl (.inl published)
    · rcases of_setOp there with old | new
      · exact .inl (.inr ⟨j, o, old, names⟩)
      · cases new
        exact .inr (tags t names)

/-- Every step is a call of a request to S3, or leaves S3 alone. -/
theorem step_cases (h : step new etag p a = some p') :
    (∃ i reply op, a = .run i reply ∧ p.ops i = some op ∧ Called p p' op) ∨ Begun p p' a := by
  cases a with
  | run i reply =>
    obtain ⟨op, there, rfl⟩ := Option.map_eq_some_iff.mp h
    exact .inl ⟨i, reply, op, rfl, there, call_called⟩
  | create n =>
    obtain ⟨-, h⟩ := Option.ite_none_right_eq_some.mp h
    cases h
    refine .inr ⟨rfl, rfl, fun k use => ?_, fun _ tag => .inl tag⟩
    by_cases same : k = n
    · exact .inr (.inl (same ▸ rfl))
    · rcases use with exists_k | op
      · exact .inl (.inl (by simpa [Pool.setVolume, same] using exists_k))
      · exact .inl (.inr op)
  | fork i n m =>
    obtain ⟨-, h⟩ := Option.ite_none_right_eq_some.mp h
    refine .inr (begun_op h (fun k own => ?_) fun _ tags => absurd tags id)
    cases own
    exact .inr (.inr ⟨i, m, rfl⟩)
  | update n m =>
    obtain ⟨v, here, rfl⟩ := Option.map_eq_some_iff.mp h
    exact .inr (begun_setVolume here)
  | reload n =>
    obtain ⟨v, here, rfl⟩ := Option.map_eq_some_iff.mp h
    exact .inr (begun_setVolume here)
  | sync i n =>
    obtain ⟨v, here, h⟩ := Option.bind_eq_some_iff.mp h
    refine .inr (begun_op h (fun k own => ?_) fun _ tags => absurd tags id)
    cases own
    exact .inl (.inl (by simp [here]))
  | tag i n t =>
    obtain ⟨v, here, h⟩ := Option.bind_eq_some_iff.mp h
    by_cases same : t = n
    · rw [if_pos same] at h
      refine .inr (begun_op h (fun k own => ?_) fun _ tags => absurd tags id)
      cases own
      exact .inl (.inl (by simp [here]))
    · rw [if_neg same] at h
      refine .inr (begun_op h (fun _ own => absurd own id) fun k tags => ?_)
      cases tags
      exact ⟨i, n, rfl, same⟩
  | purge i n =>
    obtain ⟨v, here, h⟩ := Option.bind_eq_some_iff.mp h
    refine .inr (begun_op h (fun k own => ?_) fun _ tags => absurd tags id)
    cases own
    exact .inl (.inl (by simp [here]))
  | giveUp i =>
    cases h
    refine .inr ⟨rfl, rfl, fun n use => .inl ?_, fun t tag => .inl ?_⟩
    · rcases use with exists_n | ⟨j, o, there, owns⟩
      · exact .inl exists_n
      · exact .inr ⟨j, o, (of_setOp there).resolve_right nofun, owns⟩
    · rcases tag with published | ⟨j, o, there, names⟩
      · exact .inl published
      · exact .inr ⟨j, o, (of_setOp there).resolve_right nofun, names⟩

end Steps

/-- No name is a volume's and a tag's, and a tag has what was last published under it. -/
structure Pool.Apart (p : Pool ν ι M E) : Prop where
  names : ∀ n, p.InUse n → ¬p.IsTag n
  resolves : ∀ t m, p.published t = some m → ∃ e, p.manifests t = some ⟨m, e⟩

section Runs

variable {new : M} {etag : Nat → M → E} {p p' : Pool ν ι M E}

/-- A call keeps the names as they are: its own are in use or a tag already. -/
theorem Pool.Apart.called {i : ι} {op : Op ν M E} (h : p.Apart) (there : p.ops i = some op)
    (called : Called p p' op) : p'.Apart := by
  have use (n : ν) (use : p'.InUse n) : p.InUse n := by
    rcases use with exists_n | ⟨j, o, there', owns⟩
    · rcases called.volumes n exists_n with old | own
      · exact .inl old
      · exact .inr ⟨i, op, there, own⟩
    · exact .inr ⟨j, o, called.ops j o there', owns⟩
  have tag (t : ν) (tag : p'.IsTag t) : p.IsTag t := by
    rcases tag with published | ⟨j, o, there', names⟩
    · by_cases tags : op.Tags t
      · exact .inr ⟨i, op, there, tags⟩
      · exact .inl (called.published t tags ▸ published)
    · exact .inr ⟨j, o, called.ops j o there', names⟩
  refine ⟨fun n used tagged => h.names n (use n used) (tag n tagged), fun t m published => ?_⟩
  by_cases tags : op.Tags t
  · rcases called.tagged t tags with ⟨same, objects⟩ | ⟨m', e, last, object⟩
    · rw [objects]
      exact h.resolves t m (same ▸ published)
    · cases last.symm.trans published
      exact ⟨e, object⟩
  · have before : p.published t = some m := called.published t tags ▸ published
    have unused : ¬op.Own t := fun own =>
      h.names t (.inr ⟨i, op, there, own⟩) (.inl (by simp [before]))
    rw [called.manifests t unused tags]
    exact h.resolves t m before

theorem Pool.Apart.begun {a : Act ν ι M} (h : p.Apart) (allowed : NamesApart p a)
    (begun : Begun p p' a) : p'.Apart := by
  refine ⟨fun n used tagged => ?_, fun t m published => ?_⟩
  · rcases begun.inUse n used with use | created | ⟨i, m, forked⟩
    · rcases begun.isTag n tagged with tag | ⟨i, k, tagging, other⟩
      · exact h.names n use tag
      · subst tagging
        exact (allowed.resolve_left other) use
    · subst created
      rcases begun.isTag n tagged with tag | ⟨_, _, tagging, _⟩
      · exact allowed tag
      · cases tagging
    · subst forked
      rcases begun.isTag n tagged with tag | ⟨_, _, tagging, _⟩
      · exact allowed tag
      · cases tagging
  · rw [begun.manifests]
    exact h.resolves t m (begun.published ▸ published)

theorem apart_step {a : Act ν ι M} (h : p.Apart) (allowed : NamesApart p a)
    (taken : step new etag p a = some p') : p'.Apart := by
  rcases step_cases taken with ⟨i, reply, op, rfl, there, called⟩ | begun
  · exact h.called there called
  · exact h.begun allowed begun

theorem Start.not_isTag (h : Start p) (n : ν) : ¬p.IsTag n := by
  rintro (published | ⟨i, op, there, -⟩)
  · simp [h.published n] at published
  · simp [h.ops i] at there

theorem Start.apart (h : Start p) : p.Apart where
  names n _ := h.not_isTag n
  resolves t m published := by simp [h.published t] at published

/-- In every state of a run a published tag resolves to what was last published under it, and a
    step on one volume leaves the manifest of every other volume as it is. -/
theorem volumes_and_tags_apart {q q' : Pool ν ι M E} (start : Start p)
    (run : Reach (step new etag) NamesApart p q) :
    (∀ t m, q.published t = some m → ∃ e, q.manifests t = some ⟨m, e⟩) ∧
    ∀ a, NamesApart q a → step new etag q a = some q' →
      ∀ n, (q.volumes n).isSome → a.subject q ≠ some n → q'.manifests n = q.manifests n := by
  have apart := run.invariant (I := Pool.Apart) start.apart fun _ _ _ => apart_step
  refine ⟨apart.resolves, fun a _ taken n exists_n other => ?_⟩
  rcases step_cases taken with ⟨i, reply, op, rfl, there, called⟩ | begun
  · have about : op.volume ≠ n := fun same => other (by simp [Act.subject, there, same])
    refine called.manifests n (fun own => ?_) fun tags => ?_
    · cases op with
      | tagging => exact own
      | forking => exact about own
      | syncing => exact about own
      | purging => exact about own
    · exact apart.names n (.inl exists_n) (.inr ⟨i, op, there, tags⟩)
  · rw [begun.manifests]

end Runs

/-- A pool without objects. -/
def emptyPool : Pool Nat Nat Nat Nat := ⟨fun _ => none, 0, fun _ => none, fun _ => none, fun _ => none⟩

theorem emptyPool_start : Start emptyPool := ⟨fun _ => rfl, fun _ => rfl⟩

/-- Manifests are numbers here, and an ETag counts the PUTs. -/
abbrev countedStep : Pool Nat Nat Nat Nat → Act Nat Nat Nat → Option (Pool Nat Nat Nat Nat) :=
  step 0 fun n _ => n

/-- Volume 1 is tagged under the name of volume 2, whose live manifest is replaced. -/
theorem tag_replaces_live_manifest : ∃ q q' : Pool Nat Nat Nat Nat,
    Reach countedStep anyStep emptyPool q ∧ countedStep q (.run 0 .ok) = some q' ∧
      (q.volumes 2).isSome ∧ (Act.run 0 .ok).subject q ≠ some 2 ∧
      (q.manifests 2).map Object.manifest = some 7 ∧ (q'.manifests 2).map Object.manifest = some 0 := by
  have run : exec countedStep emptyPool
      [.create 1, .create 2, .update 2 7, .sync 0 2, .run 0 .ok, .tag 0 1 2] = some _ := rfl
  exact ⟨_, _, reach_exec run, rfl, by decide, by decide, by decide, by decide⟩

/-- Volumes 1 and 2 and a tag of volume 1 under a third name. -/
theorem tag_of_third_name_resolves : ∃ q q' : Pool Nat Nat Nat Nat,
    Steps countedStep NamesApart emptyPool
      [.create 1, .create 2, .tag 0 1 3, .run 0 .ok, .sync 0 2] q ∧ (∃ e, q.manifests 3 = some ⟨0, e⟩) ∧ countedStep q (.run 0 .ok) = some q' ∧
      (q.volumes 1).isSome ∧ q'.manifests 1 = q.manifests 1 := by
  have idle {u : Pool Nat Nat Nat Nat} (published : ∀ t, u.published t = none)
      (ops : ∀ i, u.ops i = none) (n : Nat) : ¬u.IsTag n := Start.not_isTag ⟨published, ops⟩ n
  have unused {u : Pool Nat Nat Nat Nat} (volume : u.volumes 3 = none) (ops : ∀ i, u.ops i = none) :
      ¬u.InUse 3 := by
    rintro (here | ⟨i, op, there, -⟩)
    · simp [volume] at here
    · simp [ops i] at there
  have run : Steps countedStep NamesApart emptyPool
      [.create 1, .create 2, .tag 0 1 3, .run 0 .ok, .sync 0 2] _ :=
    ⟨idle (fun _ => rfl) (fun _ => rfl) 1, _, rfl, idle (fun _ => rfl) (fun _ => rfl) 2, _, rfl,
      .inr (unused rfl fun _ => rfl), _, rfl, trivial, _, rfl, trivial, _, rfl, rfl⟩
  obtain ⟨resolves, apart⟩ := volumes_and_tags_apart emptyPool_start (reach_steps run)
  exact ⟨_, _, run, resolves 3 0 rfl, rfl, rfl, apart (.run 0 .ok) trivial rfl 1 rfl (by decide)⟩

end GlideFS.Router.PoolNames
