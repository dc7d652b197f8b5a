import Mathlib.Data.Option.Basic

/-! # The manifest in S3 and its ETag

A flush appends the uploaded packs to the manifest in memory and puts it to S3 on the
condition that the object still has the ETag of the last put it knows of. A reply can
get lost: the put is applied and reported as an error. The object then has an ETag the
cache does not know, and no flush learns it.
-/

namespace GlideFS.WriteCache.ManifestSync

inductive Reply where
  | ok
  | failed
  | lost
deriving DecidableEq

/-- What the store does with one put: how it answers, the ETag it gives the object if it takes
    it, and whether the manifest can be read after a conflict. -/
structure Put (E : Type) where
  reply : Reply
  tag : Option E
  readable : Bool

inductive PutResult (E : Type) where
  | ok (tag : Option E)
  | preconditionFailed
  | failed

inductive FlushError where
  | s3
  | preconditionFailed
  | fenced
  | flushSkippedBlocks
deriving DecidableEq

/-- An export: its manifest in memory, the ETag it knows, the object in S3, the fencing token it
    holds and its fence latch. -/
structure Export (M E : Type) where
  memory : M
  etag : Option E
  object : Option (M × Option E)
  held : Nat
  fenced : Bool

namespace Export

variable {M E : Type} [DecidableEq E]

/-- `If-Match`: without an ETag the put is unconditional. -/
def accepts (s : Export M E) : Option E → Bool
  | none => true
  | some e => decide ((s.object.bind Prod.snd) = some e)

/-- `put_manifest`. -/
def putManifest (s : Export M E) (expected : Option E) (p : Put E) : Export M E × PutResult E :=
  if s.accepts expected then
    match p.reply with
    | .ok => ({ s with object := some (s.memory, p.tag) }, .ok p.tag)
    | .failed => (s, .failed)
    | .lost => ({ s with object := some (s.memory, p.tag) }, .failed)
  else
    match p.reply with
    | .ok => (s, .preconditionFailed)
    | .failed | .lost => (s, .failed)

variable (token : M → Nat)

/-- `fenced_by_newer_token`. -/
def fencedByNewerToken (s : Export M E) (p : Put E) : Bool :=
  s.held != 0 && p.readable && s.object.any fun o => s.held < token o.1

/-- What a conflict leads to. -/
def conflict (s : Export M E) (p : Put E) : Export M E × Except FlushError Unit :=
  if s.fencedByNewerToken token p then ({ s with fenced := true }, .error .fenced)
  else (s, .error .preconditionFailed)

/-- The retry loop of `flush_dirty_body`; the expected ETag is read once before it. -/
def syncLoop (expected : Option E) : Export M E → List (Put E) → Export M E × Except FlushError Unit
  | s, [] => (s, .error .s3)
  | s, p :: rest =>
      match s.putManifest expected p with
      | (t, .ok tag) => ({ t with etag := tag }, .ok ())
      | (t, .preconditionFailed) => t.conflict token p
      | (t, .failed) => syncLoop expected t rest

/-- One pass of `flush_dirty_inner`: whether it comes as far as the manifest, the manifest with
    its packs appended if it uploaded any, the three attempts to put it, and the blocks it skipped
    for their checksum. -/
structure Pass (M E : Type) where
  uploaded : Bool
  staged : Option M
  first : Put E
  second : Put E
  third : Put E
  crcMismatched : Nat
  crcRaced : Nat

def Pass.puts (pass : Pass M E) : List (Put E) := [pass.first, pass.second, pass.third]

def flushDirtyInner (s : Export M E) (pass : Pass M E) : Export M E × Except FlushError Unit :=
  if pass.uploaded then
    match pass.staged with
    | none => (s, .ok ())
    | some m => syncLoop token s.etag { s with memory := m } pass.puts
  else (s, .error .s3)

/-- `flush_until_no_skips` with `r` passes to go; the result is whether the last pass uploaded
    packs. -/
def flushUntilNoSkips (passes : Nat → Pass M E) : Nat → Nat → Export M E →
    Export M E × Except FlushError Bool
  | 0, _, s => (s, .error .flushSkippedBlocks)
  | r + 1, i, s =>
      match flushDirtyInner token s (passes i) with
      | (t, .error e) => (t, .error e)
      | (t, .ok ()) =>
          if (passes i).crcMismatched = 0 then (t, .ok (passes i).staged.isSome)
          else if 0 < (passes i).crcMismatched - (passes i).crcRaced then
            (t, .error .flushSkippedBlocks)
          else flushUntilNoSkips passes r (i + 1) t

def publishFlushPasses : Nat := 3

/-- The put of a flush whose last pass uploaded nothing. -/
def publish (s : Export M E) (p : Put E) : Export M E × Except FlushError Unit :=
  match s.putManifest s.etag p with
  | (t, .ok tag) => ({ t with etag := tag }, .ok ())
  | (t, .preconditionFailed) => t.conflict token p
  | (t, .failed) => (t, .error .s3)

def flushToS3 (s : Export M E) (passes : Nat → Pass M E) (p : Put E) :
    Export M E × Except FlushError Unit :=
  match flushUntilNoSkips token passes publishFlushPasses 0 s with
  | (t, .error e) => (t, .error e)
  | (t, .ok true) => (t, .ok ())
  | (t, .ok false) => t.publish token p

/-- A flush of the scheduler or one of the drain and publish paths. -/
inductive Call (M E : Type) where
  | flushPacks (pass : Pass M E)
  | flushToS3 (passes : Nat → Pass M E) (p : Put E)

def Call.run (s : Export M E) : Call M E → Export M E
  | .flushPacks pass => (flushDirtyInner token s pass).1
  | .flushToS3 passes p => (s.flushToS3 token passes p).1

/-- A put that the store takes and does not confirm is unconditional or leaves the object with
    the ETag that the cache knows. -/
def Answered (s : Export M E) (expected : Option E) (p : Put E) : Prop :=
  p.reply = .lost → s.accepts expected = true → expected = none ∨ p.tag = expected

def LoopAnswered (expected : Option E) : Export M E → List (Put E) → Prop
  | _, [] => True
  | s, p :: rest => s.Answered expected p ∧
      match s.putManifest expected p with
      | (t, .failed) => LoopAnswered expected t rest
      | _ => True

def PassAnswered (s : Export M E) (pass : Pass M E) : Prop :=
  ∀ m, pass.uploaded = true → pass.staged = some m →
    LoopAnswered s.etag { s with memory := m } pass.puts

def PassesAnswered (passes : Nat → Pass M E) : Nat → Nat → Export M E → Prop
  | 0, _, _ => True
  | r + 1, i, s => s.PassAnswered (passes i) ∧
      match flushDirtyInner token s (passes i) with
      | (t, .ok ()) =>
          (passes i).crcMismatched = 0 ∨ 0 < (passes i).crcMismatched - (passes i).crcRaced ∨
            PassesAnswered passes r (i + 1) t
      | _ => True

/-- Each put of the call that the store takes without confirming it is harmless. -/
def Call.Answered (s : Export M E) : Call M E → Prop
  | .flushPacks pass => s.PassAnswered pass
  | .flushToS3 passes p => PassesAnswered token passes publishFlushPasses 0 s ∧
      match flushUntilNoSkips token passes publishFlushPasses 0 s with
      | (t, .ok false) => t.Answered t.etag p
      | _ => True

/-- The export after some flushes. -/
def history (s : Export M E) (calls : List (Call M E)) : Export M E := calls.foldl (Call.run token) s

def HistoryAnswered : Export M E → List (Call M E) → Prop
  | _, [] => True
  | s, call :: rest => call.Answered token s ∧ HistoryAnswered (call.run token s) rest

/-- The next put meets its condition. -/
def InStep (s : Export M E) : Prop := s.accepts s.etag = true

/-- All calls to S3 are applied and reported as they are. -/
structure Pass.Truthful (pass : Pass M E) : Prop where
  uploaded : pass.uploaded = true
  first : pass.first.reply = .ok
  second : pass.second.reply = .ok
  third : pass.third.reply = .ok

/-- Within the given number of passes one skips no block, and the ones before it only blocks that
    a write raced. -/
def Settles (passes : Nat → Pass M E) : Nat → Nat → Prop
  | 0, _ => False
  | r + 1, i => (passes i).crcMismatched = 0 ∨
      (passes i).crcMismatched ≤ (passes i).crcRaced ∧ Settles passes r (i + 1)

section

variable (token : M → Nat) {s t : Export M E}

theorem inStep_of_eq (object : t.object = s.object) (etag : t.etag = s.etag) : t.InStep ↔ s.InStep := by
  have same : t.accepts t.etag = s.accepts s.etag := by
    rw [etag]
    cases s.etag with
    | none => rfl
    | some e => simp [accepts, object]
  rw [InStep, InStep, same]

theorem inStep_conflict (p : Put E) : (s.conflict token p).1.InStep ↔ s.InStep := by
  unfold conflict
  split
  · exact inStep_of_eq rfl rfl
  · exact Iff.rfl

/-- A put that the store takes and confirms leaves the export in step. -/
theorem inStep_confirmed (m : M) (tag : Option E) :
    ({ s with object := some (m, tag), etag := tag } : Export M E).InStep := by
  cases tag with
  | none => rfl
  | some e => simp [InStep, accepts]

/-- The loop leaves the export in step exactly if it was and no reply was lost to harm. -/
theorem inStep_syncLoop {expected : Option E} (puts : List (Put E)) (read : s.etag = expected) :
    (syncLoop token expected s puts).1.InStep ↔ s.InStep ∧ LoopAnswered expected s puts := by
  induction puts generalizing s with
  | nil => simp [syncLoop, LoopAnswered]
  | cons p rest ih =>
    have in_step : s.InStep ↔ s.accepts expected = true := by rw [InStep, read]
    cases accepted : s.accepts expected with
    | false =>
      have out : ¬s.InStep := by simp [in_step, accepted]
      cases reply : p.reply with
      | ok =>
        simp only [syncLoop, putManifest, accepted, reply, Bool.false_eq_true, if_false]
        rw [inStep_conflict _]
        exact ⟨fun h => absurd h out, fun h => h.1⟩
      | failed | lost =>
        simp only [syncLoop, putManifest, accepted, reply, Bool.false_eq_true, if_false]
        rw [ih read]
        exact ⟨fun h => absurd h.1 out, fun h => absurd h.1 out⟩
    | true =>
      have into : s.InStep := in_step.mpr accepted
      cases reply : p.reply with
      | ok =>
        simp only [syncLoop, putManifest, LoopAnswered, Answered, accepted, reply, if_true]
        simpa [into] using inStep_confirmed s.memory p.tag
      | failed =>
        simp only [syncLoop, putManifest, LoopAnswered, Answered, accepted, reply, if_true]
        simpa using ih read
      | lost =>
        simp only [syncLoop, putManifest, LoopAnswered, Answered, accepted, reply, if_true]
        rw [ih (s := { s with object := some (s.memory, p.tag) }) read, InStep]
        have harmless : ({ s with object := some (s.memory, p.tag) } : Export M E).accepts s.etag
            = true ↔ expected = none ∨ p.tag = expected := by
          rw [read]
          cases expected with
          | none => simp [accepts]
          | some e => simp [accepts]
        rw [harmless]
        simp [into]

theorem inStep_flushDirtyInner (pass : Pass M E) :
    (flushDirtyInner token s pass).1.InStep ↔ s.InStep ∧ s.PassAnswered pass := by
  cases uploaded : pass.uploaded with
  | false => simp [flushDirtyInner, PassAnswered, uploaded]
  | true =>
    cases staged : pass.staged with
    | none => simp [flushDirtyInner, PassAnswered, uploaded, staged]
    | some m =>
      have memory : ({ s with memory := m } : Export M E).InStep ↔ s.InStep := inStep_of_eq rfl rfl
      simp only [flushDirtyInner, uploaded, staged, if_true, PassAnswered]
      rw [inStep_syncLoop _ (s := { s with memory := m }) pass.puts rfl, memory]
      simp

theorem inStep_flushUntilNoSkips (passes : Nat → Pass M E) (r i : Nat) :
    (flushUntilNoSkips token passes r i s).1.InStep ↔
      s.InStep ∧ PassesAnswered token passes r i s := by
  induction r generalizing i s with
  | zero => simp [flushUntilNoSkips, PassesAnswered]
  | succ r ih =>
    have one := inStep_flushDirtyInner token (s := s) (passes i)
    simp only [flushUntilNoSkips, PassesAnswered]
    rw [← and_assoc, ← one]
    generalize flushDirtyInner token s (passes i) = after
    obtain ⟨t, result⟩ := after
    cases result with
    | error e => simp
    | ok _ =>
      dsimp only
      split
      · rename_i none_skipped
        simp [none_skipped]
      · rename_i skipped
        split
        · rename_i unexplained
          simp [unexplained]
        · rename_i explained
          rw [ih]
          simp [skipped, explained]

theorem inStep_publish (p : Put E) : (s.publish token p).1.InStep ↔ s.InStep ∧ s.Answered s.etag p := by
  have loop := inStep_syncLoop token (s := s) [p] rfl
  have same : (s.publish token p).1 = (syncLoop token s.etag s [p]).1 := by
    simp only [publish, syncLoop]
  rw [same, loop]
  simp only [LoopAnswered]
  constructor
  · rintro ⟨into, answered, -⟩
    exact ⟨into, answered⟩
  · rintro ⟨into, answered⟩
    refine ⟨into, answered, ?_⟩
    split <;> trivial

theorem inStep_run (call : Call M E) : (call.run token s).InStep ↔ s.InStep ∧ call.Answered token s := by
  cases call with
  | flushPacks pass => exact inStep_flushDirtyInner _ pass
  | flushToS3 passes p =>
    have flushed := inStep_flushUntilNoSkips token (s := s) passes publishFlushPasses 0
    simp only [Call.run, Call.Answered, flushToS3]
    rw [← and_assoc, ← flushed]
    generalize flushUntilNoSkips token passes publishFlushPasses 0 s = after
    obtain ⟨t, result⟩ := after
    cases result with
    | error e => simp
    | ok uploaded =>
      cases uploaded with
      | true => simp
      | false => exact inStep_publish _ p

/-- An export is in step after a history exactly if it was before and no reply was lost to harm:
    no later flush repairs what a lost reply has broken. -/
theorem inStep_history (calls : List (Call M E)) :
    (history token s calls).InStep ↔ s.InStep ∧ HistoryAnswered token s calls := by
  induction calls generalizing s with
  | nil => simp [history, HistoryAnswered]
  | cons call rest ih =>
    have later : history token s (call :: rest) = history token (call.run token s) rest := rfl
    rw [later, ih, inStep_run _, HistoryAnswered, and_assoc]

/-- S3 has the manifest that is in memory. -/
def Synced (s : Export M E) : Prop := s.object.map Prod.fst = some s.memory

/-- A truthful put from an export in step is confirmed, one from another is refused. -/
theorem publish_truthful {p : Put E} (ok : p.reply = .ok) :
    (s.publish token p).2 = .ok () ↔ s.InStep := by
  cases accepted : s.accepts s.etag with
  | true => simp [publish, putManifest, accepted, ok, InStep]
  | false =>
    simp only [publish, putManifest, accepted, ok, Bool.false_eq_true, if_false, InStep, iff_false]
    unfold conflict
    split <;> simp

theorem synced_publish {p : Put E} (confirmed : (s.publish token p).2 = .ok ()) :
    (s.publish token p).1.Synced := by
  unfold publish at confirmed ⊢
  unfold putManifest at confirmed ⊢
  cases accepted : s.accepts s.etag with
  | true =>
    cases reply : p.reply with
    | ok => simp [Synced]
    | failed | lost => simp [accepted, reply] at confirmed
  | false =>
    cases reply : p.reply with
    | ok =>
      simp only [accepted, reply, Bool.false_eq_true, if_false, conflict] at confirmed
      split at confirmed <;> cases confirmed
    | failed | lost => simp [accepted, reply] at confirmed

/-- A truthful pass that has a manifest to put is a publication of it. -/
theorem flushDirtyInner_truthful {pass : Pass M E} (truthful : pass.Truthful) :
    flushDirtyInner token s pass =
      match pass.staged with
      | none => (s, .ok ())
      | some m => ({ s with memory := m } : Export M E).publish token pass.first := by
  rw [flushDirtyInner, if_pos truthful.uploaded]
  cases staged : pass.staged with
  | none => rfl
  | some m =>
    cases accepted : ({ s with memory := m } : Export M E).accepts s.etag with
    | true => simp only [Pass.puts, publish, syncLoop, putManifest, truthful.first, accepted, if_true]
    | false =>
      simp only [Pass.puts, publish, syncLoop, putManifest, truthful.first, accepted,
        Bool.false_eq_true, if_false]

/-- Truthful passes come to an end without an error exactly from an export in step, or without
    anything to put. -/
theorem flushDirtyInner_ok {pass : Pass M E} (truthful : pass.Truthful) :
    (flushDirtyInner token s pass).2 = .ok () ↔ (s.InStep ∨ pass.staged = none) := by
  rw [flushDirtyInner_truthful _ truthful]
  cases pass.staged with
  | none => simp
  | some m =>
    rw [publish_truthful _ truthful.first]
    simpa using inStep_of_eq (s := s) (t := { s with memory := m }) rfl rfl

theorem passAnswered_truthful {pass : Pass M E} (truthful : pass.Truthful) : s.PassAnswered pass := by
  intro m _ _
  refine ⟨fun lost => ?_, ?_⟩
  · rw [truthful.first] at lost
    cases lost
  · cases accepted : ({ s with memory := m } : Export M E).accepts s.etag <;>
      simp [putManifest, accepted, truthful.first]

variable {passes : Nat → Pass M E}

theorem flushUntilNoSkips_truthful (truthful : ∀ i, (passes i).Truthful) (into : s.InStep)
    (r i : Nat) :
    ((∃ uploaded, (flushUntilNoSkips token passes r i s).2 = .ok uploaded) ↔ Settles passes r i) ∧
      ((flushUntilNoSkips token passes r i s).2 = .ok true →
        (flushUntilNoSkips token passes r i s).1.Synced) ∧
      (flushUntilNoSkips token passes r i s).1.InStep := by
  induction r generalizing i s with
  | zero => simpa [flushUntilNoSkips, Settles] using into
  | succ r ih =>
    have ok := (flushDirtyInner_ok token (truthful i)).mpr (.inl into)
    have kept := (inStep_flushDirtyInner token (passes i)).mpr
      ⟨into, passAnswered_truthful (truthful i)⟩
    have synced : (passes i).staged.isSome = true →
        (flushDirtyInner token s (passes i)).1.Synced := by
      intro some_staged
      obtain ⟨m, staged⟩ := Option.isSome_iff_exists.mp some_staged
      rw [flushDirtyInner_truthful _ (truthful i), staged] at ok ⊢
      exact synced_publish _ ok
    simp only [flushUntilNoSkips, Settles]
    revert ok kept synced
    generalize flushDirtyInner token s (passes i) = after
    obtain ⟨t, result⟩ := after
    rintro ⟨⟩ kept synced
    dsimp only
    split
    · rename_i none_skipped
      refine ⟨by simp [none_skipped], fun uploaded => ?_, kept⟩
      injection uploaded with uploaded
      exact synced uploaded
    · rename_i skipped
      split
      · rename_i unexplained
        have not_raced : ¬(passes i).crcMismatched ≤ (passes i).crcRaced := by omega
        simpa [skipped, not_raced] using kept
      · rename_i explained
        have raced : (passes i).crcMismatched ≤ (passes i).crcRaced := by omega
        simpa [skipped, raced] using ih kept (i + 1)

/-- Truthful passes that end with an upload begin in step. -/
theorem inStep_of_uploaded (truthful : ∀ i, (passes i).Truthful) {r i : Nat}
    (uploaded : (flushUntilNoSkips token passes r i s).2 = .ok true) : s.InStep := by
  induction r generalizing i s with
  | zero => cases uploaded
  | succ r ih =>
    have ok := flushDirtyInner_ok token (s := s) (truthful i)
    have kept := inStep_flushDirtyInner token (s := s) (passes i)
    simp only [flushUntilNoSkips] at uploaded
    revert ok kept uploaded
    generalize flushDirtyInner token s (passes i) = after
    obtain ⟨t, result⟩ := after
    cases result with
    | error e =>
      intro uploaded
      cases uploaded
    | ok _ =>
      dsimp only
      intro uploaded ok kept
      split at uploaded
      · injection uploaded with staged
        rcases ok.mp rfl with into | nothing
        · exact into
        · rw [nothing] at staged
          cases staged
      · split at uploaded
        · cases uploaded
        · exact (kept.mp (ih uploaded)).1

/-- A truthful flush succeeds exactly from an export in step and if its passes settle. -/
theorem flushToS3_truthful {p : Put E} (truthful : ∀ i, (passes i).Truthful) (ok : p.reply = .ok) :
    (∃ u, s.flushToS3 token passes p = (u, .ok ()) ∧ u.Synced) ↔
      s.InStep ∧ Settles passes publishFlushPasses 0 := by
  have kept := inStep_flushUntilNoSkips token (s := s) passes publishFlushPasses 0
  have begins := inStep_of_uploaded token (s := s) truthful (r := publishFlushPasses) (i := 0)
  have ends := fun into => flushUntilNoSkips_truthful token (s := s) truthful into
    publishFlushPasses 0
  rw [flushToS3]
  revert kept begins ends
  generalize flushUntilNoSkips token passes publishFlushPasses 0 s = after
  obtain ⟨t, result⟩ := after
  intro kept begins ends
  constructor
  · rintro ⟨u, flushed, -⟩
    cases result with
    | error e => cases flushed
    | ok uploaded =>
      have into : s.InStep := by
        cases uploaded with
        | true => exact begins rfl
        | false => exact (kept.mp ((publish_truthful _ ok).mp (congrArg Prod.snd flushed))).1
      exact ⟨into, (ends into).1.mp ⟨uploaded, rfl⟩⟩
  · rintro ⟨into, settles⟩
    obtain ⟨settled, synced, still⟩ := ends into
    obtain ⟨uploaded, rfl⟩ := settled.mpr settles
    cases uploaded with
    | true => exact ⟨t, rfl, synced rfl⟩
    | false =>
      have confirmed := (publish_truthful token ok).mpr still
      exact ⟨(t.publish token p).1, Prod.ext rfl confirmed, synced_publish _ confirmed⟩

end

/-- After any flushes of an export that only it writes, a flush whose calls to S3 all succeed
    returns without an error and leaves S3 with the manifest in memory, exactly if every put that
    was applied and not confirmed was unconditional or left the known ETag in place, and no block
    is skipped for good. -/
theorem later_flush_syncs_iff (token : M → Nat) (s : Export M E) (opened : s.InStep)
    (calls : List (Call M E)) (passes : Nat → Pass M E) (p : Put E)
    (truthful : ∀ i, (passes i).Truthful) (ok : p.reply = .ok) :
    (∃ u, (history token s calls).flushToS3 token passes p = (u, .ok ()) ∧ u.Synced) ↔
      HistoryAnswered token s calls ∧ Settles passes publishFlushPasses 0 := by
  rw [flushToS3_truthful _ truthful ok, inStep_history _]
  simp [opened]

end Export

section

open Export

/-- A pass with a manifest to put and no skipped blocks. -/
def stagedPass (m : Nat) (first : Put Nat) : Pass Nat Nat :=
  ⟨true, some m, first, ⟨.ok, some 3, true⟩, ⟨.ok, some 3, true⟩, 0, 0⟩

/-- An export with manifest 0 in S3 under ETag 1. -/
def openedExport : Export Nat Nat := ⟨0, some 1, some (0, some 1), 0, false⟩

/-- The reply to the put of manifest 1 gets lost; no flush after that succeeds. -/
theorem lost_reply_wedges :
    ¬∃ u, (history (fun _ => 0) openedExport
        [.flushPacks (stagedPass 1 ⟨.lost, some 2, true⟩)]).flushToS3 (fun _ => 0)
        (fun _ => stagedPass 1 ⟨.ok, some 3, true⟩) ⟨.ok, some 3, true⟩ = (u, .ok ()) ∧ u.Synced := by
  rintro ⟨u, flushed, -⟩
  have refused : (.error .preconditionFailed : Except FlushError Unit) = .ok () :=
    congrArg Prod.snd flushed
  cases refused

/-- A reply that gets lost before any ETag is known does no harm. -/
theorem unconditional_lost_reply_recovers :
    ∃ u, (history (fun _ => 0) (⟨0, none, none, 0, false⟩ : Export Nat Nat)
        [.flushPacks (stagedPass 1 ⟨.lost, some 2, true⟩)]).flushToS3 (fun _ => 0)
        (fun _ => stagedPass 3 ⟨.ok, some 4, true⟩) ⟨.ok, some 4, true⟩ = (u, .ok ()) ∧ u.Synced := by
  apply (later_flush_syncs_iff (fun _ => 0) ⟨0, none, none, 0, false⟩ rfl _
    (fun _ => stagedPass 3 ⟨.ok, some 4, true⟩) ⟨.ok, some 4, true⟩
    (fun _ => ⟨rfl, rfl, rfl, rfl⟩) rfl).mpr
  refine ⟨⟨?_, trivial⟩, .inl rfl⟩
  rintro m - -
  refine ⟨fun _ _ => .inl rfl, ?_, trivial⟩
  intro lost
  cases lost

end

end GlideFS.WriteCache.ManifestSync
