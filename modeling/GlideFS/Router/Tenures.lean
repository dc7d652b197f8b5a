import GlideFS.WriteCache.Restored
import GlideFS.WriteCache.KeptBytes
import GlideFS.WriteCache.Reopen

/-! # A volume name over several nodes

A tenure begins when a node is granted an attach, or creates or forks the volume, and
goes on over crashes of that node until the volume is removed there or another node is
granted an attach. A node keeps the files of its last tenure. They say neither whose
they are nor which manifest they go with, and `open` takes every block they record for
newer than S3.

The process of a node that was superseded may go on. It writes to its own files, so the
files of a node other than the last one may be anything. And its manifest is not always
refused: an attach with an equal token, or without one, stores nothing, and a PUT without an
ETag is unconditional.
-/

namespace GlideFS.Router.Tenures

open Block Lib WriteCache Cache

variable {Hash PackId Node : Type} [DecidableEq Hash] [DecidableEq PackId] [DecidableEq Node]
  {g : Geometry} {C : Codec (BlockData g.blockSize) Hash PackId}

structure World (Node : Type) (g : Geometry) (C : Codec (BlockData g.blockSize) Hash PackId) where
  files : Node → Disk g.blockSize
  store : PackStore C
  /-- The manifest object of the name, while no process has the volume. -/
  manifest : Option (VolumeManifest PackId)
  running : Option (Node × Cache g C)
  /-- The node of the current tenure, or of the last one. -/
  holder : Option Node
  /-- What the guest of that tenure is to read. -/
  expected : Nat → BlockData g.blockSize
  /-- Whether the last process left its blocks where `open` looks for them. -/
  placed : Prop

inductive Act (Node : Type) (g : Geometry) (C : Codec (BlockData g.blockSize) Hash PackId) where
  /-- `create_export` on its normal path, with a token that is granted. -/
  | attach (n : Node)
  /-- `create_export` from the manifest of another volume, in the pool of that volume. -/
  | fork (n : Node) (source : Volume C)
  | host (a : HostAct)
  /-- The process crashes and the node opens the volume again. -/
  | restart
  /-- The process crashes and is not started again. -/
  | crash
  /-- `remove_export` without purge. How much of the drain was done is in the steps before;
      `saved` tells whether the last save of the metadata is done. -/
  | remove (saved : Bool)
  | purge (n : Node)
  /-- A superseded process writes to its files. -/
  | linger (n : Node) (d : Disk g.blockSize)
  /-- A superseded process uploads packs and its manifest is stored. -/
  | stalePut (packs : List (ChunkPlan C)) (m : VolumeManifest PackId)

namespace World

def bytes (store : PackStore C) (m : VolumeManifest PackId) (b : Nat) : BlockData g.blockSize :=
  (resolveBlock g store m b).getD 0

/-- The running process is gone, and left its cache so. -/
def leave (w : World Node g C) (last : Cache g C → Cache g C) : World Node g C :=
  match w.running with
  | none => w
  | some (n, c) => { w with
      files := Function.update w.files n (last c).crash
      store := c.store
      manifest := some c.durable
      running := none
      placed := (last c).Placed ∧ (last c).Unspoiled }

/-- The manifest an attach starts from. A name without one is a blank volume. -/
def loaded (w : World Node g C) : VolumeManifest PackId := w.manifest.getD .new

/-- The normal path of `create_export`. A node that had the last tenure may find its own writes;
    what it is to read otherwise is what S3 resolves. -/
def attach (w : World Node g C) (n : Node) : World Node g C :=
  let c : Cache g C := openCache (w.files n) w.store w.loaded
  { w with
    running := some (n, c)
    holder := some n
    expected := fun b =>
      if w.holder = some n ∧ c.acked b = w.expected b then w.expected b
      else bytes w.store w.loaded b }

end World

open World

def step (w : World Node g C) : Act Node g C → Option (World Node g C)
  | .attach n =>
      if (w.running.map Prod.fst) = some n then none else some ((w.leave (·.ended false)).attach n)
  | .fork n source =>
      if w.running.isNone ∧ w.manifest.isNone then
        some { w with
          store := source.store
          manifest := some source.manifest
          running := some (n, openFresh (w.files n) source.store source.manifest)
          holder := some n
          expected := bytes source.store source.manifest }
      else none
  | .host a => w.running.bind fun (n, c) => (a.step c).map fun c' =>
      { w with running := some (n, c'), expected := a.effect g w.expected }
  | .restart => w.running.map fun (n, c) => { w with running := some (n, c.reopened) }
  | .crash => if w.running.isSome then some (w.leave (·.ended false)) else none
  | .remove saved => if w.running.isSome then some (w.leave (·.ended saved)) else none
  | .purge n =>
      if (w.running.map Prod.fst).all (· = n) then
        some { w with
          files := Function.update w.files n .new
          manifest := none
          running := none
          holder := none }
      else none
  | .linger n d =>
      if w.holder = some n then none else some { w with files := Function.update w.files n d }
  | .stalePut packs m =>
      match w.running with
      | none => some { w with store := uploadPacks w.store packs, manifest := some m }
      | some (n, c) => some { w with
          running := some (n, { c with store := uploadPacks c.store packs, durable := m }) }

/-! ## Runs -/

/-- The pool and the manifest object as they are now. -/
def World.remote (w : World Node g C) : PackStore C × VolumeManifest PackId :=
  match w.running with
  | none => (w.store, w.loaded)
  | some (_, c) => (c.store, c.durable)

/-- The steps of the runs considered: an attach finds no block recorded in the node's files, or
    the node had the last tenure and its process left its blocks placed; writes take numbers the
    files do not have and find the rest of their blocks; a crash can be recovered from; and the
    PUT of a superseded process does not change what S3 resolves. -/
def Act.Careful (w : World Node g C) : Act Node g C → Prop
  | .attach n => (w.running = none ∧ w.holder = some n ∧ w.placed) ∨
      ∀ b, g.InRange b → ¬(w.files n).Records b
  | .host a => ∀ n c, w.running = some (n, c) → a.Tracked c ∧ a.Filled c
  | .restart => ∀ n c, w.running = some (n, c) → c.Placed ∧ c.Unspoiled
  | .stalePut packs m => Backed (uploadPacks w.remote.1 packs) m ∧
      ∀ b, resolveBlock g (uploadPacks w.remote.1 packs) m b =
        resolveBlock g w.remote.1 w.remote.2 b
  | _ => True

structure Inv (w : World Node g C) : Prop where
  stored : Backed w.store w.loaded
  tenure : ∀ n c, w.running = some (n, c) → TenureInv c
  reads : ∀ n c, w.running = some (n, c) → ∀ b, g.InRange b → c.acked b = w.expected b
  left : w.running = none → w.placed → ∀ n, w.holder = some n → ∀ b, g.InRange b →
    (openCache (w.files n) w.store w.loaded : Cache g C).acked b = w.expected b
  holds : ∀ n c, w.running = some (n, c) → w.holder = some n

variable {w w' : World Node g C}

theorem Inv.idle (idle : w.running = none) (stored : Backed w.store w.loaded)
    (left : w.placed → ∀ n, w.holder = some n → ∀ b, g.InRange b →
      (openCache (w.files n) w.store w.loaded : Cache g C).acked b = w.expected b) : Inv w where
  stored
  tenure n c at_run := by rw [idle] at at_run; cases at_run
  reads n c at_run := by rw [idle] at at_run; cases at_run
  left _ := left
  holds n c at_run := by rw [idle] at at_run; cases at_run

theorem Inv.busy {n : Node} {c : Cache g C} (at_run : w.running = some (n, c))
    (holder : w.holder = some n) (stored : Backed w.store w.loaded) (tenure : TenureInv c)
    (reads : ∀ b, g.InRange b → c.acked b = w.expected b) : Inv w where
  stored
  tenure n' c' found := by cases at_run.symm.trans found; exact tenure
  reads n' c' found := by cases at_run.symm.trans found; exact reads
  left idle := by rw [at_run] at idle; cases idle
  holds n' c' found := by cases at_run.symm.trans found; exact holder

theorem Inv.leave (h : Inv w) (saved : Bool) :
    Inv (w.leave (·.ended saved)) ∧ (w.leave (·.ended saved)).running = none := by
  unfold World.leave
  cases at_run : w.running with
  | none => exact ⟨h, at_run⟩
  | some pair =>
    obtain ⟨n, c⟩ := pair
    have tenure := (h.tenure n c at_run).ended saved
    refine ⟨.idle rfl tenure.remote.durable fun placed n' holder b range => ?_, rfl⟩
    cases (h.holds n c at_run).symm.trans holder
    rw [← h.reads n c at_run b range]
    dsimp only [World.loaded]
    rw [Function.update_self]
    exact tenure.restores_iff.mpr placed b range

/-- A block the files do not record reads as S3 resolves it. -/
theorem unrecorded_reads {d : Disk g.blockSize} {store : PackStore C} {m : VolumeManifest PackId}
    {b : Nat} (range : g.InRange b) (none : ¬d.Records b) :
    (openCache d store m : Cache g C).acked b = bytes store m b :=
  if_neg fun dirty => none ((d.openStates_dirty_iff range).mp dirty)

theorem Inv.attach (h : Inv w) (idle : w.running = none) {n : Node}
    (careful : (w.holder = some n ∧ w.placed) ∨ ∀ b, g.InRange b → ¬(w.files n).Records b) :
    Inv (w.attach n) := by
  refine .busy rfl rfl h.stored
    (.ofCrashInv (openCache_crashInv (w.files n) ⟨w.store, w.loaded, h.stored⟩)) fun b range => ?_
  change _ = if _ then _ else _
  split
  · rename_i own
    exact own.2
  · rename_i other
    rcases careful with ⟨holder, placed⟩ | unrecorded
    · exact absurd ⟨holder, h.left idle placed n holder b range⟩ other
    · exact unrecorded_reads range (unrecorded b range)

theorem stalePut_inv (h : Inv w) {packs : List (ChunkPlan C)} {m : VolumeManifest PackId}
    (careful : (Act.stalePut packs m).Careful w) (taken : step w (.stalePut packs m) = some w') :
    Inv w' := by
  obtain ⟨backed, same⟩ := careful
  unfold World.remote at backed same
  unfold step at taken
  cases at_run : w.running with
  | none =>
    rw [at_run] at taken backed same
    cases taken
    refine .idle rfl backed fun placed n holder b range => ?_
    rw [← h.left at_run placed n holder b range]
    exact congrArg (fun found => if _ = SparseBlockState.dirty then _ else Option.getD found 0)
      (same b)
  | some pair =>
    obtain ⟨n, c⟩ := pair
    rw [at_run] at taken backed same
    cases taken
    exact .busy rfl (h.holds n c at_run) h.stored
      ((h.tenure n c at_run).foreignPut (uploadPacks_uploaded c.store packs).keeps backed same)
      (h.reads n c at_run)

theorem step_inv (h : Inv w) {a : Act Node g C} (careful : a.Careful w)
    (taken : step w a = some w') : Inv w' := by
  cases a with
  | attach n =>
    obtain ⟨other, ⟨⟩⟩ := Option.ite_none_left_eq_some.mp taken
    obtain ⟨inv, idle⟩ := h.leave false
    refine inv.attach idle ?_
    unfold World.leave
    cases at_run : w.running with
    | none => exact careful.imp_left And.right
    | some pair =>
      have apart : n ≠ pair.1 := by
        rintro rfl
        exact other (by rw [at_run]; rfl)
      refine .inr fun b range => ?_
      dsimp only
      rw [Function.update_of_ne apart]
      exact (careful.resolve_left fun idle => by rw [at_run] at idle; cases idle.1) b range
  | fork n source =>
    obtain ⟨-, ⟨⟩⟩ := Option.ite_none_right_eq_some.mp taken
    exact .busy rfl rfl source.backed (.openFresh (w.files n) source) fun _ _ => rfl
  | host a =>
    obtain ⟨⟨n, c⟩, at_run, rest⟩ := Option.bind_eq_some_iff.mp taken
    obtain ⟨c', done, rfl⟩ := Option.map_eq_some_iff.mp rest
    obtain ⟨tracked, filled⟩ := careful n c at_run
    have tenure := h.tenure n c at_run
    refine .busy rfl (h.holds n c at_run) h.stored (host_tenureInv tenure tracked done)
      fun b range => ?_
    rw [host_acked tenure.data range filled done]
    exact congrArg (a.patch g b) (h.reads n c at_run b range)
  | restart =>
    obtain ⟨⟨n, c⟩, at_run, rfl⟩ := Option.map_eq_some_iff.mp taken
    have tenure := h.tenure n c at_run
    refine .busy rfl (h.holds n c at_run) h.stored
      (.ofCrashInv (openCache_crashInv c.crash ⟨c.store, c.durable, tenure.remote.durable⟩))
      fun b range => ?_
    rw [← h.reads n c at_run b range]
    exact tenure.restores_iff.mpr (careful n c at_run) b range
  | crash =>
    obtain ⟨-, ⟨⟩⟩ := Option.ite_none_right_eq_some.mp taken
    exact (h.leave false).1
  | remove saved =>
    obtain ⟨-, ⟨⟩⟩ := Option.ite_none_right_eq_some.mp taken
    exact (h.leave saved).1
  | purge n =>
    obtain ⟨-, ⟨⟩⟩ := Option.ite_none_right_eq_some.mp taken
    exact .idle rfl (fun _ _ listed => absurd listed List.not_mem_nil) fun _ _ holder => nomatch holder
  | linger n d =>
    obtain ⟨other, ⟨⟩⟩ := Option.ite_none_left_eq_some.mp taken
    refine ⟨h.stored, h.tenure, h.reads, fun idle placed n' holder => ?_, h.holds⟩
    have apart : n' ≠ n := fun same => other (same ▸ holder)
    dsimp only [World.loaded]
    rw [Function.update_of_ne apart]
    exact h.left idle placed n' holder
  | stalePut packs m => exact stalePut_inv h careful taken

/-- A name that no volume has, with whatever is left in the pool and on the nodes. -/
def World.vacant (files : Node → Disk g.blockSize) (store : PackStore C) : World Node g C where
  files
  store
  manifest := none
  running := none
  holder := none
  expected _ := 0
  placed := False

theorem vacant_inv (files : Node → Disk g.blockSize) (store : PackStore C) :
    Inv (World.vacant files store) :=
  .idle rfl (fun _ _ listed => absurd listed List.not_mem_nil) False.elim

/-- In every history of careful steps the guest of the current tenure reads what it last wrote
    in it, and else what S3 resolved when the tenure began, or its node's own earlier writes. -/
theorem tenure_reads_expected (files : Node → Disk g.blockSize) (store : PackStore C)
    (w : World Node g C) (run : Reach step Act.Careful (World.vacant files store) w) (n : Node)
    (c : Cache g C) (at_run : w.running = some (n, c)) (b : Nat) (range : g.InRange b) :
    c.acked b = w.expected b := by
  have inv : Inv w := run.invariant (vacant_inv files store)
    fun _ _ _ held careful taken => step_inv held careful taken
  exact inv.reads n c at_run b range

/-- Two nodes with empty directories, and an empty pool. -/
def twoNodes : World Bool oneBlockDevice (.plain 16) := .vacant (fun _ => .new) .empty

private theorem created_and_restarted :
    (exec step twoNodes [.attach true, .host (.write 0 [1])]).bind (fun w =>
      (step w .restart).map fun w' =>
        ((w.running.map fun (_, c) =>
            (c.flushingPath.isSome, decide (c.acked 0 = c.content c.durable 0))),
          w'.running.map fun (n, c) => (n, (c.acked 0).get 0))) =
      some (some (false, false), some (true, 1)) := by
  decide +kernel

/-- A node creates the volume, writes to it and crashes: it reads its write again. -/
theorem restarted_reads_write :
    ∃ (w : World Bool oneBlockDevice (.plain 16)) (c : Cache oneBlockDevice (.plain 16)),
      Steps step Act.Careful twoNodes [.attach true, .host (.write 0 [1]), .restart] w ∧
        w.running = some (true, c) ∧ c.acked 0 = w.expected 0 ∧ (c.acked 0).get 0 = 1 := by
  obtain ⟨w, run, rest⟩ := Option.bind_eq_some_iff.mp created_and_restarted
  obtain ⟨w', restarted, facts⟩ := Option.map_eq_some_iff.mp rest
  obtain ⟨before, after⟩ := Prod.mk.inj facts
  obtain ⟨⟨n, c⟩, at_run, result⟩ := Option.map_eq_some_iff.mp after
  obtain ⟨node, byte⟩ := Prod.mk.inj result
  obtain ⟨u, attached, rest⟩ := Option.bind_eq_some_iff.mp run
  obtain ⟨v, written, ⟨⟩⟩ := Option.bind_eq_some_iff.mp rest
  have opens : Act.Careful twoNodes (.attach true) := by
    refine .inr fun b range => ?_
    rintro (saved | ⟨e, listed, -⟩)
    · cases saved
    · cases listed
  have writes : Act.Careful u (.host (.write 0 [1])) := by
    have same : step twoNodes (.attach true) =
        some ((twoNodes.leave (·.ended false)).attach true) := rfl
    cases same.symm.trans attached
    intro n c found
    cases found
    exact ⟨⟨HostAct.write_recoverable (by decide), fun _ => ⟨le_rfl, nofun⟩⟩,
      HostAct.write_filled _ _ _⟩
  have restarts : Act.Careful w .restart := by
    intro n' c' found
    rw [found] at before
    simp only [Option.map_some, Option.some.injEq, Prod.mk.injEq, decide_eq_false_iff_not] at before
    refine ⟨fun b _ _ f path => ?_, fun b range saved => ?_⟩
    · rw [path] at before
      cases before.1
    · have only : b = 0 := by
        unfold Geometry.InRange oneBlockDevice at range
        dsimp only at range
        omega
      exact absurd (only ▸ saved) before.2
  have run : Steps step Act.Careful twoNodes [.attach true, .host (.write 0 [1]), .restart] w' :=
    ⟨opens, u, attached, writes, w, written, restarts, w', restarted, rfl⟩
  exact ⟨w', c, run, at_run.trans (congrArg (fun n => some (n, c)) node),
    tenure_reads_expected _ _ w' (reach_steps run) n c at_run 0 (by decide), byte⟩

private theorem stale_attach :
    (exec step twoNodes [.attach true, .host (.write 0 [1]), .crash, .attach false, .crash,
      .attach true]).bind (fun w => w.running.map fun (n, c) =>
        (n, decide (c.acked 0 = w.expected 0), decide (w.expected 0 = 0))) =
      some (true, false, true) := by
  decide +kernel

/-- Node A writes and crashes, node B attaches and crashes in turn, and A attaches again. A reads
    its old write, though S3 resolves zeros and B had the volume in between. -/
theorem stale_files_override :
    ∃ (w : World Bool oneBlockDevice (.plain 16)) (c : Cache oneBlockDevice (.plain 16)),
      Reach step anyStep twoNodes w ∧ w.running = some (true, c) ∧ w.expected 0 = 0 ∧
        c.acked 0 ≠ w.expected 0 := by
  obtain ⟨w, run, rest⟩ := Option.bind_eq_some_iff.mp stale_attach
  obtain ⟨⟨n, c⟩, at_run, facts⟩ := Option.map_eq_some_iff.mp rest
  simp only [Prod.mk.injEq, decide_eq_false_iff_not, decide_eq_true_eq] at facts
  obtain ⟨rfl, differs, zero⟩ := facts
  exact ⟨w, c, reach_exec run, at_run, zero, differs⟩

end GlideFS.Router.Tenures
