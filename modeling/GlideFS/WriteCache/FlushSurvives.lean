import GlideFS.WriteCache.KeptBytes

/-! # Flushed bytes survive a power loss

`BlockHandler::flush` is the sync of the active file and then of the log; a write with
FUA through `BlockHandler::write` ends with it. Other steps may come in between. What
a kept byte needs in addition is that `open` takes its block from the right file.
-/

namespace GlideFS.WriteCache

open Block Lib Cache

variable {Hash PackId : Type} [DecidableEq Hash] [DecidableEq PackId] {g : Geometry}
  {C : Codec (BlockData g.blockSize) Hash PackId} {s t : Cache g C} {b i : Nat} {v : UInt8}

namespace Cache

/-- A byte that is in the flushing file when the active file is synced is synced there. -/
def FlushingSynced (s : Cache g C) (b i : Nat) : Prop :=
  s.states b = .syncing → ∀ f, s.flushingPath = some f → f.Stable b i

/-- With a flushing file on disk, `open` finds the byte: in the active file for a DIRTY block
    that passes for written after the rotation, in the flushing file for a SYNCING one that
    does not, or in the file it prefers all the same. -/
def PlacedByte (s : Cache g C) (b i : Nat) (v : UInt8) : Prop :=
  ∀ f, s.flushingPath = some f →
    (s.states b = .dirty → s.synced.PostRotated b ∨ f.Shows b i v) ∧
      (s.states b = .syncing → ¬s.PostRotated b ∨ s.active.Shows b i v)

/-- The cache with the files of a disk. -/
def withDisk (s : Cache g C) (d : Disk g.blockSize) : Cache g C :=
  { s with active := d.active, activeName := .active, flushingPath := d.flushing, wal := d.wal,
           metadata := d.metadata }

theorem PostRotated.frame (h : s.PostRotated b) (wal : ∀ e ∈ s.wal, e ∈ t.wal)
    (metadata : t.metadata = s.metadata) : t.PostRotated b := by
  have same : t.loaded = s.loaded := congrArg loadMetadata metadata
  unfold PostRotated at h ⊢
  rw [same]
  refine h.imp_left fun logged => ?_
  obtain ⟨e, listed, at_b, above⟩ := logged
  exact ⟨e, wal e listed, at_b, above⟩

end Cache

/-! ## The two syncs -/

theorem CrashInv.syncActive_kept (inv : CrashInv s) (range : g.InRange b)
    (flushing : s.FlushingSynced b i) :
    s.syncActive.Kept False b i ((s.acked b).get i) := by
  refine ⟨rfl, ?_⟩
  by_cases present : s.Present b
  · refine Or.inr ⟨⟨present, DataFile.syncAll_shows _ _ _, fun syncing f found => ?_⟩,
      fun off => off.elim⟩
    rw [← (inv.data.onDisk inv.running.remaining range syncing).1 f found]
    exact flushing syncing f found
  · refine Or.inl ⟨?_, ?_, fun r at_r => ?_⟩
    · exact congrArg (BlockData.get · i) (inv.data.content range present)
    · exact congrArg (BlockData.get · i) (inv.inS3 b range present)
    · have stage := inv.data.stage r at_r
      have unclaimed : ∀ bs, s.Claims bs → b ∉ bs := by
        intro bs claims mem
        unfold Present at present
        rcases (claims b mem).2 with dirty | syncing
        · rw [dirty] at present; exact present rfl
        · rw [syncing] at present; exact present rfl
      cases at_stage : r.stage with
      | rotated claim | uploading claim | putting claim | evicting claim =>
        rw [at_stage] at stage
        exact fun mem => absurd mem (unclaimed _ stage.2.1)
      | _ => trivial

theorem Kept.syncWal (inv : CrashInv s) (range : g.InRange b) (h : s.Kept False b i v) :
    s.syncWal.Kept True b i v := by
  refine ⟨h.acked, h.place.imp (fun anchored => anchored.quiet rfl anchored.stage) ?_⟩
  intro steady
  exact ⟨⟨steady.1.present, steady.1.active, steady.1.flushing⟩,
    fun _ => inv.record.log.syncWal range steady.1.present⟩

/-! ## Opening the files of a power loss -/

open Classical in
variable {d : Disk g.blockSize}

/-- The file `open` takes the block from has the byte. -/
theorem Kept.reopened_byte (inv : CrashInv t) (range : g.InRange b) (acked : (t.acked b).get i = v)
    (steady : t.Steady b i v) (placed : t.PlacedByte b i v) (loss : t.PowerLoss d)
    (recorded : (t.withDisk d).Recorded b) (more : ∀ e ∈ t.synced.wal, e ∈ d.wal)
    (fewer : ∀ e ∈ d.wal, e ∈ t.wal) : ((t.withDisk d).reopened.active.cur b).get i = v := by
  have cur := reopened_cur (s := t.withDisk d) ⟨rfl, inv.running.remaining⟩ range recorded
  have active := loss.active
  have flushing := loss.flushing
  have named : t.crash.active = t.active := if_pos inv.running.named
  have path := inv.running.crash_flushing
  rw [named] at active
  rw [path] at flushing
  have inActive : (t.active.cur b).get i = v → (d.active.cur b).get i = v :=
    fun same => (same ▸ steady.active : t.active.Shows b i v).survives active
  have ok := inv.data.blocks b range
  have present := steady.present
  unfold BlockOk at ok
  unfold Present at present
  have left : (t.withDisk d).flushingPath = d.flushing := rfl
  rw [cur, left]
  cases at_path : t.flushingPath with
  | none =>
    rw [at_path] at flushing
    cases at_d : d.flushing with
    | some f => rw [at_d] at flushing; cases flushing
    | none =>
      refine inActive ?_
      cases at_b : t.states b with
      | clean | notPresent => rw [at_b] at present; cases present
      | dirty =>
        rw [at_b] at ok
        rw [ok, acked]
      | syncing =>
        rw [(inv.data.onDisk inv.running.remaining range at_b).2 at_path, acked]
  | some f =>
    rw [at_path] at flushing
    obtain ⟨whenDirty, whenSyncing⟩ := placed f at_path
    cases at_d : d.flushing with
    | none => rw [at_d] at flushing; cases flushing
    | some f' =>
      rw [at_d] at flushing
      obtain ⟨left⟩ := flushing
      dsimp only
      cases at_b : t.states b with
      | clean | notPresent => rw [at_b] at present; cases present
      | dirty =>
        rw [at_b] at ok
        split
        · exact inActive (by rw [ok, acked])
        · rename_i pre
          refine DataFile.Shows.survives ((whenDirty at_b).resolve_left fun post => pre ?_) left
          exact post.frame more loss.metadata
      | syncing =>
        split
        · rename_i post
          refine DataFile.Shows.survives ((whenSyncing at_b).resolve_left fun pre => pre ?_) active
          exact post.frame fewer loss.metadata.symm
        · exact (steady.flushing at_b f at_path).survives left

theorem Kept.survives (inv : CrashInv t) (range : g.InRange b) (h : t.Kept True b i v)
    (placed : t.PlacedByte b i v) (loss : t.PowerLoss d) : t.Survived d b i v := by
  cases h.place with
  | inl anchored => exact Or.inr anchored.durable
  | inr steady =>
    obtain ⟨others, sublist, wal⟩ := loss.wal
    have more : ∀ e ∈ t.synced.wal, e ∈ d.wal := by
      intro e mem
      rw [wal]
      exact List.mem_append_left _ mem
    have fewer : ∀ e ∈ d.wal, e ∈ t.wal := by
      intro e mem
      rw [wal] at mem
      rcases List.mem_append.mp mem with first | other
      · exact List.mem_of_mem_take first
      · exact List.mem_of_mem_drop (sublist.subset other)
    have recorded : (t.withDisk d).Recorded b := by
      have same : (t.withDisk d).loaded = t.loaded := congrArg loadMetadata loss.metadata
      have before : t.synced.Covered t.loaded.states (walMinSeq t.loaded) b :=
        (steady.2 trivial).recorded
      unfold Recorded
      rw [same]
      exact before.frame more
    exact Or.inl ⟨(openStates_dirty (s := t.withDisk d) range).mpr recorded,
      Kept.reopened_byte inv range h.acked steady.1 placed loss recorded more fewer⟩

/-! ## Acknowledged flushes -/

theorem untouched_acked (inv : HostInv s) (range : g.InRange b) {a : HostAct}
    (untouched : a.Untouched b i s) (taken : a.step s = some t) :
    (t.acked b).get i = (s.acked b).get i := by
  rw [host_acked inv.crash.data range untouched.2.1 taken]
  exact a.patch_outside untouched.2.2 _

/-- From the state whose bytes count to the acknowledgement: a flush, which a write with FUA
    through `BlockHandler::write` ends with, or a zero-copy write with FUA, for which
    `after_write` syncs nothing. -/
inductive Promised (b i : Nat) (s : Cache g C) : Cache g C → Prop
  | flush {a c : Cache g C} (before : Reach HostAct.step (HostAct.Untouched b i) s a)
      (between : Reach HostAct.step (HostAct.Untouched b i) a.syncActive c) :
      Promised b i s c.syncWal
  | zeroCopyFua : Promised b i s s

/-- A flush that begins when the byte has left the flushing file, or is synced there, and during
    which the block is not copied back. -/
inductive SyncedPromise (b i : Nat) (s : Cache g C) : Cache g C → Prop
  | flush {a c : Cache g C} (before : Reach HostAct.step (HostAct.Untouched b i) s a)
      (synced : a.FlushingSynced b i)
      (between : Reach HostAct.step (HostAct.Keeps b i) a.syncActive c) :
      SyncedPromise b i s c.syncWal

theorem reach_kept {logged : Prop} (range : g.InRange b) (inv : HostInv s)
    (h : s.Kept logged b i v) (run : Reach HostAct.step (HostAct.Keeps b i) s t) :
    HostInv t ∧ t.Kept logged b i v :=
  run.invariant (I := fun u => HostInv u ∧ u.Kept logged b i v) ⟨inv, h⟩
    fun _ _ _ held keeps taken =>
      ⟨host_inv held.1 keeps.1.1 taken, host_kept held.1 range held.2 keeps taken⟩

theorem SyncedPromise.kept (range : g.InRange b) (inv : HostInv s) (h : SyncedPromise b i s t) :
    HostInv t ∧ t.Kept True b i ((s.acked b).get i) := by
  obtain ⟨before, synced, between⟩ := h
  obtain ⟨inv, acked⟩ := before.invariant
    (I := fun u => HostInv u ∧ (u.acked b).get i = (s.acked b).get i) ⟨inv, rfl⟩
    fun _ _ _ held untouched taken => ⟨host_inv held.1 untouched.1 taken,
      (untouched_acked held.1 range untouched taken).trans held.2⟩
  have active := inv.crash.syncActive_kept range synced
  obtain ⟨inv, kept⟩ := reach_kept range (host_inv (a := .syncActive) inv nofun rfl) active between
  exact ⟨host_inv (a := .syncWal) inv nofun rfl, acked ▸ Kept.syncWal inv.crash range kept⟩

/-- A byte acknowledged before a flush began, and not overwritten since, survives a power loss. -/
theorem flush_survives (d₀ : Disk g.blockSize) (vol : Volume C) {s p t : Cache g C} (b i : Nat)
    (range : g.InRange b)
    (run : Reach HostAct.step HostAct.Recoverable (openCache d₀ vol.store vol.manifest) s)
    (promise : SyncedPromise b i s p) (after : Reach HostAct.step (HostAct.Keeps b i) p t)
    (placed : t.PlacedByte b i ((s.acked b).get i)) (loss : t.PowerLoss d) :
    t.Survived d b i ((s.acked b).get i) := by
  have inv : HostInv s := run.invariant (openCache_hostInv d₀ vol)
    fun _ _ _ held ok taken => host_inv held ok taken
  obtain ⟨inv, kept⟩ := promise.kept range inv
  obtain ⟨inv, kept⟩ := reach_kept range inv kept after
  exact Kept.survives inv.crash range kept placed loss

/-- The block as it was when the file was last synced. -/
def DataFile.lose {n : Nat} (f : DataFile n) (b : Nat) : DataFile n where
  cur := Function.update f.cur b ((f.unsynced b).getLastD (f.cur b))
  unsynced _ := []

theorem lose_survives {n : Nat} (f : DataFile n) (b : Nat) : f.Survives (f.lose b) := by
  intro b' i
  by_cases here : b' = b
  · subst here
    refine ⟨(f.unsynced b').getLastD (f.cur b'), List.getLastD_mem_cons, ?_⟩
    exact congrArg (BlockData.get · i) (Function.update_self _ _ _)
  · refine ⟨f.cur b', List.mem_cons_self, ?_⟩
    exact congrArg (BlockData.get · i) (Function.update_of_ne here _ _)

/-- A power loss that takes back what is not synced of one block, and of the log. -/
def Cache.losing (s : Cache g C) (b : Nat) : Disk g.blockSize where
  active := s.crash.active.lose b
  flushing := s.crash.flushing.map (DataFile.lose · b)
  wal := s.wal.take s.walSynced
  metadata := s.metadata

theorem losing_powerLoss (s : Cache g C) (b : Nat) : s.PowerLoss (s.losing b) where
  active := lose_survives _ b
  flushing := by
    change Option.Rel _ _ (s.crash.flushing.map _)
    cases s.crash.flushing with
    | none => exact .none
    | some f => exact .some (lose_survives f b)
  wal := ⟨[], List.nil_sublist _, (List.append_nil _).symm⟩
  metadata := rfl

theorem first_host_write : HostAct.Recoverable newCache (.write 0 [1]) :=
  HostAct.write_recoverable (by decide)

private theorem flushed_write :
    ((HostAct.write 0 [1]).step newCache).bind (fun s =>
      ((HostAct.write 1 [2]).step s.syncActive.syncWal).map fun t =>
        ((s.sequence, (s.acked 0).get 0, s.flushingFile.isNone, s.flushingPath.isNone),
          (t.flushingPath.isNone, (t.active.cur 0).get 1,
            ((openCache (t.losing 0) t.store t.durable).active.cur 0).get 1))) =
      some ((1, 1, true, true), (true, 2, 0)) := by
  decide +kernel

/-- A power loss takes a later write in the same block, and leaves the flushed byte. -/
theorem flushed_write_survives :
    ∃ s t : Cache oneBlockDevice (.plain 16), (s.acked 0).get 0 = 1 ∧
      ((openCache (t.losing 0) t.store t.durable).active.cur 0).get 1 ≠ (t.active.cur 0).get 1 ∧
      t.Survived (t.losing 0) 0 0 1 := by
  obtain ⟨s, written, rest⟩ := Option.bind_eq_some_iff.mp flushed_write
  obtain ⟨t, later, result⟩ := Option.map_eq_some_iff.mp rest
  simp only [Prod.mk.injEq, Option.isNone_iff_eq_none] at result
  obtain ⟨⟨sequence, byte, unheld, unnamed⟩, unrotated, current, lost⟩ := result
  have ok : HostAct.Keeps 0 0 s.syncActive.syncWal (.write 1 [2]) := by
    have beside : ¬(1 ≤ 0 * 16 + 0 ∧ 0 * 16 + 0 < 1 + 1) := by decide
    refine ⟨⟨HostAct.write_recoverable ?_, HostAct.write_filled _ _ _, beside⟩, fun moves => ?_⟩
    · change s.sequence + _ ≤ _
      rw [sequence]
      decide
    · have held : s.flushingFile.isSome = true := moves.2.1
      rw [unheld] at held
      cases held
  refine ⟨s, t, byte, by rw [current, lost]; decide, ?_⟩
  rw [← byte]
  refine flush_survives .new .new 0 0 (by decide) (.step .refl first_host_write written)
    (.flush .refl (fun _ f found => ?_) .refl) (.step .refl ok later) (fun f found => ?_)
    (losing_powerLoss t 0)
  · exact absurd (unnamed.symm.trans found) nofun
  · rw [unrotated] at found
    cases found

private theorem rotated_flush :
    ((HostAct.write 0 [1]).step newCache).bind (fun u =>
      (exec HostAct.step u (checkpointAndRotate.map .inner)).map fun s =>
        let t := s.syncActive.syncWal
        (((s.acked 0).get 0, ((openCache (t.losing 0) t.store t.durable).active.cur 0).get 0,
            (t.content t.durable 0).get 0),
          ((u.acked 0).get 0, ((openCache (u.losing 0) u.store u.durable).active.cur 0).get 0,
            (u.content u.durable 0).get 0))) = some ((1, 0, 0), (1, 0, 0)) := by
  decide +kernel

/-- A promised byte of block 0 is lost. -/
def Loses (promise : Cache oneBlockDevice (.plain 16) → Cache oneBlockDevice (.plain 16) → Prop) :
    Prop :=
  ∃ s t, Reach HostAct.step HostAct.Recoverable newCache s ∧ promise s t ∧
    t.PowerLoss (t.losing 0) ∧ ¬t.Survived (t.losing 0) 0 0 ((s.acked 0).get 0)

/-- A flush after a rotation: the file that has the byte is the flushing file, and nobody syncs
    it. And a zero-copy write with FUA, which is acknowledged with nothing synced. -/
theorem rotated_flush_loses :
    Loses (fun s t => t = s.syncActive.syncWal ∧ Promised 0 0 s t) ∧
      Loses fun s t => t = s ∧ Promised 0 0 s t := by
  obtain ⟨u, written, rest⟩ := Option.bind_eq_some_iff.mp rotated_flush
  obtain ⟨s, run, result⟩ := Option.map_eq_some_iff.mp rest
  simp only [Prod.mk.injEq] at result
  obtain ⟨⟨byte, lost, unsaved⟩, byte', lost', unsaved'⟩ := result
  have first : Reach HostAct.step HostAct.Recoverable newCache u :=
    .step .refl first_host_write written
  refine ⟨⟨s, _, first.trans (reach_exec_of run ?_), ⟨rfl, .flush .refl .refl⟩,
    losing_powerLoss _ 0, ?_⟩, ⟨u, u, first, ⟨rfl, .zeroCopyFua⟩, losing_powerLoss _ 0, ?_⟩⟩
  · intro a mem u
    simp only [checkpointAndRotate, List.map_cons, List.map_nil, List.mem_cons, List.not_mem_nil,
      or_false] at mem
    rcases mem with rfl | rfl | rfl | rfl | rfl | rfl | rfl | rfl <;>
      exact ⟨trivial, trivial, trivial, trivial⟩
  · rw [byte]
    rintro (⟨_, kept⟩ | kept)
    · exact absurd (lost.symm.trans kept) (by decide)
    · exact absurd (unsaved.symm.trans kept) (by decide)
  · rw [byte']
    rintro (⟨_, kept⟩ | kept)
    · exact absurd (lost'.symm.trans kept) (by decide)
    · exact absurd (unsaved'.symm.trans kept) (by decide)

end GlideFS.WriteCache
