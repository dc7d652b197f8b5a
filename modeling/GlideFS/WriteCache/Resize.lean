import GlideFS.WriteCache.Drain
import GlideFS.WriteCache.Restored
import GlideFS.WriteCache.DeviceEnd

/-! # Growing an export

`resize_export` drains the export, removes it without its local files and creates it
again at the new size, from its own manifest in S3, like a fork: with a cache opened
fresh on the files that are still there. `History` has everything that can happen to
an export before: steps of the host and of flushes, crashes followed by the normal path
of `create_export`, and earlier resizes.
-/

namespace GlideFS.Block.Geometry

/-- The same device with another size. -/
abbrev grow (g : Geometry) (n : Nat) (fits : n ≤ g.chunkSize * 2 ^ 32) : Geometry :=
  { g with size := n, chunks_fit := fits }

end GlideFS.Block.Geometry

namespace GlideFS.WriteCache

open Block Lib Cache

variable {Hash PackId : Type} [DecidableEq Hash] [DecidableEq PackId] {g : Geometry}
  {C : Codec (BlockData g.blockSize) Hash PackId} {s t : Cache g C} {b i : Nat}

namespace Cache

/-- The byte a guest reads at position `p`. -/
def byteAt (s : Cache g C) (p : Nat) : UInt8 := (s.acked (p / g.blockSize)).get (p % g.blockSize)

/-- The cache `resize_export` creates, with the manifest the removed one left in S3. -/
def resized (t : Cache g C) (saved : Bool) (n : Nat) (fits : n ≤ g.chunkSize * 2 ^ 32) :
    Cache (g.grow n fits) C :=
  openFresh (g := g.grow n fits) (t.removed saved) t.store t.durable

end Cache

def HostAct.Sound (s : Cache g C) : HostAct → Prop
  | .inner a => a.Sound s
  | _ => True

/-- The states of an export, over crashes and resizes. A volume is not larger than its device. -/
inductive History : (g : Geometry) → (C : Codec (BlockData g.blockSize) Hash PackId) →
    Cache g C → Prop
  | create {g : Geometry} {C : Codec (BlockData g.blockSize) Hash PackId} (v : Volume C)
      (ends : ∀ b i, Past g b i → ((v.resolve g b).getD 0).get i = 0) :
      History g C (openCache .new v.store v.manifest)
  | fork {g : Geometry} {C : Codec (BlockData g.blockSize) Hash PackId} (v : Volume C)
      (ends : ∀ b i, Past g b i → ((v.resolve g b).getD 0).get i = 0) :
      History g C (openFresh .new v.store v.manifest)
  | step {g : Geometry} {C : Codec (BlockData g.blockSize) Hash PackId} {s t : Cache g C}
      {a : HostAct} (before : History g C s) (sound : a.Sound s) (taken : a.step s = some t) :
      History g C t
  | reopen {g : Geometry} {C : Codec (BlockData g.blockSize) Hash PackId} {s : Cache g C}
      (before : History g C s) : History g C s.reopened
  | resize {g : Geometry} {C : Codec (BlockData g.blockSize) Hash PackId} {s t : Cache g C}
      (before : History g C s) (returns : Drained s t) (saved : Bool) {n : Nat} (grows : g.size < n)
      (fits : n ≤ g.chunkSize * 2 ^ 32) : History (g.grow n fits) C (t.resized saved n fits)

structure HistoryInv (s : Cache g C) : Prop where
  remote : RemoteInv False s
  drain : DrainInv s
  ends : ∀ b i, Past g b i → s.ZeroAt b i

/-- What S3 has. -/
def RemoteInv.volume {Q : Prop} (h : RemoteInv Q s) : Volume C := ⟨s.store, s.durable, h.durable⟩

theorem openFresh_drainInv (d : Disk g.blockSize) (v : Volume C) :
    DrainInv (openFresh d v.store v.manifest) :=
  ⟨(TenureInv.openFresh d v).data, nofun, nofun,
    nofun⟩

/-- A cache opened on files that end where the device ends. -/
theorem openCache_zeroAt (d : Disk g.blockSize) (v : Volume C) (active : (d.active.cur b).get i = 0)
    (flushing : ∀ f, d.flushing = some f → (f.cur b).get i = 0)
    (volume : ((v.resolve g b).getD 0).get i = 0) :
    (openCache d v.store v.manifest).ZeroAt b i := by
  have recovered : ((d.recoveredActive g).cur b).get i = 0 := by
    unfold Disk.recoveredActive
    cases file : d.flushing with
    | none => exact active
    | some f =>
      dsimp only
      rw [copied_cur]
      split
      · exact flushing f file
      · exact active
  refine ⟨recovered, nofun, nofun, ?_, volume,
    volume⟩
  change (if _ then _ else _ : BlockData g.blockSize).get i = 0
  split
  · exact recovered
  · exact volume

theorem openFresh_zeroAt (d : Disk g.blockSize) (v : Volume C) (active : (d.active.cur b).get i = 0)
    (flushing : ∀ f, d.flushing = some f → (f.cur b).get i = 0)
    (volume : ((v.resolve g b).getD 0).get i = 0) :
    (openFresh d v.store v.manifest).ZeroAt b i :=
  ⟨active, flushing, nofun, volume, volume, volume⟩

theorem Cache.ZeroAt.crash (h : s.ZeroAt b i) : (s.crash.active.cur b).get i = 0 ∧
    ∀ f, s.crash.flushing = some f → (f.cur b).get i = 0 := by
  unfold Cache.crash
  dsimp only
  constructor
  · split
    · exact h.active
    · exact zero_get _ _
  · intro f found
    split at found
    · cases found
      exact h.active
    · exact h.path f found

theorem Cache.Recast.drainInv {states : StateMap} (r : s.Recast states) (h : DrainInv s) :
    DrainInv { s with states } where
  data := r.dataInv h.data
  running := h.running
  stats := h.stats
  drained stats at_stats zero late unwritten := by
    obtain ⟨⟨idle, none⟩, same⟩ := h.drained stats at_stats zero late unwritten
    exact ⟨⟨fun b range now => idle b range ((r.eq_iff b rfl).mp now),
      fun b range now => none b range ((r.eq_iff b rfl).mp now)⟩, same⟩

theorem host_drainInv (remote : RemoteInv False s) (drain : DrainInv s) {a : HostAct}
    (sound : a.Sound s) (taken : a.step s = some t) : RemoteInv False t ∧ DrainInv t := by
  cases host_cases taken with
  | put how done =>
    have claimed := (Recast.claimed s (a.claims g)).drainInv drain
    have same : RemoteInv False (s.claimed (a.claims g)) := remote.quiet rfl remote.stage
    exact ⟨same.local (local_putRange done), putRange_keeps putBlock_drainInv claimed done⟩
  | recast which same =>
    exact ⟨remote.quiet rfl remote.stage, same.drainInv drain⟩
  | syncActive | syncWal =>
    exact ⟨remote.quiet rfl remote.stage, ⟨drain.data.blocks, drain.data.idle,
      drain.data.stage⟩, drain.running, drain.stats, drain.drained⟩
  | inner quiet taken =>
    exact ⟨step_remoteInv remote sound.1 taken, step_drainInv remote drain sound.2 taken⟩

theorem host_historyInv (h : HistoryInv s) {a : HostAct} (sound : a.Sound s)
    (taken : a.step s = some t) : HistoryInv t := by
  obtain ⟨remote, drain⟩ := host_drainInv h.remote h.drain sound taken
  exact ⟨remote, drain, fun b i past =>
    host_zeroAt h.remote h.drain.data past (h.ends b i past) taken⟩

/-- The steps of a drain and a teardown. -/
theorem quiet_inv (remote : RemoteInv False s) (data : DataInv s)
    (ends : ∀ b i, Past g b i → s.ZeroAt b i) (run : Reach Act.step Act.Quiet s t) :
    RemoteInv False t ∧ ∀ b i, Past g b i → t.ZeroAt b i := by
  have all := run.invariant (I := fun t => RemoteInv False t ∧ DataInv t ∧
      ∀ b i, Past g b i → t.ZeroAt b i) ⟨remote, data, ends⟩ fun t a u held quiet taken => by
    obtain ⟨remote, data, ends⟩ := held
    obtain ⟨⟨resolvable, copies⟩, noWrite⟩ := quiet
    have other : a.Internal :=
      ⟨fun _ _ same => noWrite (same ▸ trivial), fun _ _ same => noWrite (same ▸ trivial)⟩
    exact ⟨step_remoteInv remote resolvable taken, step_dataInv remote data copies taken,
      fun b i past => step_zeroAt remote data past.known (ends b i past) other taken⟩
  exact ⟨all.1, all.2.2⟩

theorem History.inv (h : History g C s) : HistoryInv s := by
  induction h with
  | create v ends =>
    exact ⟨openCache_remoteInv _ v, openCache_drainInv _ v, fun b i past =>
      openCache_zeroAt _ v (zero_get _ _) (nofun) (ends b i past)⟩
  | fork v ends =>
    exact ⟨⟨v.backed, v.backed, nofun⟩, openFresh_drainInv _ v,
      fun b i past =>
        openFresh_zeroAt _ v (zero_get _ _) (nofun) (ends b i past)⟩
  | step before sound taken ih => exact host_historyInv ih sound taken
  | @reopen g C s before ih =>
    refine ⟨openCache_remoteInv s.crash ih.remote.volume,
      openCache_drainInv s.crash ih.remote.volume, fun b i past => ?_⟩
    obtain ⟨active, flushing⟩ := (ih.ends b i past).crash
    exact openCache_zeroAt s.crash ih.remote.volume active flushing (ih.ends b i past).durable
  | @resize g C s t before returns saved n grows fits ih =>
    obtain ⟨remote, ends⟩ := quiet_inv ih.remote ih.drain.data ih.ends returns.quiet
    refine ⟨⟨remote.durable, remote.durable, nofun⟩,
      openFresh_drainInv (g := g.grow n fits) _ remote.volume, fun b i past => ?_⟩
    have zero := ends b i ⟨past.known, grows.le.trans past.past⟩
    obtain ⟨active, flushing⟩ := zero.crash
    exact openFresh_zeroAt (g := g.grow n fits) (t.removed saved) remote.volume active flushing
      zero.durable

/-- After any history, and a drain and teardown that left nothing behind: the grown export reads
    as the old one up to the old size and as zeros from there on. In every later run whose writes
    take numbers the files do not have, a crash followed by the normal path of `create_export`
    restores every block exactly if the blocks are placed and unspoiled. -/
theorem resize_keeps_data (history : History g C s) (returns : Drained s t)
    (unwritten : s.written = false) (settled : Settled s t) (saved : Bool) {n : Nat}
    (fits : n ≤ g.chunkSize * 2 ^ 32) :
    (∀ p < g.size, (t.resized saved n fits).byteAt p = t.byteAt p) ∧
      (∀ p, g.size ≤ p → p < n → (t.resized saved n fits).byteAt p = 0) ∧
      ∀ w, Reach HostAct.step HostAct.Tracked (t.resized saved n fits) w →
        (w.Restores ↔ w.Placed ∧ w.Unspoiled) := by
  have inv := history.inv
  obtain ⟨remote, ends⟩ := quiet_inv inv.remote inv.drain.data inv.ends returns.quiet
  refine ⟨fun p below => ?_, fun p above below => ?_, fun w run => ?_⟩
  · have range : g.InRange (p / g.blockSize) :=
      lt_of_le_of_lt (Nat.div_mul_le_self p g.blockSize) below
    exact congrArg (BlockData.get · _)
      (Drained.content inv.remote inv.drain returns unwritten settled range)
  · have place : p / g.blockSize * g.blockSize + p % g.blockSize = p := Nat.div_add_mod' p _
    have known : g.Addressable (p / g.blockSize) :=
      lt_of_le_of_lt (Nat.div_mul_le_self p g.blockSize) (below.trans_le fits)
    exact (ends _ _ ⟨known, place.symm ▸ above⟩).durable
  · have start : TenureInv (t.resized saved n fits) :=
      TenureInv.openFresh (g := g.grow n fits) (t.removed saved) remote.volume
    exact (run.invariant start fun _ _ _ held ok taken => host_tenureInv held ok taken).restores_iff

theorem History.reach (h : History g C s) (run : Reach HostAct.step HostAct.Sound s t) :
    History g C t :=
  run.invariant h fun _ _ _ before sound taken => .step before sound taken

theorem history_new : History oneBlockDevice (.plain 16) newCache :=
  .create .new fun _ _ _ => zero_get _ _

/-- **Nothing is kept past the end.** After any history the bytes past the end of the device are
    zero in both data files, in what was acknowledged and in S3. -/
theorem past_end_zero (history : History g C s) {b i : Nat} (past : Past g b i) : s.ZeroAt b i :=
  history.inv.ends b i past

/-- A teardown after a complete drain, on a device of one block, up to the end of its last
    checkpoint and deletion. -/
def lastSync : List Act :=
  [.syncPut .ok, .syncCkpt, .ckptCopy, .ckptSeal, .ckptPublish, .ckptTruncate, .syncDelete true]

theorem tornDown_drained {s t : Cache g C}
    (run : exec Act.step s (.teardown true :: lastSync) = some t) (ended : t.flush = none) :
    Drained s t := by
  obtain ⟨u, taken, later⟩ := Option.bind_eq_some_iff.mp run
  refine .teardown taken ?_ (reach_exec_of later ?_) ended
  · cases step_cases taken with
    | teardownDrained => rfl
  · simp [lastSync, Act.Quiet, Act.Sound, Act.Resolvable, Act.Copies, Act.IsWrite]

theorem doubled_fits : 32 ≤ oneBlockDevice.chunkSize * 2 ^ 32 := by decide

theorem half_fits : 24 ≤ oneBlockDevice.chunkSize * 2 ^ 32 := by decide

/-- One write, and its flush up to the rotation. -/
def hostWriteAndRotate : List HostAct :=
  .write 0 [1] :: [Act.flushPacks, .pass, .rotate .ok].map .inner

/-- A checkpoint of a device of two blocks. -/
def twoBlockCkpt : List Act :=
  [.ckptStart, .ckptCopy, .ckptCopy, .ckptSeal, .ckptPublish, .ckptTruncate]

/-- The old part is written at once after a resize, and a crash follows. -/
def writtenAtOnce (t : Cache oneBlockDevice (.plain 16)) : Option (UInt8 × Bool) :=
  ((HostAct.write 0 [9]).step (t.resized true 32 doubled_fits)).map fun w =>
    (w.byteAt 0, decide (w.reopened.acked 0 = w.acked 0))

/-- The new part is written after a resize and a checkpoint. -/
def writtenLater (t : Cache oneBlockDevice (.plain 16)) :
    Option ((List WalEntry × Nat × Nat) × List WalEntry × SparseBlockState × Bool × Bool ×
      UInt8 × UInt8) :=
  (exec HostAct.step (t.resized true 32 doubled_fits) (twoBlockCkpt.map .inner)).bind fun v =>
    ((HostAct.write 20 [9]).step v).map fun w =>
      ((v.wal, v.loaded.maxSequence, v.sequence),
        (w.wal, w.loaded.states 0, w.flushingPath.isSome,
          decide (w.acked 1 = w.content w.durable 1), w.byteAt 0, w.byteAt 20))

/-- The device is grown by half a block, and the half is written. -/
def writtenHalf (t : Cache oneBlockDevice (.plain 16)) : Option UInt8 :=
  ((HostAct.write 20 [9, 9, 9, 9]).step (t.resized true 24 half_fits)).map fun w => w.byteAt 20

set_option synthInstance.maxSize 500 in
private theorem written_grown :
    (exec HostAct.step newCache hostWriteAndRotate).bind (fun u =>
      ((HostAct.inner (.compute 3 [] [])).step u).bind fun v =>
      (exec HostAct.step v (flushAndDrain.map .inner)).bind fun s =>
      (exec Act.step s (.teardown true :: lastSync)).map fun t =>
        ((s.returned.map fun stats => (stats.blocksClaimed, stats.early), s.written,
            t.flush.isNone), decide (writtenAtOnce t = some (9, false)),
          decide (writtenLater t =
            some (([], 0, 0), ([⟨1, 1⟩], .notPresent, false, false, 1, 9))),
          decide (writtenHalf t = some 9))) =
      some ((some (0, false), false, true), true, true, true) := by
  decide +kernel

/-- A volume that is written, drained and torn down. -/
theorem drained_volume : ∃ s t : Cache oneBlockDevice (.plain 16),
    History oneBlockDevice (.plain 16) s ∧ Drained s t ∧ s.written = false ∧ Settled s t ∧
      writtenAtOnce t = some (9, false) ∧
      writtenLater t = some (([], 0, 0), ([⟨1, 1⟩], .notPresent, false, false, 1, 9)) ∧
      writtenHalf t = some 9 := by
  obtain ⟨u, rotated, rest⟩ := Option.bind_eq_some_iff.mp written_grown
  obtain ⟨v, computed, rest⟩ := Option.bind_eq_some_iff.mp rest
  obtain ⟨s, drained, rest⟩ := Option.bind_eq_some_iff.mp rest
  obtain ⟨t, torn, facts⟩ := Option.map_eq_some_iff.mp rest
  simp only [Prod.mk.injEq, Option.isNone_iff_eq_none, decide_eq_true_eq] at facts
  obtain ⟨⟨returned, unwritten, ended⟩, outcomes⟩ := facts
  obtain ⟨stats, at_stats, zero⟩ := Option.map_eq_some_iff.mp returned
  obtain ⟨zero, late⟩ := Prod.mk.inj zero
  -- nothing is listed in the manifest of a new volume
  have resolvable : HostAct.Sound u (.inner (.compute 3 [] [])) := by
    obtain ⟨u', run, manifest⟩ : ∃ u', exec HostAct.step newCache hostWriteAndRotate = some u' ∧
        u'.volumeManifest = .new := ⟨_, rfl, rfl⟩
    cases rotated.symm.trans run
    refine ⟨fun r _ claim _ f _ => ?_, rfl⟩
    rw [manifest]
    exact ⟨fun c => .inr List.not_mem_nil, nofun⟩
  have history : History oneBlockDevice (.plain 16) s := by
    refine History.reach (.step (history_new.reach (reach_exec_of rotated ?_)) resolvable computed)
      (reach_exec_of drained ?_)
    · simp [hostWriteAndRotate, HostAct.Sound, Act.Sound, Act.Resolvable, Act.Copies]
    · simp [flushAndDrain, HostAct.Sound, Act.Sound, Act.Resolvable, Act.Copies]
  exact ⟨s, t, history, tornDown_drained torn ended, unwritten,
    .inl ⟨stats, at_stats, zero, late⟩, outcomes⟩

/-- A written volume is grown by half a block, and the half is written: the block ends in zeros. -/
theorem grown_past_end_zero :
    ∃ w : Cache (oneBlockDevice.grow 24 half_fits) (.plain 16),
      History (oneBlockDevice.grow 24 half_fits) (.plain 16) w ∧ w.byteAt 20 = 9 ∧
        w.ZeroAt 1 8 := by
  obtain ⟨s, t, history, returns, -, -, -, -, half⟩ := drained_volume
  obtain ⟨w, written, byte⟩ := Option.map_eq_some_iff.mp half
  have grown : History (oneBlockDevice.grow 24 half_fits) (.plain 16) w :=
    .step (a := .write 20 [9, 9, 9, 9]) (.resize history returns true (by decide) half_fits) trivial
      written
  exact ⟨w, grown, byte, past_end_zero grown ⟨by unfold Geometry.Addressable; decide, by decide⟩⟩

/-- A written volume is drained, torn down and doubled. It reads its first write, and once its
    metadata was saved again a write to its new part survives a crash. -/
theorem write_to_new_part_restored :
    ∃ (t : Cache oneBlockDevice (.plain 16))
      (w : Cache (oneBlockDevice.grow 32 doubled_fits) (.plain 16)),
      Reach HostAct.step HostAct.Tracked (t.resized true 32 doubled_fits) w ∧
        w.byteAt 0 = 1 ∧ w.byteAt 20 = 9 ∧ w.Restores := by
  obtain ⟨s, t, history, returns, unwritten, settled, -, later, -⟩ := drained_volume
  obtain ⟨v, saved, rest⟩ := Option.bind_eq_some_iff.mp later
  obtain ⟨w, written, facts⟩ := Option.map_eq_some_iff.mp rest
  simp only [Prod.mk.injEq, decide_eq_false_iff_not] at facts
  obtain ⟨⟨wal, covered, sequence⟩, appended, unsaved, missing, changed, old, new⟩ := facts
  have keeps := resize_keeps_data history returns unwritten settled true doubled_fits
  have tracked : HostAct.Tracked v (.write 20 [9]) := by
    refine ⟨HostAct.write_recoverable ?_, fun _ => ⟨(covered.trans sequence.symm).le, ?_⟩⟩
    · rw [sequence]
      decide
    · intro e listed
      rw [wal] at listed
      cases listed
  have run : Reach HostAct.step HostAct.Tracked (t.resized true 32 doubled_fits) w := by
    refine .step (reach_exec_of saved fun a listed u => ?_) tracked written
    rw [List.mem_map] at listed
    obtain ⟨a, listed, rfl⟩ := listed
    refine ⟨?_, fun some => absurd rfl some⟩
    simp only [twoBlockCkpt, List.mem_cons, List.not_mem_nil, or_false] at listed
    rcases listed with rfl | rfl | rfl | rfl | rfl | rfl <;>
      exact ⟨trivial, trivial, trivial, trivial⟩
  refine ⟨t, w, run, old, new, (keeps.2.2 w run).mpr ⟨?_, ?_⟩⟩
  · intro b _ _ f found
    rw [found] at missing
    cases missing
  · intro b range saved recorded
    have which : b = 0 ∨ b = 1 := by
      unfold Geometry.InRange Geometry.grow oneBlockDevice at range
      dsimp only at range
      omega
    exfalso
    rcases which with rfl | rfl
    · rcases recorded with here | ⟨e, listed, at_b, _⟩
      · rw [unsaved] at here
        cases here
      · rw [appended, List.mem_singleton] at listed
        rw [listed] at at_b
        cases at_b
    · exact changed saved

/-- A written volume is drained, torn down and doubled. The first write after that takes number 1
    again, which the left metadata already covers: a crash loses it. -/
theorem write_after_resize_lost :
    ∃ (s t : Cache oneBlockDevice (.plain 16))
      (w : Cache (oneBlockDevice.grow 32 doubled_fits) (.plain 16)),
      History oneBlockDevice (.plain 16) s ∧ Drained s t ∧ s.written = false ∧ Settled s t ∧
        Reach HostAct.step HostAct.Recoverable (t.resized true 32 doubled_fits) w ∧
        w.byteAt 0 = 9 ∧ ¬w.Restores := by
  obtain ⟨s, t, history, returns, unwritten, settled, atOnce, -, -⟩ := drained_volume
  obtain ⟨w, written, facts⟩ := Option.map_eq_some_iff.mp atOnce
  obtain ⟨byte, lost⟩ := Prod.mk.inj facts
  have recoverable : HostAct.Recoverable (t.resized true 32 doubled_fits) (.write 0 [9]) :=
    HostAct.write_recoverable (by change 0 + 1 ≤ u64Max; decide)
  exact ⟨s, t, w, history, returns, unwritten, settled, .step .refl recoverable written, byte,
    fun restores => of_decide_eq_false lost (restores 0 (by decide))⟩

end GlideFS.WriteCache
