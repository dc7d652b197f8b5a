import GlideFS.WriteCache.FlushSurvives
import GlideFS.WriteCache.ReadAssembly
import GlideFS.WriteCache.Reopen
import GlideFS.WriteCache.Resize
import Mathlib.Tactic.FinCases

/-! # The device as an array of bytes

What a guest sees of a cache is an array of bytes. Writes and zeroing change it in their
range, and a read between any two steps of syncs, flushes and checkpoints finds it in the
two data files, the clean cache and the packs.
-/

namespace GlideFS.WriteCache

open Block Lib Cache Locate ColdFetch ReadAssembly

variable {Hash PackId : Type} [DecidableEq Hash] [DecidableEq PackId] {g : Geometry}
  {C : Codec (BlockData g.blockSize) Hash PackId} {s t : Cache g C}

/-- The byte at a position of the device, with zeros after its end. -/
def deviceByte (g : Geometry) (v : Nat → BlockData g.blockSize) (p : Nat) : UInt8 :=
  if p < g.size then (v (p / g.blockSize)).get (p % g.blockSize) else 0

/-- What a sequence of acts makes of the array. -/
def effects (g : Geometry) (v : Nat → BlockData g.blockSize) (as : List HostAct) :
    Nat → BlockData g.blockSize :=
  as.foldl (fun v a => a.effect g v) v

/-- The acknowledged bytes are those of the array, along the steps that keep an invariant. -/
theorem steps_acked {allowed : Cache g C → HostAct → Prop} {I : Cache g C → Prop}
    (keep : ∀ s a t, I s → allowed s a → HostAct.step s a = some t → I t)
    (data : ∀ s, I s → DataInv s) (filled : ∀ s a, allowed s a → a.Filled s) {as : List HostAct} (inv : I s)
    (run : Steps HostAct.step allowed s as t) {v : Nat → BlockData g.blockSize}
    (start : ∀ b, g.InRange b → s.acked b = v b) :
    I t ∧ ∀ b, g.InRange b → t.acked b = effects g v as b := by
  induction as generalizing s v with
  | nil =>
    cases run
    exact ⟨inv, start⟩
  | cons a rest ih =>
    obtain ⟨ok, u, taken, more⟩ := run
    refine ih (v := a.effect g v) (keep s a u inv ok taken) more fun b range => ?_
    rw [host_acked (data s inv) range (filled s a ok) taken]
    exact congrArg (a.patch g b) (start b range)

namespace Cache

def fileByte (f : DataFile g.blockSize) (p : Nat) : UInt8 :=
  (f.cur (p / g.blockSize)).get (p % g.blockSize)

/-- What a read meets in the cache, where `cold` is what `locate_block` finds for the blocks
    without local data. -/
def reader (s : Cache g C) (cold : Nat → Locate.BlockLocation PackId Hash) (packs : Packs C)
    (window : Nat) : Reader g C where
  state := s.states
  flushingActive := s.flushingActive
  active := fileByte s.active
  flushing := s.flushingFile.map fileByte
  cold
  packs
  window
  degraded := false

/-- The location has the block as the manifest in memory resolves it. -/
def Locates (s : Cache g C) (packs : Packs C) (b : Nat) : Locate.BlockLocation PackId Hash → Prop
  | .onDisk _ => False
  | .cached kept => kept = Reader.blockBytes (s.content s.volumeManifest b)
  | .zero => s.content s.volumeManifest b = 0
  | .needsFetch id e => e ∈ (packs.object id).entries ∧ e.compLength ≠ 0 ∧
      e.chunkOffset = g.blockOffsetInChunk b ∧ C.blake3 (s.content s.volumeManifest b) = e.hash

/-- The bytes of a block where its state says they are. -/
def line (s : Cache g C) (b : Nat) : List UInt8 :=
  match s.states b with
  | .dirty => Reader.fromFile g (fileByte s.active) b
  | .syncing => Reader.fromFile g (fileByte (s.flushingFile.getD s.active)) b
  | .clean | .notPresent => Reader.blockBytes (s.content s.volumeManifest b)

end Cache

/-- A SYNCING block is read from the active file when no flushing file is open. -/
theorem handlerRead_unflushed {v : Reader g C} (closed : v.flushing = none) :
    v.handlerRead = { v with flushing := some v.active }.handlerRead ∧
      v.Fails = { v with flushing := some v.active }.Fails := by
  have local_b (b : Nat) : v.syncReadLocalBlock b =
      { v with flushing := some v.active }.syncReadLocalBlock b := by
    unfold Reader.syncReadLocalBlock
    dsimp only
    rw [closed]
    cases v.state b <;> rfl
  constructor
  · funext offset length
    unfold Reader.handlerRead Reader.read Reader.resolveBlocks Reader.requests Reader.slot
      Reader.locate
    simp only [local_b]
    rfl
  · funext offset length
    unfold Reader.Fails Reader.Unfetched Reader.requests Reader.locate
    simp only [local_b]

theorem fromFile_get {f : DataFile g.blockSize} {p : Nat} (inside : p < g.size) :
    (Reader.fromFile g (fileByte f) (p / g.blockSize)).getD (p % g.blockSize) 0 =
      (f.cur (p / g.blockSize)).get (p % g.blockSize) := by
  have small := Nat.mod_lt p g.blockSize_pos
  have whole : p / g.blockSize * g.blockSize + p % g.blockSize = p := Nat.div_add_mod' p _
  simp [Reader.fromFile, List.getD_eq_getElem?_getD, small, whole, inside, fileByte]

/-- Every block is where a read looks for it. -/
theorem DataInv.line_byte (h : DataInv s) {p : Nat} (inside : p < g.size) :
    Reader.content g s.line p = (s.acked (p / g.blockSize)).get (p % g.blockSize) := by
  have range : g.InRange (p / g.blockSize) :=
    (Nat.div_mul_le_self p g.blockSize).trans_lt inside
  have ok := h.blocks _ range
  unfold BlockOk at ok
  unfold Reader.content Cache.line
  cases state : s.states (p / g.blockSize) with
  | dirty =>
    rw [state] at ok
    rw [← ok]
    exact fromFile_get inside
  | syncing =>
    rw [state] at ok
    have file : (s.flushingFile.getD s.active).cur (p / g.blockSize) =
        s.acked (p / g.blockSize) := by
      cases opened : s.flushingFile with
      | none => exact ok.2 opened
      | some f => exact ok.1 f opened
    rw [← file]
    exact fromFile_get inside
  | clean | notPresent =>
    rw [state] at ok
    have small := Nat.mod_lt p g.blockSize_pos
    simp [Reader.blockBytes, List.getD_eq_getElem?_getD, small, ok]

/-- Reads of the handler in one state. -/
theorem DataInv.read_ends (h : DataInv s) {cold : Nat → Locate.BlockLocation PackId Hash}
    {packs : Packs C} (found : ∀ b, g.InRange b → ¬s.Present b → s.Locates packs b (cold b))
    (window offset length : Nat) :
    Ends ((s.reader cold packs window).Fails offset (min length (g.size - offset)))
      (fun data => data = (List.range' offset length).map (deviceByte g s.acked))
      ((s.reader cold packs window).handlerRead offset length) := by
  -- a reader that has the active file in the place of a flushing file that is not open
  let v : Reader g C := { s.reader cold packs window with
    flushing := some (fileByte (s.flushingFile.getD s.active)) }
  have same : (s.reader cold packs window).handlerRead = v.handlerRead ∧
      (s.reader cold packs window).Fails = v.Fails := by
    cases opened : s.flushingFile with
    | none =>
      have read := handlerRead_unflushed (v := s.reader cold packs window)
        (by simp [reader, opened])
      simpa [v, opened, reader] using read
    | some f => simp [v, opened, reader]
  have sourced (b : Nat) (range : g.InRange b) : v.Source b (s.line b) := by
    unfold Reader.Source Cache.line
    cases state : s.states b with
    | dirty => simp [v, reader, state]
    | syncing => simp [v, reader, state]
    | clean | notPresent =>
      have located := found b range (by simp [Present, state, SparseBlockState.hasLocalData])
      simp only [v, reader, state]
      cases at_b : cold b with
      | onDisk kept => rw [at_b] at located; exact located.elim
      | cached kept =>
        rw [at_b] at located
        exact ⟨located.symm, by rw [located]; simp [Reader.blockBytes]⟩
      | zero =>
        rw [at_b] at located
        have located : s.content s.volumeManifest b = 0 := located
        simp [located, Reader.blockBytes, Reader.zeroBlock, List.eq_replicate_iff]
      | needsFetch id e =>
        rw [at_b] at located
        exact ⟨located.1, located.2.1, located.2.2.1, _, located.2.2.2, rfl⟩
  rw [same.1, same.2]
  refine (Reader.handlerRead_ends sourced rfl offset length).mono fun data got => ?_
  rw [got]
  refine List.map_congr_left fun p _ => ?_
  unfold Reader.whole deviceByte
  split
  · rename_i inside
    exact h.line_byte inside
  · rfl

/-- **Reads return what was last written.** After every run of writes, zeroing, syncs, flushes and
    checkpoints that leaves no part of an evicted block to the active file, a read of any range returns the bytes of the array, and zeros after its end, or
    fails where a range request for its blocks does. -/
theorem reads_return_last_writes (d : Disk g.blockSize) (v : Volume C) (as : List HostAct)
    (run : Steps HostAct.step (fun s a => a.Sound s ∧ a.Filled s)
      (openCache d v.store v.manifest) as s)
    (cold : Nat → Locate.BlockLocation PackId Hash) (packs : Packs C)
    (found : ∀ b, g.InRange b → ¬s.Present b → s.Locates packs b (cold b))
    (window offset length : Nat) :
    Ends ((s.reader cold packs window).Fails offset (min length (g.size - offset)))
      (fun data => data = (List.range' offset length).map
        (deviceByte g (effects g (openCache d v.store v.manifest).acked as)))
      ((s.reader cold packs window).handlerRead offset length) := by
  obtain ⟨inv, acked⟩ := steps_acked (I := fun s => RemoteInv False s ∧ DrainInv s)
    (fun _ _ _ h ok taken => host_drainInv h.1 h.2 ok.1 taken) (fun _ h => h.2.data)
    (fun _ _ ok => ok.2) ⟨openCache_remoteInv d v, openCache_drainInv d v⟩ run fun _ _ => rfl
  refine (inv.2.data.read_ends found window offset length).mono fun data got => ?_
  rw [got]
  refine List.map_congr_left fun p _ => ?_
  unfold deviceByte
  split
  · rename_i inside
    rw [acked _ ((Nat.div_mul_le_self p g.blockSize).trans_lt inside)]
  · rfl

/-- **A lost disk costs what was local.** After every run the manifest in S3 lists stored packs
    only, and an export that is attached without the files has the last write of every block
    without local data. -/
theorem lost_disk_keeps_flushed (d : Disk g.blockSize) (v : Volume C) (as : List HostAct)
    (run : Steps HostAct.step (fun s a => a.Recoverable s ∧ a.Filled s)
      (openCache d v.store v.manifest) as s) :
    Backed s.store s.durable ∧ ∀ b, g.InRange b → ¬s.Present b →
      (openCache .new s.store s.durable).acked b =
        effects g (openCache d v.store v.manifest).acked as b := by
  obtain ⟨inv, acked⟩ := steps_acked (fun _ _ _ h ok taken => host_inv h ok.1 taken)
    (fun _ h => h.crash.data) (fun _ _ ok => ok.2) (openCache_hostInv d v) run fun _ _ => rfl
  have stored := inv.crash.remote.durable
  refine ⟨stored, fun b range absent => ?_⟩
  have empty : ¬(openCache .new s.store s.durable).Present b := by
    unfold Present
    rw [show (openCache .new s.store s.durable).states b = .notPresent from Disk.openStates_new b]
    exact nofun
  calc (openCache .new s.store s.durable).acked b
    _ = s.content s.durable b :=
      ((openCache_dataInv .new ⟨s.store, s.durable, stored⟩).content range empty).symm
    _ = s.acked b := inv.crash.inS3 b range absent
    _ = _ := acked b range

/-! ## One write and its flush -/

def writeThenRotate : List HostAct :=
  [.write 0 [1], .inner .flushPacks, .inner .pass, .inner (.rotate .ok)]

def uploadThenEvict : List HostAct :=
  [.inner (.compute 3 [] []), .inner (.upload 0), .inner .append, .inner (.put .ok), .inner .evict]

theorem evicted_steps : ∃ s : Cache oneBlockDevice (.plain 16), s.states 0 = .notPresent ∧
    Steps HostAct.step (fun s a => a.Recoverable s ∧ a.Filled s) newCache
      (writeThenRotate ++ uploadThenEvict) s ∧
    Steps HostAct.step (fun s a => a.Sound s ∧ a.Filled s) newCache
      (writeThenRotate ++ uploadThenEvict) s := by
  obtain ⟨u, v, s, first, rotated, run, manifest, durable, state⟩ : ∃ u v s,
      (HostAct.write 0 [1]).step newCache = some u ∧
      exec HostAct.step u writeThenRotate.tail = some v ∧
      exec HostAct.step v uploadThenEvict = some s ∧ v.volumeManifest = .new ∧ v.durable = .new ∧
      s.states 0 = .notPresent := ⟨_, _, _, rfl, rfl, rfl, rfl, rfl, rfl⟩
  obtain ⟨w, computed, rest⟩ := Option.bind_eq_some_iff.mp run
  -- nothing is listed in the manifest of a new volume
  have resolvable (Q : Prop) : Act.Resolvable Q v (.compute 3 [] []) := by
    intro r _ claim _ f _
    rw [manifest, durable]
    exact ⟨fun c => .inr List.not_mem_nil, fun _ _ _ _ => rfl⟩
  have filled := HostAct.write_filled newCache 0 [1]
  refine ⟨s, state, steps_append ⟨⟨first_host_write, filled⟩, u, first, steps_exec_of rotated ?_⟩
    ⟨⟨⟨resolvable _, rfl, trivial, trivial⟩, nofun⟩, w, computed, steps_exec_of rest ?_⟩,
    steps_append ⟨⟨trivial, filled⟩, u, first, steps_exec_of rotated ?_⟩
    ⟨⟨⟨resolvable _, rfl⟩, nofun⟩, w, computed, steps_exec_of rest ?_⟩⟩
  · intro a mem _
    fin_cases mem <;> exact ⟨⟨trivial, trivial, trivial, trivial⟩, nofun⟩
  · intro a mem _
    fin_cases mem <;> exact ⟨⟨trivial, trivial, trivial, trivial⟩, nofun⟩
  · intro a mem _
    fin_cases mem <;> exact ⟨⟨trivial, trivial⟩, nofun⟩
  · intro a mem _
    fin_cases mem <;> exact ⟨⟨trivial, trivial⟩, nofun⟩

/-- The byte is read from the clean cache. -/
theorem evicted_write_read :
    ∃ s : Cache oneBlockDevice (.plain 16), s.states 0 = .notPresent ∧ ∃ cold, ∀ packs,
      Ends ((s.reader cold packs 0).Fails 0 2) (fun data => data = [1, 0])
        ((s.reader cold packs 0).handlerRead 0 2) := by
  obtain ⟨s, state, -, run⟩ := evicted_steps
  exact ⟨s, state, _, fun packs => (reads_return_last_writes .new .new _ run
    (fun b => .cached (Reader.blockBytes (s.content s.volumeManifest b))) packs
    (fun _ _ _ => rfl) 0 0 2).mono fun data got => got.trans (by decide +kernel)⟩

/-- The byte is read from S3 when the disk is gone. -/
theorem evicted_write_kept :
    ∃ s : Cache oneBlockDevice (.plain 16), s.states 0 = .notPresent ∧
      ((openCache (g := oneBlockDevice) .new s.store s.durable).acked 0).get 0 = 1 := by
  obtain ⟨s, state, run, -⟩ := evicted_steps
  refine ⟨s, state, ?_⟩
  rw [(lost_disk_keeps_flushed .new .new _ run).2 0 (by decide)
    (by unfold Present; rw [state]; exact nofun)]
  decide +kernel

end GlideFS.WriteCache
