import GlideFS.WriteCache.CrashRecovery

/-! # Syncs and power loss

`HostAct` has what a `BlockHandler` does to the cache. A write claims the blocks without
local data, fills them from S3 and writes them in one step, since no flush touches a
claimed block. `trim` and `write_zeroes` fill the blocks in first and zero the range
afterwards; a flush may evict a block in between. The two syncs of `WriteCache::flush` are
steps of their own. A zero-copy write that has been committed is the same step as a write.
The other steps are those of flushes and checkpoints.

A power loss leaves of every byte some version written since its file was last
synced, and of the log the synced entries and any of the others.
-/

namespace GlideFS.WriteCache

open Block Lib Cache

namespace DataFile

variable {n : Nat}

/-- The contents of a block a power loss may mix. -/
def versions (f : DataFile n) (b : Nat) : List (BlockData n) := f.cur b :: f.unsynced b

/-- A power loss leaves the byte as it is. -/
def Shows (f : DataFile n) (b i : Nat) (v : UInt8) : Prop := ∀ d ∈ f.versions b, d.get i = v

/-- What a power loss may leave of a file. -/
def Survives (f f' : DataFile n) : Prop :=
  ∀ b i, ∃ d ∈ f.versions b, (f'.cur b).get i = d.get i

theorem Shows.survives {f f' : DataFile n} {b i : Nat} {v : UInt8} (h : f.Shows b i v)
    (left : f.Survives f') : (f'.cur b).get i = v := by
  obtain ⟨d, listed, same⟩ := left b i
  exact same.trans (h d listed)

theorem syncAll_shows (f : DataFile n) (b i : Nat) :
    f.syncAll.Shows b i ((f.cur b).get i) := by
  intro d listed
  rw [List.mem_singleton.mp listed]
  rfl

end DataFile

inductive HostAct where
  /-- `backfill_and_write` -/
  | write (offset : Nat) (data : List UInt8)
  /-- A write on the strength of states read before: `write_with_eviction_check` after blocks
      were found with local data, or `write` where S3 has nothing. -/
  | writeReady (offset : Nat) (data : List UInt8)
  | claim (b : Nat)
  | unclaim (b : Nat)
  /-- `backfill_blocks_in_range` writes a claimed block. -/
  | fill (b : Nat)
  | zeroRange (offset len : Nat)
  | syncActive
  | syncWal
  | inner (a : Act)

namespace HostAct

/-- The offset and length of what the act writes. -/
def range (g : Geometry) : HostAct → Nat × Nat
  | .write offset data | .writeReady offset data => (offset, data.length)
  | .fill b => (b * g.blockSize, min g.blockSize (g.size - b * g.blockSize))
  | .zeroRange offset len => (offset, len)
  | _ => (0, 0)

def blocks (g : Geometry) (a : HostAct) : List Nat := blocksIn g (a.range g).1 (a.range g).2

/-- The blocks that are claimed if they have no local data. -/
def claims (g : Geometry) (a : HostAct) : List Nat :=
  match a with
  | .write _ _ | .fill _ => a.blocks g
  | _ => []

/-- What the act makes of the guest's bytes. -/
def patch (g : Geometry) : HostAct → Patch g
  | .write offset data | .writeReady offset data =>
      overwrite g offset data.length fun k => data.getD (k - offset) 0
  | .zeroRange offset len => overwrite g offset len fun _ => 0
  | _ => fun _ old => old

end HostAct

variable {Hash PackId : Type} [DecidableEq Hash] [DecidableEq PackId] {g : Geometry}
  {C : Codec (BlockData g.blockSize) Hash PackId} {s t u : Cache g C}

namespace Cache

/-- The patch of a write that first fills blocks without local data from S3. -/
def backfilled (s : Cache g C) (patch : Patch g) : Patch g := fun b old =>
  patch b (if (s.states b).hasLocalData then old else s.content s.volumeManifest b)

/-- `claim_block_for_materialization`, or `try_claim_block`, for several blocks. -/
def claimed (s : Cache g C) (bs : List Nat) : Cache g C :=
  { s with states := fun b => if b ∈ bs ∧ s.states b = .notPresent then .clean else s.states b }

/-- Blocks without local data are claimed, so that they are not promoted, and written with the
    bytes of S3 in the rest. -/
def fillAndPut (s : Cache g C) (patch : Patch g) (offset len : Nat) : Option (Cache g C) :=
  (s.claimed (blocksIn g offset len)).putRange (s.backfilled patch) offset len

def syncActive (s : Cache g C) : Cache g C := { s with active := s.active.syncAll }

def syncWal (s : Cache g C) : Cache g C := { s with walSynced := s.wal.length }

/-- What the files may look like after a power loss. -/
structure PowerLoss (s : Cache g C) (d : Disk g.blockSize) : Prop where
  active : s.crash.active.Survives d.active
  flushing : Option.Rel DataFile.Survives s.crash.flushing d.flushing
  wal : ∃ more, more.Sublist (s.wal.drop s.walSynced) ∧ d.wal = s.wal.take s.walSynced ++ more
  metadata : d.metadata = s.metadata

/-- After `open` the byte is in a DIRTY block of the active file, or S3 has it. -/
def Survived (s : Cache g C) (d : Disk g.blockSize) (b i : Nat) (v : UInt8) : Prop :=
  ((openCache d s.store s.durable).states b = .dirty ∧
      ((openCache d s.store s.durable).active.cur b).get i = v) ∨
    (s.content s.durable b).get i = v

end Cache

def HostAct.step (s : Cache g C) (a : HostAct) : Option (Cache g C) :=
  match a with
  | .write offset data => s.fillAndPut (a.patch g) offset data.length
  | .writeReady offset data => s.write offset data
  | .claim b => if s.states b = .notPresent then some (s.setState b .clean) else none
  | .unclaim b => if s.states b = .clean then some (s.setState b .notPresent) else none
  | .fill b => if (s.states b).hasLocalData then none
      else s.fillAndPut (a.patch g) (a.range g).1 (a.range g).2
  | .zeroRange offset len => s.zeroRange offset len
  | .syncActive => some s.syncActive
  | .syncWal => some s.syncWal
  | .inner (.write _ _) | .inner (.zeroRange _ _) => none
  | .inner a => a.step s

/-- The conditions of recovery from a crash, for the steps here. -/
def HostAct.Recoverable (s : Cache g C) : HostAct → Prop
  | .inner a => a.Recoverable s
  | a => (a.range g).2 ≠ 0 → (s.claimed (a.claims g)).Loggable (a.blocks g)

/-- Of a block without local data that it has not claimed, a call leaves only what the active
    file has as S3 has it. -/
def HostAct.Filled (s : Cache g C) (a : HostAct) : Prop :=
  (a.range g).2 ≠ 0 → ∀ b ∈ a.blocks g, b ∉ a.claims g → ¬s.Present b →
    a.patch g b ((s.promoteBlock b).active.cur b) = a.patch g b (s.content s.volumeManifest b)

/-! ## Claims -/

/-- The states differ in blocks without local data only. -/
def Cache.Recast (s : Cache g C) (states : StateMap) : Prop :=
  ∀ b, states b = s.states b ∨ ((s.states b).hasLocalData = false ∧ (states b).hasLocalData = false)

namespace Cache.Recast

variable {states : StateMap}

theorem claimed (s : Cache g C) (bs : List Nat) : s.Recast (s.claimed bs).states := by
  intro b
  by_cases moved : b ∈ bs ∧ s.states b = .notPresent
  · exact .inr ⟨by rw [moved.2]; rfl, by simp [Cache.claimed, moved, SparseBlockState.hasLocalData]⟩
  · exact .inl (if_neg moved)

theorem setState {b : Nat} {st : SparseBlockState} (absent : (s.states b).hasLocalData = false)
    (no : st.hasLocalData = false) : s.Recast (s.setState b st).states := by
  intro b'
  by_cases here : b' = b
  · subst here
    exact .inr ⟨absent, by simp [Cache.setState, no]⟩
  · exact .inl (Function.update_of_ne here _ _)

theorem present (r : s.Recast states) (b : Nat) :
    { s with states }.Present b ↔ s.Present b := by
  change (states b).hasLocalData = true ↔ (s.states b).hasLocalData = true
  rcases r b with same | ⟨before, after⟩
  · rw [same]
  · rw [before, after]

theorem eq_iff (r : s.Recast states) (b : Nat) {st : SparseBlockState}
    (has : st.hasLocalData = true) : states b = st ↔ s.states b = st := by
  rcases r b with same | ⟨before, after⟩
  · rw [same]
  · constructor <;> rintro rfl <;> simp_all

theorem dataInv (r : s.Recast states) (h : DataInv s) : DataInv { s with states } := by
  have dirty (b : Nat) : states b = .dirty ↔ s.states b = .dirty := r.eq_iff b rfl
  have syncing (b : Nat) : states b = .syncing ↔ s.states b = .syncing := r.eq_iff b rfl
  refine ⟨fun b range => ?_, fun idle none => ?_, fun run at_run => ?_⟩
  · have ok := h.blocks b range
    rcases r b with same | ⟨before, after⟩
    · exact ok.local rfl rfl rfl same rfl rfl
    · exact (blockOk_absent (s := { s with states }) after).mpr ((blockOk_absent before).mp ok)
  · have held := h.idle idle none
    simpa only [Held, NoSyncing, Holding, ne_eq, syncing] using held
  · have stage := h.stage run at_run
    cases at_stage : run.stage <;> rw [at_stage] at stage <;>
      simpa only [StageData, Held, Holding, NoSyncing, NoDirty, Claims, SyncingIn, Idle, ne_eq,
        dirty, syncing] using stage

theorem crashInv (r : s.Recast states) (h : CrashInv s) : CrashInv { s with states } where
  remote := h.remote.quiet rfl h.remote.stage
  data := r.dataInv h.data
  inS3 := h.inS3.frame rfl rfl fun b => (r.present b).mpr
  record := h.record.same rfl rfl rfl fun b _ => (r.present b).mp
  running := ⟨h.running.named, h.running.remaining⟩

end Cache.Recast

/-- A step of the host writes a range, claims or gives up a block, syncs, or is a step of the
    cache. -/
inductive HostStep (s : Cache g C) : HostAct → Cache g C → Prop
  | put {a : HostAct} {patch : Patch g} {t : Cache g C}
      (how : (patch = a.patch g ∧ a.claims g = []) ∨
        (patch = s.backfilled (a.patch g) ∧ a.claims g = a.blocks g))
      (done : (s.claimed (a.claims g)).putRange patch (a.range g).1 (a.range g).2 = some t)
      (outer : ∀ i, a ≠ .inner i) : HostStep s a t
  | recast {a : HostAct} {b : Nat} {states : StateMap} (which : a = .claim b ∨ a = .unclaim b)
      (same : s.Recast states) : HostStep s a { s with states }
  | syncActive : HostStep s .syncActive s.syncActive
  | syncWal : HostStep s .syncWal s.syncWal
  | inner {a : Act} {t : Cache g C} (quiet : a.Internal) (taken : a.step s = some t) :
      HostStep s (.inner a) t

theorem claimed_nil (s : Cache g C) : s.claimed [] = s := by
  simp [Cache.claimed]

theorem host_cases {a : HostAct} (taken : a.step s = some t) : HostStep s a t := by
  cases a with
  | write offset data => exact .put (.inr ⟨rfl, rfl⟩) taken nofun
  | fill b =>
    obtain ⟨-, done⟩ := Option.ite_none_left_eq_some.mp taken
    exact .put (.inr ⟨rfl, rfl⟩) done nofun
  | writeReady offset data | zeroRange offset len =>
    exact .put (.inl ⟨rfl, rfl⟩) ((claimed_nil s).symm ▸ taken) nofun
  | claim b =>
    obtain ⟨absent, ⟨⟩⟩ := Option.ite_none_right_eq_some.mp taken
    exact .recast (.inl rfl) (.setState (by rw [absent]; rfl) rfl)
  | unclaim b =>
    obtain ⟨clean, ⟨⟩⟩ := Option.ite_none_right_eq_some.mp taken
    exact .recast (.inr rfl) (.setState (by rw [clean]; rfl) rfl)
  | syncActive => cases taken; exact .syncActive
  | syncWal => cases taken; exact .syncWal
  | inner a =>
    cases a with
    | write offset data | zeroRange offset len => cases taken
    | _ => exact .inner ⟨nofun, nofun⟩ taken

/-- The invariant of recovery, with the log synced up to some entry. -/
structure HostInv (s : Cache g C) : Prop where
  crash : CrashInv s
  synced : s.walSynced ≤ s.wal.length

theorem step_synced (data : DataInv s) (h : s.walSynced ≤ s.wal.length) {a : Act}
    (copies : a.Copies) (quiet : a.Internal) (taken : a.step s = some t) :
    t.walSynced ≤ t.wal.length := by
  obtain ⟨u, done, same⟩ := step_log data copies quiet taken
  rw [same.synced, (Prod.mk.inj same.log).1]
  cases done with
  | truncate at_run covered => exact le_rfl
  | _ => exact h

theorem putRange_crashInv (h : CrashInv s) {patch : Patch g} {offset len : Nat}
    (ok : len ≠ 0 → s.Loggable (blocksIn g offset len))
    (done : s.putRange patch offset len = some t) : CrashInv t := by
  have l := local_putRange done
  obtain ⟨log, exclusive⟩ := putRange_logInv h.record.log h.record.exclusive ok done
  exact
    { remote := h.remote.local l
      data := putRange_keeps putBlock_dataInv h.data done
      inS3 := putRange_keeps putBlock_inS3 h.inS3 done
      record := ⟨log, exclusive⟩
      running := ⟨l.activeName.trans h.running.named, l.remaining.trans h.running.remaining⟩ }

/-- A write only appends to the log. -/
theorem putBlock_wal (patch : Patch g) (s : Cache g C) (b : Nat) :
    s.wal <+: (putBlock patch s b).wal := by
  have log : (putBlock patch s b).wal = _ :=
    (walAppendAndMarkDirty_log ((s.promoteBlock b).writeActive b _) b).1
  have same : (s.promoteBlock b).wal = s.wal :=
    (Prod.mk.inj (shifts_promoteBlock s b).log).1
  rw [log]
  change s.wal <+: if _ then (s.promoteBlock b).wal else (s.promoteBlock b).wal ++ _
  rw [same]
  split
  · exact List.prefix_rfl
  · exact List.prefix_append _ _

theorem putRange_wal {patch : Patch g} {offset len : Nat}
    (done : s.putRange patch offset len = some t) : s.wal <+: t.wal :=
  putRange_keeps (P := fun u => s.wal <+: u.wal)
    (fun patch u b grown => grown.trans (putBlock_wal patch u b)) List.prefix_rfl done

theorem HostAct.Recoverable.loggable {a : HostAct} (ok : a.Recoverable s)
    (some : (a.range g).2 ≠ 0) : (s.claimed (a.claims g)).Loggable (a.blocks g) := by
  cases a with
  | inner a => exact absurd rfl some
  | _ => exact ok some

theorem HostAct.write_recoverable {offset : Nat} {data : List UInt8}
    (room : s.sequence + (blocksIn g offset data.length).length ≤ u64Max) :
    (HostAct.write offset data).Recoverable s := by
  refine fun _ => ⟨fun b mem absent => ?_, room⟩
  have claimed : (if b ∈ _ ∧ s.states b = .notPresent then _ else _) = _ := absent
  split at claimed
  · cases claimed
  · rename_i other
    exact absurd ⟨mem, claimed⟩ other

theorem HostAct.write_filled (s : Cache g C) (offset : Nat) (data : List UInt8) :
    (HostAct.write offset data).Filled s :=
  fun _ _ mem other _ => absurd mem other

theorem host_inv (h : HostInv s) {a : HostAct} (ok : a.Recoverable s)
    (taken : a.step s = some t) : HostInv t := by
  cases host_cases taken with
  | put how done =>
    have crash := (Recast.claimed s (a.claims g)).crashInv h.crash
    refine ⟨putRange_crashInv crash ok.loggable done, ?_⟩
    rw [(local_putRange done).walSynced]
    exact h.synced.trans (putRange_wal done).length_le
  | recast which same => exact ⟨same.crashInv h.crash, h.synced⟩
  | syncActive =>
    have crash := h.crash
    exact ⟨⟨crash.remote.quiet rfl crash.remote.stage,
      ⟨crash.data.blocks, crash.data.idle, crash.data.stage⟩, crash.inS3,
      crash.record.same rfl rfl rfl fun b _ now => now,
      ⟨crash.running.named, crash.running.remaining⟩⟩, h.synced⟩
  | syncWal =>
    have crash := h.crash
    exact ⟨⟨crash.remote.quiet rfl crash.remote.stage,
      ⟨crash.data.blocks, crash.data.idle, crash.data.stage⟩, crash.inS3,
      crash.record.same rfl rfl rfl fun b _ now => now,
      ⟨crash.running.named, crash.running.remaining⟩⟩, le_rfl⟩
  | inner quiet taken => exact ⟨step_crashInv h.crash ok taken, step_synced h.crash.data h.synced ok.copies quiet taken⟩

theorem openCache_hostInv (d : Disk g.blockSize) (v : Volume C) :
    HostInv (openCache d v.store v.manifest) :=
  ⟨openCache_crashInv d v, le_rfl⟩

end GlideFS.WriteCache
