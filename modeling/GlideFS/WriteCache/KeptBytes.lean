import Mathlib.Data.List.Infix
import GlideFS.WriteCache.PowerLoss

/-! # Flushed bytes are kept

`WriteCache::flush` syncs the active file and then the log. A byte the guest wrote
before is then either in S3, or it is synced in the file that has its block and the
block is recorded in the synced part of the disk. Later steps keep this, with two
exceptions that are conditions here: bytes that were already in an unsynced flushing
file when the active file was synced, and bytes that are copied from the flushing
file back to the active file, which nobody syncs before the flushing file goes.
-/

namespace GlideFS.WriteCache

open Block Lib Cache

variable {Hash PackId : Type} [DecidableEq Hash] [DecidableEq PackId] {g : Geometry}
  {C : Codec (BlockData g.blockSize) Hash PackId} {s t u : Cache g C}

/-! ## One block of a write -/

namespace Cache

/-- The block has the same state, contents and versions in both caches. -/
structure SameAt (s t : Cache g C) (b : Nat) : Prop where
  state : t.states b = s.states b
  cur : t.active.cur b = s.active.cur b
  unsynced : t.active.unsynced b = s.active.unsynced b
  acked : t.acked b = s.acked b

namespace SameAt

variable {b : Nat}

theorem refl (s : Cache g C) (b : Nat) : SameAt s s b := ⟨rfl, rfl, rfl, rfl⟩

theorem trans (first : SameAt s t b) (second : SameAt t u b) : SameAt s u b :=
  ⟨second.state.trans first.state, second.cur.trans first.cur,
    second.unsynced.trans first.unsynced, second.acked.trans first.acked⟩

theorem foldl {f : Cache g C → Nat → Cache g C} {bs : List Nat}
    (each : ∀ u b', b' ∈ bs → SameAt s u b → SameAt u (f u b') b) (start : SameAt s u b) :
    SameAt s (bs.foldl f u) b := by
  induction bs generalizing u with
  | nil => exact start
  | cons first rest ih =>
    exact ih (fun u b' mem => each u b' (List.mem_cons_of_mem first mem))
      (start.trans (each u first List.mem_cons_self start))

end SameAt

theorem sameAt_writeActive {b b' : Nat} (other : b ≠ b') (d : BlockData g.blockSize) :
    SameAt s (s.writeActive b' d) b :=
  ⟨rfl, Function.update_of_ne other _ _, Function.update_of_ne other _ _, rfl⟩

theorem sameAt_toDirty {b b' : Nat} (other : b ≠ b' ∨ s.states b = .dirty) :
    SameAt s (s.transitionToDirty b') b := by
  refine ⟨?_, by rw [transitionToDirty_active], by rw [transitionToDirty_active],
    by rw [transitionToDirty_acked]⟩
  rw [transitionToDirty_states, Function.update_apply]
  split
  · rename_i here
    exact (other.resolve_left fun ne => ne here).symm
  · rfl

theorem sameAt_promote {b b' : Nat} (other : b ≠ b') : SameAt s (s.promoteBlock b') b := by
  cases promoteBlock_cases s b' with
  | inl unmoved => exact unmoved.1.symm ▸ .refl s b
  | inr moved =>
    obtain ⟨f, _, _, moved⟩ := moved
    rw [moved]
    exact (sameAt_writeActive other _).trans (sameAt_toDirty (Or.inl other))

theorem sameAt_putBlock (patch : Patch g) {b b' : Nat} (other : b ≠ b') :
    SameAt s (putBlock patch s b') b := by
  have data := walAppendAndMarkDirty_data
    ((s.promoteBlock b').writeActive b' (patch b' ((s.promoteBlock b').active.cur b'))) b'
  have moved := (sameAt_promote (s := s) other).trans (sameAt_writeActive other
    (patch b' ((s.promoteBlock b').active.cur b')))
  refine moved.trans ⟨?_, ?_, ?_, ?_⟩
  · change (walAppendAndMarkDirty _ b').states b = _
    rw [data.1, Function.update_of_ne other]
  · change (walAppendAndMarkDirty _ b').active.cur b = _
    rw [data.2.1]
  · change (walAppendAndMarkDirty _ b').active.unsynced b = _
    rw [data.2.1]
  · change Function.update (walAppendAndMarkDirty _ b').acked b' _ b = _
    rw [Function.update_of_ne other, data.2.2]

/-- What a write does to one block of its range, seen from a cache that has the block as it
    was. -/
theorem putBlocks_focus (patch : Patch g) {bs : List Nat} (distinct : bs.Nodup) (b : Nat) :
    (b ∉ bs → SameAt s (bs.foldl (putBlock patch) s) b) ∧
      (b ∈ bs → ∃ u, Local s u ∧ SameAt s u b ∧
        SameAt (putBlock patch u b) (bs.foldl (putBlock patch) s) b) := by
  induction bs generalizing s with
  | nil => exact ⟨fun _ => .refl s b, nofun⟩
  | cons first rest ih =>
    obtain ⟨new, distinct⟩ := List.nodup_cons.mp distinct
    obtain ⟨outside, inside⟩ := ih (s := putBlock patch s first) distinct
    constructor
    · intro absent
      rw [List.mem_cons, not_or] at absent
      exact (sameAt_putBlock patch absent.1).trans (outside absent.2)
    · intro mem
      by_cases here : b = first
      · subst here
        exact ⟨s, .refl s, .refl s b, outside new⟩
      · obtain ⟨u, l, same, rest⟩ := inside ((List.mem_cons.mp mem).resolve_left here)
        exact ⟨u, (local_putBlock patch s first).trans l,
          (sameAt_putBlock patch here).trans same, rest⟩

theorem blocksIn_nodup (g : Geometry) (offset len : Nat) : (blocksIn g offset len).Nodup :=
  List.nodup_range'

/-- A block that is not promoted is overwritten in place. -/
theorem putBlock_unpromoted (patch : Patch g) {b : Nat} (same : s.promoteBlock b = s) :
    (putBlock patch s b).states b = .dirty ∧
      (putBlock patch s b).active.cur b = patch b (s.active.cur b) ∧
      (putBlock patch s b).active.unsynced b = s.active.versions b ∧
      (putBlock patch s b).acked b = patch b (s.base b) := by
  have data := walAppendAndMarkDirty_data
    ((s.promoteBlock b).writeActive b (patch b ((s.promoteBlock b).active.cur b))) b
  rw [same] at data
  refine ⟨?_, ?_, ?_, ?_⟩
  · rw [putBlock_states, Function.update_self]
  · rw [putBlock_cur, Function.update_self, same]
  · unfold putBlock
    rw [same]
    change (walAppendAndMarkDirty _ b).active.unsynced b = _
    rw [data.2.1]
    exact Function.update_self _ _ _
  · rw [putBlock_acked, Function.update_self]

end Cache

variable {b i : Nat} {a : HostAct} {v : UInt8} {patch : Patch g} {plans : List (ChunkPlan C)}

/-- Bytes outside the range stay. -/
theorem overwrite_outside {offset len : Nat} {src : Nat → UInt8} {old : BlockData g.blockSize}
    (outside : ¬(offset ≤ b * g.blockSize + i ∧ b * g.blockSize + i < offset + len)) :
    (overwrite g offset len src b old).get i = old.get i := by
  by_cases inside : i < g.blockSize
  · have here : (overwrite g offset len src b old).get i =
        overlay offset len src (fun k => old.get (k - b * g.blockSize)) (b * g.blockSize + i) :=
      dif_pos inside
    rw [here, overlay_outside outside, Nat.add_sub_cancel_left]
  · unfold BlockData.get
    rw [dif_neg inside, dif_neg inside]

/-- A range changes nothing in the blocks it does not touch. -/
theorem overwrite_untouched {offset len : Nat} {src : Nat → UInt8} {old : BlockData g.blockSize}
    (away : len = 0 ∨ b ∉ blocksIn g offset len) : overwrite g offset len src b old = old := by
  refine BlockData.ext_get fun i inside => overwrite_outside fun covered => ?_
  refine away.elim (by omega) fun absent => absent ?_
  have here : (b * g.blockSize + i) / g.blockSize = b := by
    rw [Nat.mul_comm, Nat.mul_add_div g.blockSize_pos, Nat.div_eq_of_lt inside, Nat.add_zero]
  have first : offset / g.blockSize ≤ b := here ▸ Nat.div_le_div_right covered.1
  have last : b ≤ (offset + len - 1) / g.blockSize :=
    here ▸ Nat.div_le_div_right (Nat.le_sub_one_of_lt covered.2)
  refine List.mem_range'_1.mpr ⟨first, ?_⟩
  omega

/-! ## A byte that is kept -/

/-- No version of the byte differs from the current one. -/
def DataFile.Stable {n : Nat} (f : DataFile n) (b i : Nat) : Prop := f.Shows b i ((f.cur b).get i)

namespace Cache

/-- The byte a flush works on, as long as it may still store the block. -/
def StageByte (s : Cache g C) (b i : Nat) (v : UInt8) : FlushStage C g → Prop
  | .rotated claim | .uploading claim _ _ | .putting claim _ | .evicting claim _ =>
      b ∈ claim.blocks → ∀ f, s.flushingFile = some f → (f.cur b).get i = v
  | _ => True

/-- S3 has the byte, and no flush on its way has another one. -/
structure Anchored (s : Cache g C) (b i : Nat) (v : UInt8) : Prop where
  manifest : (s.content s.volumeManifest b).get i = v
  durable : (s.content s.durable b).get i = v
  stage : ∀ r, s.flush = some r → s.StageByte b i v r.stage

/-- The byte is synced in the file that has its block. -/
structure Steady (s : Cache g C) (b i : Nat) (v : UInt8) : Prop where
  present : s.Present b
  active : s.active.Stable b i
  flushing : s.states b = .syncing → ∀ f, s.flushingPath = some f → f.Shows b i v

/-- The cache with the synced part of its log. -/
def synced (s : Cache g C) : Cache g C := { s with wal := s.wal.take s.walSynced }

/-- Metadata and synced log record the block, and will after the running checkpoint. -/
structure SyncedRecord (s : Cache g C) (b : Nat) : Prop where
  recorded : s.synced.Recorded b
  ckpt : ∀ run, s.ckpt = some run → match run.stage with
    | .copying next copy => b < next → s.synced.Covered copy run.coveredSeq b
    | .sealed saved => s.synced.Covered saved.states run.coveredSeq b
    | .published => s.synced.Covered s.loaded.states run.coveredSeq b

/-- A flush of the cache file, and with `logged` also of the log, has taken the byte. -/
structure Kept (logged : Prop) (s : Cache g C) (b i : Nat) (v : UInt8) : Prop where
  acked : (s.acked b).get i = v
  place : s.Anchored b i v ∨ s.Steady b i v ∧ (logged → s.SyncedRecord b)

end Cache

/-- The act overwrites the byte. -/
def HostAct.Covers (g : Geometry) (b i : Nat) : HostAct → Prop
  | .fill _ => False
  | a => (a.range g).1 ≤ b * g.blockSize + i ∧
      b * g.blockSize + i < (a.range g).1 + (a.range g).2

/-- The step copies the block from the flushing file to the active file: a promotion, a block
    skipped for its CRC, or the recovery of a failed flush. -/
def HostAct.MovesBack (s : Cache g C) (b : Nat) (a : HostAct) : Prop :=
  s.states b = .syncing ∧ match a with
    | .inner (.compute _ skipped _) => b ∈ skipped
    | .inner (.copyBack _) => True
    | .inner _ => False
    | a => s.flushingFile.isSome = true ∧ (a.range g).2 ≠ 0 ∧ b ∈ a.blocks g

def HostAct.Untouched (b i : Nat) (s : Cache g C) (a : HostAct) : Prop :=
  a.Recoverable s ∧ a.Filled s ∧ ¬a.Covers g b i

def HostAct.Keeps (b i : Nat) (s : Cache g C) (a : HostAct) : Prop :=
  a.Untouched b i s ∧ ¬a.MovesBack s b

theorem HostAct.patch_outside (outside : ¬a.Covers g b i) (old : BlockData g.blockSize) :
    (a.patch g b old).get i = old.get i := by
  cases a with
  | write offset data | writeReady offset data | zeroRange offset len =>
    exact overwrite_outside outside
  | _ => rfl

theorem HostAct.patch_untouched (away : ¬((a.range g).2 ≠ 0 ∧ b ∈ a.blocks g))
    (old : BlockData g.blockSize) : a.patch g b old = old := by
  rw [not_and_or, not_not] at away
  cases a with
  | write offset data | writeReady offset data | zeroRange offset len =>
    exact overwrite_untouched away
  | _ => rfl

theorem Cache.Steady.frame (h : s.Steady b i v) (same : SameAt s t b)
    (path : ∀ f, t.flushingPath = some f → s.flushingPath = some f) : t.Steady b i v where
  present := by
    unfold Present
    rw [same.state]
    exact h.present
  active := by
    unfold DataFile.Stable DataFile.Shows DataFile.versions
    rw [same.cur, same.unsynced]
    exact h.active
  flushing syncing f found := h.flushing (same.state.symm.trans syncing) f (path f found)

/-- A write beside the byte. -/
theorem put_steady {offset len : Nat} (h : s.Steady b i v)
    (beside : ∀ old, (patch b old).get i = old.get i)
    (unmoved : ¬(s.states b = .syncing ∧ s.flushingFile.isSome = true ∧ len ≠ 0 ∧ b ∈ blocksIn g offset len))
    (done : s.putRange patch offset len = some t) : t.Steady b i v := by
  have l := local_putRange done
  have path : ∀ f, t.flushingPath = some f → s.flushingPath = some f :=
    fun f found => l.flushingPath ▸ found
  cases putRange_some done with
  | inl same =>
    rw [same.2]
    exact h
  | inr put =>
    obtain ⟨nonempty, rfl, _⟩ := put
    obtain ⟨away, focus⟩ := putBlocks_focus (s := s) patch (blocksIn_nodup g offset len) b
    by_cases mem : b ∈ blocksIn g offset len
    · obtain ⟨u, local_u, same, after⟩ := focus mem
      have unpromoted : u.promoteBlock b = u := by
        cases promoteBlock_cases u b with
        | inl stays => exact stays.1
        | inr moved =>
          obtain ⟨f, handle, state, _⟩ := moved
          rw [same.state] at state
          rw [local_u.flushingFile] at handle
          have present := h.present
          unfold Present at present
          cases state with
          | inl syncing => exact absurd ⟨syncing, by rw [handle]; rfl, nonempty, mem⟩ unmoved
          | inr absent => rw [absent.1] at present; cases present
      obtain ⟨state, cur, unsynced, _⟩ := putBlock_unpromoted patch unpromoted
      have kept : ((s.putBlocks patch offset len).active.cur b).get i =
          (s.active.cur b).get i := by
        unfold putBlocks
        rw [after.cur, cur, same.cur, beside]
      refine ⟨?_, ?_, fun syncing => ?_⟩
      · unfold Present putBlocks
        rw [after.state, state]
        rfl
      · intro d listed
        rw [kept]
        cases List.mem_cons.mp listed with
        | inl now => rw [now, kept]
        | inr old =>
          unfold putBlocks at old
          rw [after.unsynced, unsynced, DataFile.versions, same.cur, same.unsynced] at old
          exact h.active d old
      · unfold putBlocks at syncing
        rw [after.state, state] at syncing
        cases syncing
    · exact h.frame (away mem) path

theorem Cache.SameAt.base (same : SameAt s t b) (l : Local s t) : t.base b = s.base b := by
  have promoted : (t.promoteBlock b).active.cur b = (s.promoteBlock b).active.cur b := by
    unfold promoteBlock
    rw [same.state, l.flushingFile]
    cases s.flushingFile with
    | none => exact same.cur
    | some f =>
      cases s.states b with
      | dirty | clean => exact same.cur
      | syncing => simp [transitionToDirty_active, writeActive, DataFile.writeBlock]
      | notPresent =>
        dsimp only
        split
        · exact same.cur
        · simp [transitionToDirty_active, writeActive, DataFile.writeBlock]
  unfold Cache.base
  rw [same.state, same.acked, promoted]

/-- A write to a range patches what it finds. -/
theorem put_acked {offset len : Nat} (done : s.putRange patch offset len = some t) :
    t.acked b = if len ≠ 0 ∧ b ∈ blocksIn g offset len then patch b (s.base b) else s.acked b := by
  cases putRange_some done with
  | inl same => rw [same.2, if_neg fun some => some.1 same.1]
  | inr put =>
    obtain ⟨nonempty, rfl, _⟩ := put
    obtain ⟨away, focus⟩ := putBlocks_focus (s := s) patch (blocksIn_nodup g offset len) b
    unfold putBlocks
    split
    · rename_i inside
      obtain ⟨u, l, same, after⟩ := focus inside.2
      rw [after.acked, putBlock_acked, Function.update_self, same.base l]
    · rename_i outside
      exact (away fun mem => outside ⟨nonempty, mem⟩).acked

/-- What the act makes of the bytes the guest wrote before. -/
theorem host_put_acked (data : DataInv s) (range : g.InRange b) (filled : a.Filled s)
    (how : (patch = a.patch g ∧ a.claims g = []) ∨ (patch = s.backfilled (a.patch g) ∧ a.claims g = a.blocks g))
    (done : (s.claimed (a.claims g)).putRange patch (a.range g).1 (a.range g).2 = some t) :
    t.acked b = a.patch g b (s.acked b) := by
  rw [put_acked done]
  split
  · rename_i inside
    rcases how with ⟨rfl, none⟩ | ⟨rfl, -⟩
    · rw [none, claimed_nil]
      by_cases present : s.Present b
      · exact congrArg (a.patch g b) (if_pos present)
      · rw [← data.content range present]
        exact (congrArg (a.patch g b) (if_neg present)).trans
          (filled inside.1 b inside.2 (none ▸ List.not_mem_nil) present)
    · refine congrArg (a.patch g b) ?_
      by_cases present : s.Present b
      · have still : (s.claimed (a.claims g)).Present b :=
          ((Recast.claimed s (a.claims g)).present b).mpr present
        exact (if_pos present).trans (if_pos still)
      · exact (if_neg present).trans (data.content range present)
  · rename_i outside
    exact (a.patch_untouched outside _).symm

/-! ## Flush steps beside the byte -/

theorem toDirty_steady {b' : Nat} (h : s.Steady b i v) : (s.transitionToDirty b').Steady b i v := by
  have l := (shifts_transitionToDirty s b').local
  by_cases other : b = b'
  · subst other
    refine ⟨?_, ?_, fun syncing => ?_⟩
    · unfold Present
      rw [transitionToDirty_states, Function.update_self]
      rfl
    · rw [transitionToDirty_active]
      exact h.active
    · rw [transitionToDirty_states, Function.update_self] at syncing
      cases syncing
  · exact h.frame (sameAt_toDirty (Or.inl other)) fun f found => l.flushingPath ▸ found

theorem redirty_steady (bs : List Nat) (h : s.Steady b i v) :
    (bs.foldl transitionToDirty s).Steady b i v := by
  induction bs generalizing s with
  | nil => exact h
  | cons first rest ih => exact ih (toDirty_steady h)

/-- Skipped blocks are other blocks, or DIRTY already. -/
theorem sameAt_unskip (f : DataFile g.blockSize) (bs : List Nat) (present : s.Present b)
    (kept : s.states b = .syncing → b ∉ bs) : SameAt s (bs.foldl (unskipBlock f []) s) b := by
  refine SameAt.foldl (fun u b' mem same => ?_) (.refl s b)
  unfold unskipBlock
  by_cases other : b = b'
  · subst other
    have dirty : u.states b = .dirty := by
      rw [same.state]
      unfold Present at present
      cases at_b : s.states b with
      | dirty => rfl
      | syncing => exact absurd mem (kept at_b)
      | clean | notPresent => rw [at_b] at present; cases present
    rw [if_neg (by rw [dirty]; simp)]
    exact sameAt_toDirty (Or.inr dirty)
  · split
    · rw [if_neg List.not_mem_nil]
      exact (sameAt_writeActive other _).trans (sameAt_toDirty (Or.inl other))
    · exact sameAt_toDirty (Or.inl other)

theorem sameAt_copyBack (claim : Claim g) (uncopied : List Nat) (other : s.states b ≠ .syncing) :
    SameAt s (s.copyBack claim uncopied) b := by
  unfold copyBack
  split
  · exact .refl s b
  · refine SameAt.foldl (fun u b' _ same => ?_) (.refl s b)
    unfold copyBackBlock
    split
    · rename_i syncing
      refine sameAt_writeActive (fun here => other ?_) _
      rw [← same.state, here, syncing]
    · exact .refl u b

/-- A synced active file becomes a synced flushing file. -/
theorem rotate_steady (data : DataInv s) (none : s.NoSyncing) (range : g.InRange b)
    (acked : (s.acked b).get i = v) (h : s.Steady b i v) (r : FlushRun C g) :
    (((s.setFlags true s.sequence).claimDirty.swapFiles).setStage r
      (.rotated s.dirtyBlocks)).Steady b i v := by
  have active := claimDirty_active (s.setFlags true s.sequence)
  have dirty : s.states b = .dirty := by
    have present := h.present
    unfold Present at present
    cases at_b : s.states b with
    | dirty => rfl
    | syncing => exact absurd at_b (none b range)
    | clean | notPresent => rw [at_b] at present; cases present
  have ok := data.blocks b range
  unfold BlockOk at ok
  rw [dirty] at ok
  refine ⟨?_, ?_, fun _ f found => ?_⟩
  · exact claimDirty_keeps (s := s.setFlags true s.sequence) h.present
  · intro d listed
    rw [List.mem_singleton.mp listed]
  · cases found
    rw [active]
    intro d listed
    rw [h.active d listed, ← acked, ← ok]

/-- A block that is evicted is in S3. -/
theorem evict_anchored (inv : CrashInv s) (range : g.InRange b) (acked : (s.acked b).get i = v)
    {r : FlushRun C g} {claim : Claim g} (at_r : s.flush = some r)
    (stage : r.stage = .evicting claim plans) (flushed : b ∈ flushedBlocks plans)
    (syncing : s.states b = .syncing) :
    ((s.evictBlocks (flushedBlocks plans)).setStage r (.checkpointing false)).Anchored b i v := by
  have readable := inv.remote.stage r at_r
  rw [stage] at readable
  obtain ⟨⟨f, handle, memory⟩, stored⟩ := readable
  obtain ⟨f', handle', durable⟩ := stored trivial
  have l := (shifts_evictBlocks s (flushedBlocks plans)).local
  have ok := inv.data.blocks b range
  unfold BlockOk at ok
  rw [syncing] at ok
  refine ⟨?_, ?_, fun r' at_r' => by cases at_r'; trivial⟩
  · change ((s.evictBlocks _).content (s.evictBlocks _).volumeManifest b).get i = v
    unfold content
    rw [l.store, l.volumeManifest, memory b flushed, ← acked, ← ok.1 f handle]
    rfl
  · change ((s.evictBlocks _).content (s.evictBlocks _).durable b).get i = v
    unfold content
    rw [l.store, l.durable, durable b flushed, ← acked, ← ok.1 f' handle']
    rfl

theorem inner_steady (inv : CrashInv s) (range : g.InRange b) (acked : (s.acked b).get i = v)
    (h : s.Steady b i v) {a : Act} (quiet : a.Internal) (copies : a.Copies)
    (unmoved : ¬(HostAct.inner a).MovesBack s b) (taken : a.step s = some t) :
    t.Steady b i v ∨ t.Anchored b i v := by
  cases step_cases taken with
  | write done => exact absurd rfl (quiet.1 _ _)
  | zeroRange done => exact absurd rfl (quiet.2 _ _)
  | rotate at_r named =>
    exact Or.inl (rotate_steady inv.data (inv.data.stage _ at_r) range acked h _)
  | @compute _ _ claim f _ _ skipped _ at_r nonempty handle computed =>
    cases copies
    have l := (shifts_unskip f [] s (claim.blocks.filter (· ∈ skipped))).local
    have same := sameAt_unskip f (claim.blocks.filter (· ∈ skipped)) h.present
      fun syncing mem => unmoved ⟨syncing, of_decide_eq_true (List.mem_filter.mp mem).2⟩
    exact Or.inl (h.frame ⟨same.state, same.cur, same.unsynced, same.acked⟩
      fun f found => l.flushingPath ▸ found)
  | @evict _ _ _ plans at_r =>
    have l := shifts_evictBlocks s (flushedBlocks plans)
    have active := evictBlocks_active s (flushedBlocks plans)
    have state := evictBlocks_states s (flushedBlocks plans) b
    by_cases evicted : b ∈ flushedBlocks plans ∧ s.states b = .syncing
    · exact Or.inr (evict_anchored inv range acked at_r rfl evicted.1 evicted.2)
    · rw [if_neg evicted] at state
      exact Or.inl (h.frame ⟨state, congrArg (fun f => f.cur b) active,
        congrArg (fun f => f.unsynced b) active, congrFun l.acked b⟩
        fun f found => l.local.flushingPath ▸ found)
  | @copyBack _ _ claim uncopied at_r =>
    have l := (shifts_copyBack s claim uncopied).local
    have same := sameAt_copyBack claim uncopied
      fun syncing => unmoved ⟨syncing, trivial⟩
    exact Or.inl (h.frame ⟨same.state, same.cur, same.unsynced, same.acked⟩
      fun f found => l.flushingPath ▸ found)
  | @strand _ _ claim recovered at_r =>
    obtain ⟨_, _, syncingIn, _⟩ := inv.data.stage _ at_r
    rw [strand_all claim.inRange syncingIn]
    exact Or.inl (h.frame ⟨rfl, rfl, rfl, rfl⟩ fun f found => found)
  | @redirty _ _ recovered at_r =>
    exact Or.inl ((redirty_steady recovered h).frame ⟨rfl, rfl, rfl, rfl⟩ fun f found => found)
  | removeOrphan at_r =>
    exact Or.inl (h.frame ⟨rfl, rfl, rfl, rfl⟩ nofun)
  | removeEmpty at_r | deleteFile at_r | unlink at_r | syncDelete at_r | dropDeleting at_r waits =>
    split
    · exact Or.inl (h.frame ⟨rfl, rfl, rfl, rfl⟩ nofun)
    · exact Or.inl (h.frame ⟨rfl, rfl, rfl, rfl⟩ fun f found => found)
  | dropPutting at_r waits =>
    split <;> exact Or.inl (h.frame ⟨rfl, rfl, rfl, rfl⟩ fun f found => found)
  | _ => exact Or.inl (h.frame ⟨rfl, rfl, rfl, rfl⟩ fun f found => found)

/-- The guest's bytes only change with a write. -/
theorem inner_acked {a : Act} (quiet : a.Internal) (taken : a.step s = some t) :
    t.acked = s.acked := by
  cases step_cases taken with
  | write done => exact absurd rfl (quiet.1 _ _)
  | zeroRange done => exact absurd rfl (quiet.2 _ _)
  | rotate at_r named => exact (shifts_claimDirty (s.setFlags true s.sequence)).acked
  | compute at_r nonempty handle computed => exact (shifts_unskip _ _ s _).acked
  | evict at_r => exact (shifts_evictBlocks s _).acked
  | copyBack at_r => exact (shifts_copyBack s _ _).acked
  | strand at_r => exact (shifts_strand _ s _).acked
  | redirty at_r => exact (shifts_redirty s _).acked
  | removeEmpty at_r | deleteFile at_r | unlink at_r | syncDelete at_r | dropDeleting at_r waits
  | dropPutting at_r waits => split <;> rfl
  | _ => rfl

/-! ## Bytes in S3 -/

/-- The flush is at a stage that stores nothing more. -/
theorem Cache.Anchored.quiet (h : s.Anchored b i v) (same : t.remote = s.remote)
    (stage : ∀ r, t.flush = some r → t.StageByte b i v r.stage) : t.Anchored b i v where
  manifest := (congrArg (BlockData.get · i) (content_memory same b)).trans h.manifest
  durable := (congrArg (BlockData.get · i) (content_durable same b)).trans h.durable
  stage

theorem Cache.Anchored.local (h : s.Anchored b i v) (l : Local s t) : t.Anchored b i v := by
  refine h.quiet l.remote fun r at_r => ?_
  have before := h.stage r (l.flush ▸ at_r)
  unfold StageByte at before ⊢
  rw [l.flushingFile]
  exact before

theorem Cache.Anchored.put (h : s.Anchored b i v) (outcome : PutOutcome)
    (same : t.remote = (s.putManifest outcome).remote)
    (stage : ∀ r, t.flush = some r → t.StageByte b i v r.stage) : t.Anchored b i v := by
  refine ⟨?_, ?_, stage⟩
  · exact (congrArg (BlockData.get · i) (content_memory same b)).trans h.manifest
  · refine (congrArg (BlockData.get · i) (content_durable same b)).trans ?_
    unfold putManifest content
    dsimp only
    split
    · exact h.durable
    · exact h.manifest

theorem uploadPack_content {m : VolumeManifest PackId} (backed : Backed s.store m)
    (p : ChunkPlan C) (b : Nat) : (s.uploadPack p).content m b = s.content m b :=
  congrArg (·.getD 0)
    (backed.resolve_extends (fun _ _ _ get => PackStore.streamChunkPack_keeps get) g b)

/-- What a flush appends for its blocks comes from the flushing file; other blocks stay. -/
theorem append_content {Q : Prop} (remote : RemoteInv Q s) (known : g.Addressable b)
    {pass : Option Nat} {claim : Claim g} {stats : FlushStats}
    (at_r : s.flush = some ⟨pass, .uploading claim plans [], stats⟩) :
    (b ∈ flushedBlocks plans → ∃ f, s.flushingFile = some f ∧
        s.content (appendStaged s.volumeManifest (staged s.volumeManifest plans)) b = f.cur b) ∧
      (b ∉ flushedBlocks plans →
        s.content (appendStaged s.volumeManifest (staged s.volumeManifest plans)) b =
          s.content s.volumeManifest b) := by
  obtain ⟨old, level, snap, up, inFlight, _, _⟩ := remote.stage _ at_r
  unfold content
  constructor
  · intro flushed
    obtain ⟨f, handle, resolves⟩ := inFlight.readable
    exact ⟨f, handle, by rw [resolves b flushed]; rfl⟩
  · intro other
    rw [inFlight.resolve_other known other]

/-- A flush appends nothing for the block, or its own bytes. -/
theorem append_anchored (inv : CrashInv s) (range : g.InRange b) (h : s.Anchored b i v)
    {pass : Option Nat} {claim : Claim g} {stats : FlushStats} {stage : FlushStage C g}
    (at_r : s.flush = some ⟨pass, .uploading claim plans [], stats⟩)
    (same : s.StageByte b i v (.uploading claim plans []) → s.StageByte b i v stage) :
    ((s.appendPacks (staged s.volumeManifest plans)).setStage
      ⟨pass, .uploading claim plans [], stats⟩ stage).Anchored b i v := by
  have byte := h.stage _ at_r
  obtain ⟨_, _, _, sub, _⟩ := inv.data.stage _ at_r
  obtain ⟨own, other⟩ := append_content inv.remote range.addressable at_r
  refine ⟨?_, h.durable, fun r' at_r' => ?_⟩
  · by_cases flushed : b ∈ flushedBlocks plans
    · obtain ⟨f, handle, appended⟩ := own flushed
      exact (congrArg (BlockData.get · i) appended).trans (byte (sub b flushed) f handle)
    · exact (congrArg (BlockData.get · i) (other flushed)).trans h.manifest
  · cases at_r'
    exact same byte

theorem endCkpt_stageByte (h : s.Anchored b i v) {run : CkptRun} {ok : Bool} {r : FlushRun C g}
    (at_r : (s.endCkpt run ok).flush = some r) : s.StageByte b i v r.stage := by
  obtain ⟨r', at_r', resumes⟩ := endCkpt_flush at_r
  have before := h.stage r' at_r'
  cases resumes with
  | clearing | deleting => trivial
  | same => exact before

theorem inner_anchored (inv : CrashInv s) (range : g.InRange b) (acked : (s.acked b).get i = v)
    (h : s.Anchored b i v) {a : Act} (quiet : a.Internal) (taken : a.step s = some t) :
    t.Anchored b i v := by
  cases step_cases taken with
  | write done => exact absurd rfl (quiet.1 _ _)
  | zeroRange done => exact absurd rfl (quiet.2 _ _)
  | ckptStart free | ckptCopy at_run more | ckptSeal at_run | ckptPublish at_run =>
    exact h.quiet rfl h.stage
  | ckptTruncate at_run covered | ckptKeep at_run | ckptFail at_run =>
    exact h.quiet rfl fun r at_r => endCkpt_stageByte h at_r
  | rotate at_r named =>
    refine h.quiet (shifts_claimDirty (s.setFlags true s.sequence)).remote fun r' at_r' => ?_
    cases at_r'
    intro mem f handle
    cases handle
    have ok := inv.data.blocks b range
    unfold BlockOk at ok
    rw [(mem_dirtyBlocks.mp mem).2] at ok
    rw [claimDirty_active (s.setFlags true s.sequence), ← acked, ← ok]
    rfl
  | @compute _ _ claim f _ _ skipped uncopied at_r nonempty handle computed =>
    have l := (shifts_unskip f uncopied s (claim.blocks.filter (· ∈ skipped))).local
    have byte := h.stage _ at_r
    refine h.quiet l.remote fun r' at_r' => ?_
    cases at_r'
    exact fun mem f' handle' => byte mem f' (l.flushingFile ▸ handle')
  | @upload _ _ _ _ _ p _ at_r at_k =>
    have byte := h.stage _ at_r
    refine ⟨?_, ?_, fun r' at_r' => ?_⟩
    · have memory := uploadPack_content inv.remote.manifest p b
      exact (congrArg (BlockData.get · i) memory).trans h.manifest
    · have stored := uploadPack_content inv.remote.durable p b
      exact (congrArg (BlockData.get · i) stored).trans h.durable
    · cases at_r'
      exact byte
  | appendNone at_r none | append at_r => exact append_anchored inv range h at_r id
  | put at_r =>
    have byte := h.stage _ at_r
    exact h.put .ok rfl fun r' at_r' => by cases at_r'; exact byte
  | publish at_r | syncPut at_r =>
    exact h.put .ok rfl fun r' at_r' => by cases at_r' <;> trivial
  | putFails outcome at_r | publishFails outcome at_r | syncPutFails outcome at_r =>
    exact h.put outcome rfl fun r' at_r' => by cases at_r' <;> trivial
  | evict at_r =>
    exact h.quiet (shifts_evictBlocks s _).remote fun r' at_r' => by cases at_r'; trivial
  | copyBack at_r =>
    exact h.quiet (shifts_copyBack s _ _).remote fun r' at_r' => by cases at_r'; trivial
  | strand at_r =>
    exact h.quiet (shifts_strand _ s _).remote fun r' at_r' => by cases at_r'; trivial
  | redirty at_r => exact h.quiet (shifts_redirty s _).remote nofun
  | removeEmpty at_r | deleteFile at_r | unlink at_r | syncDelete at_r | dropDeleting at_r waits =>
    split <;> exact h.quiet rfl fun r' at_r' => by cases at_r' <;> trivial
  | dropPutting at_r waits =>
    split
    · exact h.put .applied rfl nofun
    · exact h.quiet rfl nofun
  | _ => exact h.quiet rfl fun r' at_r' => by cases at_r' <;> trivial

/-! ## The synced part of the log -/

/-- Neither the synced log nor the metadata loses an entry. -/
theorem Cache.SyncedRecord.frame (h : s.SyncedRecord b) (wal : ∀ e ∈ s.synced.wal, e ∈ t.synced.wal)
    (metadata : t.metadata = s.metadata)
    (ckpt : ∀ run, t.ckpt = some run → ∃ awaited, s.ckpt = some { run with awaited }) :
    t.SyncedRecord b := by
  have same : t.loaded = s.loaded := congrArg loadMetadata metadata
  refine ⟨?_, fun run at_run => ?_⟩
  · have before := h.recorded
    unfold Recorded at before ⊢
    change t.synced.Covered t.loaded.states (walMinSeq t.loaded) b
    rw [same]
    exact before.frame wal
  · obtain ⟨awaited, before⟩ := ckpt run at_run
    have covers := h.ckpt { run with awaited } before
    cases stage : run.stage with
    | copying next copy =>
      simp only [stage] at covers
      exact fun below => (covers below).frame wal
    | sealed saved =>
      simp only [stage] at covers
      exact covers.frame wal
    | published =>
      simp only [stage] at covers
      dsimp only
      rw [same]
      exact covers.frame wal

theorem Cache.SyncedRecord.same (h : s.SyncedRecord b) (log : t.log = s.log)
    (synced : t.walSynced = s.walSynced) (metadata : t.metadata = s.metadata)
    (ckpt : ∀ run, t.ckpt = some run → ∃ awaited, s.ckpt = some { run with awaited }) :
    t.SyncedRecord b := by
  refine h.frame (fun e mem => ?_) metadata ckpt
  change e ∈ t.wal.take t.walSynced
  rw [(Prod.mk.inj log).1, synced]
  exact mem

/-- When the whole log is synced, every present block is recorded there. -/
theorem LogInv.syncWal (h : LogInv s) (range : g.InRange b) (present : s.Present b) :
    s.syncWal.SyncedRecord b := by
  have whole : ∀ e ∈ s.wal, e ∈ s.syncWal.synced.wal := by
    intro e mem
    change e ∈ s.wal.take s.wal.length
    rw [List.take_length]
    exact mem
  refine ⟨(h.recorded b range present).frame whole, fun run at_run => ?_⟩
  have covers := h.ckpt run at_run
  cases stage : run.stage with
  | copying next copy =>
    rw [stage] at covers
    exact fun below => (covers b range below present).frame whole
  | sealed saved =>
    rw [stage] at covers
    exact (covers.2 b range present).frame whole
  | published =>
    rw [stage] at covers
    exact (covers.2 b range present).frame whole

/-- A checkpoint step keeps a present block recorded. -/
theorem Cache.SyncedRecord.logStep (h : s.SyncedRecord b) (record : RecordInv s)
    (range : g.InRange b) (present : s.Present b) (done : LogStep s t) : t.SyncedRecord b := by
  cases done with
  | same => exact h
  | dropFlush =>
    refine h.same rfl rfl rfl fun run found => ?_
    obtain ⟨before, at_run, rfl⟩ := Option.map_eq_some_iff.mp found
    exact ⟨before.awaited, at_run⟩
  | newCkpt awaited =>
    refine ⟨h.recorded, fun run found => ?_⟩
    cases found
    exact fun below => absurd below (Nat.not_lt_zero b)
  | @copy mode coveredSeq next copy awaited at_run =>
    have covers := h.ckpt _ at_run
    refine ⟨h.recorded, fun run found => ?_⟩
    cases found
    intro below
    by_cases here : b = next
    · subst here
      refine Or.inl ?_
      rw [Function.update_self]
      exact present
    · have before := covers (by omega)
      unfold Covered at before ⊢
      rw [Function.update_of_ne here]
      exact before
  | sealed at_run =>
    have covers := h.ckpt _ at_run
    refine ⟨h.recorded, fun run found => ?_⟩
    cases found
    exact covers (lt_numBlocks.mpr range)
  | @publish mode coveredSeq saved awaited at_run =>
    have covers := h.ckpt _ at_run
    have number := (record.log.ckpt _ at_run).1
    refine ⟨?_, fun run found => ?_⟩
    · have weak := Covered.weaken covers ((walMinSeq_le saved).trans number.le)
      exact weak
    · cases found
      exact covers
  | @truncate mode coveredSeq awaited at_run covered =>
    have covers := h.ckpt _ at_run
    have number : s.sequence = coveredSeq := by
      cases covered with
      | inl exclusive => exact record.exclusive _ at_run exclusive
      | inr same => exact same
    refine ⟨?_, nofun⟩
    cases covers with
    | inl saved => exact Or.inl saved
    | inr logged =>
      obtain ⟨e, listed, _, above⟩ := logged
      have low := record.log.wal e (List.mem_of_mem_take listed)
      rw [number] at low
      exact absurd above (Nat.not_lt.mpr low)
  | ended at_run ok => exact h.same rfl rfl rfl nofun

theorem inner_syncedRecord (inv : CrashInv s) (range : g.InRange b) (present : s.Present b)
    (h : s.SyncedRecord b) {a : Act} (copies : a.Copies) (quiet : a.Internal)
    (taken : a.step s = some t) : t.SyncedRecord b := by
  obtain ⟨u, done, same⟩ := step_log inv.data copies quiet taken
  exact (h.logStep inv.record range present done).same same.log same.synced same.metadata
    fun run found => ⟨run.awaited, same.ckpt ▸ found⟩

theorem Cache.SyncedRecord.put (h : s.SyncedRecord b) {offset len : Nat}
    (done : s.putRange patch offset len = some t) : t.SyncedRecord b := by
  have l := local_putRange done
  refine h.frame (fun e mem => ?_) l.metadata fun run found => ⟨run.awaited, l.ckpt ▸ found⟩
  change e ∈ t.wal.take t.walSynced
  rw [l.walSynced]
  exact ((putRange_wal done).take s.walSynced).subset mem

/-! ## Any step -/

/-- What a host act makes of the bytes the guest wrote before. -/
def HostAct.effect (g : Geometry) (v : Nat → BlockData g.blockSize) (a : HostAct) :
    Nat → BlockData g.blockSize :=
  fun b => a.patch g b (v b)

theorem host_acked (data : DataInv s) (range : g.InRange b) (filled : a.Filled s)
    (taken : a.step s = some t) : t.acked b = a.effect g s.acked b := by
  cases host_cases taken with
  | put how done => exact host_put_acked data range filled how done
  | recast which same => rcases which with rfl | rfl <;> rfl
  | syncActive | syncWal => rfl
  | inner quiet taken => exact congrFun (inner_acked quiet taken) b

theorem host_kept (inv : HostInv s) {logged : Prop} (range : g.InRange b) (h : s.Kept logged b i v)
    (keeps : a.Keeps b i s) (taken : a.step s = some t) : t.Kept logged b i v := by
  obtain ⟨⟨ok, filled, outside⟩, unmoved⟩ := keeps
  have acked : (t.acked b).get i = v := by
    rw [host_acked inv.crash.data range filled taken]
    exact (a.patch_outside outside _).trans h.acked
  refine ⟨acked, ?_⟩
  cases host_cases taken with
  | @put _ patch _ how done =>
    have r := Recast.claimed s (a.claims g)
    refine h.place.imp (fun anchored => ?_) fun ⟨steady, record⟩ => ⟨?_, fun on => ?_⟩
    · exact Anchored.local (s := s.claimed (a.claims g))
        (anchored.quiet rfl anchored.stage) (local_putRange done)
    · have claimed : (s.claimed (a.claims g)).Steady b i v :=
        steady.frame ⟨(r b).resolve_right fun absent => ?_, rfl, rfl, rfl⟩ fun f found => found
      · refine put_steady claimed (fun old => ?_) (fun moves => unmoved ?_) done
        · rcases how with ⟨rfl, -⟩ | ⟨rfl, -⟩
          · exact a.patch_outside outside old
          · have present := steady.present
            unfold Present at present
            unfold backfilled
            rw [if_pos present, a.patch_outside outside]
        · refine ⟨(r.eq_iff b rfl).mp moves.1, ?_⟩
          cases a with
          | inner a => exact absurd rfl moves.2.2.1
          | _ => exact moves.2
      · exact absurd (steady.present.symm.trans absent.1) nofun
    · exact SyncedRecord.put (s := s.claimed (a.claims g))
        ((record on).same rfl rfl rfl fun run found => ⟨run.awaited, found⟩) done
  | recast which same =>
    refine h.place.imp (fun anchored => anchored.quiet rfl anchored.stage) ?_
    rintro ⟨steady, record⟩
    refine ⟨steady.frame ⟨?_, rfl, rfl, rfl⟩ fun f found => found,
      fun on => (record on).same rfl rfl rfl fun run found => ⟨run.awaited, found⟩⟩
    exact (same b).resolve_right fun absent => absurd (steady.present.symm.trans absent.1) nofun
  | syncActive =>
    refine h.place.imp (fun anchored => anchored.quiet rfl anchored.stage) ?_
    intro steady
    exact ⟨⟨steady.1.present, DataFile.syncAll_shows _ _ _, steady.1.flushing⟩,
      fun on => (steady.2 on).same rfl rfl rfl fun run found => ⟨run.awaited, found⟩⟩
  | syncWal =>
    refine h.place.imp (fun anchored => anchored.quiet rfl anchored.stage) ?_
    intro steady
    refine ⟨⟨steady.1.present, steady.1.active, steady.1.flushing⟩, fun on => ?_⟩
    refine (steady.2 on).frame (fun e mem => ?_) rfl fun run found => ⟨run.awaited, found⟩
    exact ((List.take_prefix_take_left inv.synced).subset mem)
  | inner quiet taken =>
    cases h.place with
    | inl anchored =>
      exact Or.inl (inner_anchored inv.crash range h.acked anchored quiet taken)
    | inr steady =>
      cases inner_steady inv.crash range h.acked steady.1 quiet ok.copies unmoved taken with
      | inl still =>
        exact Or.inr ⟨still, fun on =>
          inner_syncedRecord inv.crash range steady.1.present (steady.2 on) ok.copies quiet taken⟩
      | inr stored => exact Or.inl stored

end GlideFS.WriteCache
