import GlideFS.Lib.Ranges
import GlideFS.WriteCache.PassiveOpen

/-! # The block counters

`dirty_block_count` and `syncing_block_count` are kept beside the state map: every
transition adjusts them, and `open` starts them from what it counts while it loads the
metadata and replays the log. Flush scheduling and the end of a drain go by them.

Steps here are those of the cache and of the calls that change one block's state alone,
in any order, and the two functions of a handoff that change states by themselves.
-/

namespace GlideFS.WriteCache.Counters

open Block Lib Cache

variable {Hash PackId : Type} [DecidableEq Hash] [DecidableEq PackId] {g : Geometry}
  {C : Codec (BlockData g.blockSize) Hash PackId}

inductive Op (g : Geometry) where
  | act (a : Act)
  /-- `set_present`, `try_claim_block` and `claim_block_for_materialization`. -/
  | claim (b : Nat)
  /-- `unclaim_block` and `unclaim`. -/
  | unclaim (b : Nat)
  /-- `promote_syncing_blocks` for one block, as zero-copy writes call it. -/
  | promote (b : Nat)
  /-- `wal_append_and_mark_dirty` for one block, the end of a zero-copy or materialized write. -/
  | commit (b : Nat)
  /-- `replay_wal_tail` on the log as it finds it. -/
  | replayWalTail (wal : List WalEntry)
  /-- `recover_pending_flush_file`, with the flushing file if there is one. -/
  | recoverPendingFlushFile (flushing : Option (DataFile g.blockSize))

/-- One entry of the log's tail. -/
def markTail (s : Cache g C) (e : WalEntry) : Cache g C :=
  if e.blockIndex < numBlocks g ∧ s.states e.blockIndex ≠ .dirty then
    { s.setState e.blockIndex .dirty with dirtyBlockCount := s.dirtyBlockCount + 1 }
  else s

/-- The entries of the log that are new to the cache. -/
def walTail (s : Cache g C) (wal : List WalEntry) : List WalEntry :=
  wal.filter fun e => s.sequence < e.sequence

def replayWalTail (s : Cache g C) (wal : List WalEntry) : Cache g C :=
  { (walTail s wal).foldl markTail s with
    sequence := (walTail s wal).foldl (fun top e => max top e.sequence) s.sequence }

def syncingBlocks (s : Cache g C) : List Nat :=
  (List.range (numBlocks g)).filter fun b => s.states b = .syncing

/-- A SYNCING block taken from the flushing file. -/
def recoverBlock (f : DataFile g.blockSize) (s : Cache g C) (b : Nat) : Cache g C :=
  { (s.writeActive b (f.cur b)).setState b .dirty with dirtyBlockCount := s.dirtyBlockCount + 1 }

def recoverPendingFlushFile (s : Cache g C) : Option (DataFile g.blockSize) → Cache g C
  | none => (syncingBlocks s).foldl (fun s b => s.setState b .notPresent) s
  | some f => { (syncingBlocks s).foldl (recoverBlock f) s with flushingPath := none }

def Op.step (s : Cache g C) : Op g → Option (Cache g C)
  | .act a => a.step s
  | .claim b =>
      some (if b < numBlocks g ∧ s.states b = .notPresent then s.setState b .clean else s)
  | .unclaim b => some (if s.states b = .clean then s.setState b .notPresent else s)
  | .promote b => if b < numBlocks g then some (s.promoteBlock b) else none
  | .commit b => if b < numBlocks g then some (s.walAppendAndMarkDirty b) else none
  | .replayWalTail wal => some (Counters.replayWalTail s wal)
  | .recoverPendingFlushFile flushing => some (Counters.recoverPendingFlushFile s flushing)

/-- The ways a cache is opened on the files it finds. -/
inductive Opening (g : Geometry) where
  | active (d : Disk g.blockSize)
  /-- In a handoff's successor. -/
  | passive (d : Disk g.blockSize)
  /-- `open_fresh_active`. -/
  | fresh (d : Disk g.blockSize)

/-- The cache as it is opened. In passive mode the files stay as they are. -/
def Opening.cache (store : PackStore C) (durable : VolumeManifest PackId) :
    Opening g → Cache g C
  | .active d => openCache d store durable
  | .passive d => { openCache d store durable with
      states := d.passiveStates g
      active := d.active
      flushingPath := d.flushing
      wal := d.wal
      walSynced := d.wal.length }
  | .fresh d => { openCache d store durable with
      states := fun _ => .notPresent
      dirtyBlockCount := 0
      sequence := 0
      active := d.active
      flushingPath := d.flushing
      wal := d.wal
      walSynced := d.wal.length
      acked := fun b => (resolveBlock g store durable b).getD 0 }

/-- The states a run of calls goes through. -/
def visited (s : Cache g C) : List (Op g) → List (Cache g C)
  | [] => [s]
  | op :: ops => s :: match op.step s with
      | some t => visited t ops
      | none => []

/-- The counters are the numbers of DIRTY and of SYNCING blocks. -/
structure Exact (s : Cache g C) : Prop where
  dirty : s.dirtyBlockCount.toNat = tally (numBlocks g) s.states .dirty
  syncing : s.syncingBlockCount.toNat = tally (numBlocks g) s.states .syncing

/-! ## One transition -/

/-- The same as `Exact` up to the width of the counters. -/
structure Tallied (s : Cache g C) : Prop where
  dirty : s.dirtyBlockCount = .ofNat (tally (numBlocks g) s.states .dirty)
  syncing : s.syncingBlockCount = .ofNat (tally (numBlocks g) s.states .syncing)

variable {s t : Cache g C} {b : Nat}

/-- The tallies after a block has changed its state. -/
theorem tally_setState (s : Cache g C) (inside : b < numBlocks g) (st v : SparseBlockState) :
    tally (numBlocks g) (s.setState b st).states v + (if s.states b = v then 1 else 0) =
      tally (numBlocks g) s.states v + (if st = v then 1 else 0) :=
  tally_update inside st

theorem Tallied.toDirty (h : Tallied s) (inside : b < numBlocks g) :
    Tallied (s.transitionToDirty b) := by
  have dirty := tally_setState s inside .dirty .dirty
  have syncing := tally_setState s inside .dirty .syncing
  unfold transitionToDirty
  cases state : s.states b with
  | dirty => exact h
  | syncing =>
    simp only [state, reduceCtorEq, if_true, if_false, Nat.add_zero] at dirty syncing
    exact ⟨counter_enter h.dirty dirty, counter_leave h.syncing syncing⟩
  | clean | notPresent =>
    simp only [state, reduceCtorEq, if_true, if_false, Nat.add_zero] at dirty syncing
    exact ⟨counter_enter h.dirty dirty, h.syncing.trans (congrArg _ syncing.symm)⟩

theorem Tallied.dirtyToSyncing (h : Tallied s) (inside : b < numBlocks g) :
    Tallied (s.transitionDirtyToSyncing b) := by
  have dirty := tally_setState s inside .syncing .dirty
  have syncing := tally_setState s inside .syncing .syncing
  unfold transitionDirtyToSyncing
  cases state : s.states b with
  | dirty =>
    simp only [state, reduceCtorEq, if_true, if_false, Nat.add_zero] at dirty syncing
    exact ⟨counter_leave h.dirty dirty, counter_enter h.syncing syncing⟩
  | syncing | clean | notPresent => exact h

theorem Tallied.syncingToNotPresent (h : Tallied s) (inside : b < numBlocks g) :
    Tallied (s.transitionSyncingToNotPresent b) := by
  have dirty := tally_setState s inside .notPresent .dirty
  have syncing := tally_setState s inside .notPresent .syncing
  unfold transitionSyncingToNotPresent
  cases state : s.states b with
  | syncing =>
    simp only [state, reduceCtorEq, if_true, if_false, Nat.add_zero] at dirty syncing
    exact ⟨h.dirty.trans (congrArg _ dirty.symm), counter_leave h.syncing syncing⟩
  | dirty | clean | notPresent => exact h

/-- A state that a counter does not know. -/
theorem Tallied.uncounted (h : Tallied s) (inside : b < numBlocks g) {st : SparseBlockState}
    (before : s.states b = .clean ∨ s.states b = .notPresent)
    (after : st = .clean ∨ st = .notPresent) : Tallied (s.setState b st) := by
  have dirty := tally_setState s inside st .dirty
  have syncing := tally_setState s inside st .syncing
  have plain : s.states b ≠ .dirty ∧ s.states b ≠ .syncing ∧ st ≠ .dirty ∧ st ≠ .syncing := by
    rcases before with h | h <;> rcases after with h' | h' <;> simp [h, h']
  simp only [plain, if_false, Nat.add_zero] at dirty syncing
  exact ⟨h.dirty.trans (congrArg _ dirty.symm), h.syncing.trans (congrArg _ syncing.symm)⟩

theorem Tallied.promote (h : Tallied s) (inside : b < numBlocks g) :
    Tallied (s.promoteBlock b) := by
  unfold promoteBlock
  cases s.flushingFile with
  | none => exact h
  | some f =>
    have written : Tallied (s.writeActive b (f.cur b)) := ⟨h.dirty, h.syncing⟩
    cases s.states b with
    | dirty | clean => exact h
    | syncing => exact written.toDirty inside
    | notPresent =>
      dsimp only
      split
      · exact h
      · exact written.toDirty inside

theorem Tallied.commit (h : Tallied s) (inside : b < numBlocks g) :
    Tallied (s.walAppendAndMarkDirty b) := by
  unfold walAppendAndMarkDirty
  split
  · exact h
  · have marked := h.toDirty inside
    exact ⟨marked.dirty, marked.syncing⟩

/-! ## The steps of the cache -/

/-- Blocks that a failed flush will mark DIRTY again. -/
def recovered : FlushStage C g → List Nat
  | .copied _ bs | .cleared _ bs | .stranded bs | .closed bs | .redirtying bs => bs
  | _ => []

/-- The tallies are right and the states are those of the device's blocks. -/
structure Kept (s : Cache g C) : Prop extends Tallied s where
  outside : ∀ b, numBlocks g ≤ b → s.states b = .notPresent

theorem Kept.at_block (h : Kept s) (inside : b < numBlocks g) (tallied : Tallied t)
    (other : ∀ b', b' ≠ b → t.states b' = s.states b') : Kept t where
  toTallied := tallied
  outside b' beyond := (other b' (by omega)).trans (h.outside b' beyond)

theorem Kept.toDirty (h : Kept s) (inside : b < numBlocks g) : Kept (s.transitionToDirty b) :=
  h.at_block inside (h.toTallied.toDirty inside) fun b' other => by
    rw [transitionToDirty_states, Function.update_of_ne other]

theorem Kept.dirtyToSyncing (h : Kept s) (inside : b < numBlocks g) :
    Kept (s.transitionDirtyToSyncing b) :=
  h.at_block inside (h.toTallied.dirtyToSyncing inside) fun b' other => by
    rw [transitionDirtyToSyncing_states, if_neg fun same => other same.1]

theorem Kept.syncingToNotPresent (h : Kept s) (b : Nat) :
    Kept (s.transitionSyncingToNotPresent b) := by
  by_cases inside : b < numBlocks g
  · refine h.at_block inside (h.toTallied.syncingToNotPresent inside) fun b' other => ?_
    rw [transitionSyncingToNotPresent_states, if_neg fun same => other same.1]
  · have same : s.transitionSyncingToNotPresent b = s := by
      unfold transitionSyncingToNotPresent
      rw [h.outside b (by omega)]
    rwa [same]

theorem Kept.promote (h : Kept s) (inside : b < numBlocks g) : Kept (s.promoteBlock b) :=
  h.at_block inside (h.toTallied.promote inside) fun _ other => (promoteBlock_other s other).1

theorem Kept.commit (h : Kept s) (inside : b < numBlocks g) : Kept (s.walAppendAndMarkDirty b) :=
  h.at_block inside (h.toTallied.commit inside) fun b' other => by
    rw [(walAppendAndMarkDirty_data s b).1, Function.update_of_ne other]

theorem Kept.put (h : Kept s) (inside : b < numBlocks g) (patch : Patch g) :
    Kept (putBlock patch s b) := by
  have promoted := h.promote inside
  have written : Kept ((s.promoteBlock b).writeActive b
      (patch b ((s.promoteBlock b).active.cur b))) :=
    ⟨⟨promoted.dirty, promoted.syncing⟩, promoted.outside⟩
  have marked := written.commit inside
  exact ⟨⟨marked.dirty, marked.syncing⟩, marked.outside⟩

theorem Kept.foldl (h : Kept s) {f : Cache g C → Nat → Cache g C} {bs : List Nat}
    (each : ∀ s, Kept s → ∀ b ∈ bs, Kept (f s b)) : Kept (bs.foldl f s) := by
  induction bs generalizing s with
  | nil => exact h
  | cons b rest ih =>
    exact ih (each s h b List.mem_cons_self) fun s h b mem =>
      each s h b (List.mem_cons_of_mem _ mem)

theorem blocksIn_inside {offset len : Nat} (fits : offset + len ≤ g.size) (some : len ≠ 0)
    (mem : b ∈ blocksIn g offset len) : b < numBlocks g := by
  have bound : b ≤ (offset + len - 1) / g.blockSize := by
    simp only [blocksIn, List.mem_range'_1] at mem
    omega
  apply lt_numBlocks.mpr
  have below := (Nat.le_div_iff_mul_le g.blockSize_pos).mp bound
  unfold Geometry.InRange
  omega

theorem Kept.putRange (h : Kept s) {patch : Patch g} {offset len : Nat}
    (done : s.putRange patch offset len = some t) : Kept t := by
  rcases putRange_some done with ⟨-, rfl⟩ | ⟨some, rfl, -⟩
  · exact h
  · have fits : offset + len ≤ g.size := by
      by_contra beyond
      rw [Cache.putRange, if_pos (by omega)] at done
      cases done
    exact h.foldl fun s h b mem => h.put (blocksIn_inside fits some mem) patch

structure Sound (s : Cache g C) : Prop extends Kept s where
  recovers : ∀ r, s.flush = some r → ∀ b ∈ recovered r.stage, b < numBlocks g

theorem Kept.copyBack (h : Kept s) (claim : Claim g) (uncopied : List Nat) :
    Kept (s.copyBack claim uncopied) := by
  unfold Cache.copyBack
  cases s.flushingFile with
  | none => exact h
  | some f =>
    apply h.foldl
    intro s h b _
    unfold copyBackBlock
    split
    · exact ⟨⟨h.dirty, h.syncing⟩, h.outside⟩
    · exact h

theorem Kept.unskip (h : Kept s) (inside : b < numBlocks g) (f : DataFile g.blockSize)
    (uncopied : List Nat) : Kept (unskipBlock f uncopied s b) := by
  unfold unskipBlock
  split
  · split
    · exact h
    · have written : Kept (s.writeActive b (f.cur b)) := ⟨⟨h.dirty, h.syncing⟩, h.outside⟩
      exact written.toDirty inside
  · exact h.toDirty inside

theorem Sound.endCkpt (h : Sound s) (same : t.flush = s.flush) (kept : Kept t) (run : CkptRun)
    (ok : Bool) : Sound (t.endCkpt run ok) where
  toKept := ⟨⟨kept.dirty, kept.syncing⟩, kept.outside⟩
  recovers := by
    intro r at_r
    obtain ⟨r', at_r', resumes⟩ := endCkpt_flush at_r
    have before := h.recovers r' (same ▸ at_r')
    cases resumes <;> exact before

theorem act_sound {a : Act} (h : Sound s) (taken : a.step s = some t) : Sound t := by
  have kept : Kept s := h.toKept
  have inside {claim : Claim g} {b : Nat} (mem : b ∈ claim.blocks) : b < numBlocks g :=
    lt_numBlocks.mpr (claim.inRange b mem)
  cases step_cases taken with
  | write done | zeroRange done =>
    refine ⟨kept.putRange done, ?_⟩
    rw [(local_putRange done).flush]
    exact h.recovers
  | rotate at_r named =>
    have flagged : Kept (s.setFlags true s.sequence) :=
      ⟨⟨kept.dirty, kept.syncing⟩, kept.outside⟩
    have claimed : Kept (s.setFlags true s.sequence).claimDirty :=
      flagged.foldl fun s h b mem => h.dirtyToSyncing (inside mem)
    refine ⟨⟨⟨claimed.dirty, claimed.syncing⟩, claimed.outside⟩, ?_⟩
    rintro r ⟨⟩
    nofun
  | @compute _ _ claim f _ _ skipped uncopied at_r nonempty handle computed =>
    have back : Kept ((claim.blocks.filter (· ∈ skipped)).foldl (unskipBlock f uncopied) s) :=
      kept.foldl fun s h b mem => h.unskip (inside (List.mem_of_mem_filter mem)) f uncopied
    refine ⟨⟨⟨back.dirty, back.syncing⟩, back.outside⟩, ?_⟩
    rintro r ⟨⟩
    nofun
  | @evict _ _ _ plans at_r =>
    have gone : Kept (s.evictBlocks (flushedBlocks plans)) :=
      kept.foldl fun s h b _ => h.syncingToNotPresent b
    refine ⟨⟨⟨gone.dirty, gone.syncing⟩, gone.outside⟩, ?_⟩
    rintro r ⟨⟩
    nofun
  | @copyBack _ _ claim uncopied at_r =>
    have copied := kept.copyBack claim uncopied
    refine ⟨⟨⟨copied.dirty, copied.syncing⟩, copied.outside⟩, ?_⟩
    rintro r ⟨⟩
    exact fun b mem => inside (List.mem_of_mem_filter mem)
  | @strand _ _ claim recovered at_r =>
    have gone : Kept (claim.blocks.foldl (strandBlock recovered) s) := by
      apply kept.foldl
      intro s h b _
      unfold strandBlock
      split
      · exact h
      · exact h.syncingToNotPresent b
    refine ⟨⟨⟨gone.dirty, gone.syncing⟩, gone.outside⟩, ?_⟩
    rintro r ⟨⟩ b mem
    exact h.recovers _ at_r b mem
  | @redirty _ _ recovered at_r =>
    have back : Kept (recovered.foldl transitionToDirty s) :=
      kept.foldl fun s h b mem => h.toDirty (Sound.recovers ‹Sound _› _ at_r b mem)
    exact ⟨⟨⟨back.dirty, back.syncing⟩, back.outside⟩, nofun⟩
  | ckptTruncate at_run covered =>
    exact h.endCkpt (t := s.truncateWal) rfl ⟨⟨kept.dirty, kept.syncing⟩, kept.outside⟩ _ _
  | ckptKeep at_run =>
    exact h.endCkpt (t := s.keepWal) rfl ⟨⟨kept.dirty, kept.syncing⟩, kept.outside⟩ _ _
  | ckptFail at_run => exact h.endCkpt rfl kept _ _
  | ckptStart | ckptCopy | ckptSeal | ckptPublish =>
    exact ⟨⟨⟨kept.dirty, kept.syncing⟩, kept.outside⟩, h.recovers⟩
  -- the recovered blocks stay those of the stage before
  | unflag at_r | closeHandle at_r =>
    refine ⟨⟨⟨kept.dirty, kept.syncing⟩, kept.outside⟩, ?_⟩
    rintro r ⟨⟩ b mem
    exact h.recovers _ at_r b mem
  | unlink at_r =>
    split <;> refine ⟨⟨⟨kept.dirty, kept.syncing⟩, kept.outside⟩, ?_⟩ <;> rintro r ⟨⟩ b mem <;>
      exact h.recovers _ at_r b mem
  -- and elsewhere there are none
  | removeEmpty | deleteFile | syncDelete | dropDeleting | dropPutting =>
    split <;> refine ⟨⟨⟨kept.dirty, kept.syncing⟩, kept.outside⟩, ?_⟩ <;> rintro r ⟨⟩ <;> nofun
  | _ =>
    refine ⟨⟨⟨kept.dirty, kept.syncing⟩, kept.outside⟩, ?_⟩
    rintro r ⟨⟩ <;> nofun

/-! ## The steps of a handoff -/

/-- The calls of a handoff that adjust the counters rightly: those that touch no SYNCING
    block. -/
def Careful (s : Cache g C) : Op g → Prop
  | .replayWalTail wal => ∀ e ∈ walTail s wal, e.blockIndex < numBlocks g →
      s.states e.blockIndex ≠ .syncing
  | .recoverPendingFlushFile _ => ∀ b < numBlocks g, s.states b ≠ .syncing
  | _ => True

theorem markTail_states (s : Cache g C) (e : WalEntry) :
    (markTail s e).states = applyEntry (numBlocks g) s.states e := by
  unfold markTail applyEntry
  by_cases inside : e.blockIndex < numBlocks g
  · by_cases dirty : s.states e.blockIndex = .dirty
    · simp only [inside, dirty, ne_eq, not_true_eq_false, and_false, if_false, if_true]
      exact (Function.update_eq_self_iff.mpr dirty.symm).symm
    · simp [inside, dirty, setState]
  · simp [inside]

/-- Replay adjusts the DIRTY counter only. -/
theorem foldl_markTail (es : List WalEntry) (s : Cache g C) :
    (es.foldl markTail s).states = applyEntries (numBlocks g) s.states es ∧
      (es.foldl markTail s).syncingBlockCount = s.syncingBlockCount ∧
      (es.foldl markTail s).flush = s.flush ∧
      (s.dirtyBlockCount = .ofNat (tally (numBlocks g) s.states .dirty) →
        (es.foldl markTail s).dirtyBlockCount =
          .ofNat (tally (numBlocks g) (es.foldl markTail s).states .dirty)) := by
  induction es generalizing s with
  | nil => exact ⟨rfl, rfl, rfl, id⟩
  | cons e rest ih =>
    obtain ⟨states, syncing, flush, dirty⟩ := ih (markTail s e)
    refine ⟨?_, syncing.trans ?_, flush.trans ?_, fun before => dirty ?_⟩
    · rw [List.foldl_cons, states, markTail_states]
      rfl
    · unfold markTail
      split <;> rfl
    · unfold markTail
      split <;> rfl
    · unfold markTail
      split
      · rename_i marks
        have moved := tally_setState s marks.1 .dirty .dirty
        rw [if_neg marks.2, if_pos rfl] at moved
        exact counter_enter before moved
      · exact before

theorem mem_syncingBlocks : b ∈ syncingBlocks s ↔ b < numBlocks g ∧ s.states b = .syncing := by
  simp [syncingBlocks]

theorem foldl_setState {step : Cache g C → Nat → Cache g C} {state : SparseBlockState}
    (each : ∀ s b, (step s b).states = Function.update s.states b state ∧
      (step s b).syncingBlockCount = s.syncingBlockCount) (bs : List Nat) (s : Cache g C) :
    (∀ b, (bs.foldl step s).states b = if b ∈ bs then state else s.states b) ∧
      (bs.foldl step s).syncingBlockCount = s.syncingBlockCount := by
  induction bs generalizing s with
  | nil => simp
  | cons first rest ih =>
    obtain ⟨states, counter⟩ := ih (step s first)
    refine ⟨fun b => (states b).trans ?_, counter.trans (each s first).2⟩
    by_cases here : b = first <;> simp [(each s first).1, here]

/-- When every SYNCING block is set to another state, none is left. -/
theorem foldl_syncingBlocks (step : Cache g C → Nat → Cache g C) (state : SparseBlockState)
    (other : state ≠ .syncing)
    (each : ∀ s b, (step s b).states = Function.update s.states b state ∧
      (step s b).syncingBlockCount = s.syncingBlockCount) (s : Cache g C) :
    tally (numBlocks g) ((syncingBlocks s).foldl step s).states .syncing = 0 ∧
      ((syncingBlocks s).foldl step s).syncingBlockCount = s.syncingBlockCount := by
  obtain ⟨states, counter⟩ := foldl_setState each (syncingBlocks s) s
  refine ⟨tally_eq_zero.mpr fun b inside => ?_, counter⟩
  rw [states]
  split
  · exact other
  · rename_i absent
    exact fun syncing => absent (mem_syncingBlocks.mpr ⟨inside, syncing⟩)

/-- Recovery leaves no SYNCING block, and the counter as it was. -/
theorem recover_syncing (s : Cache g C) (flushing : Option (DataFile g.blockSize)) :
    tally (numBlocks g) (recoverPendingFlushFile s flushing).states .syncing = 0 ∧
      (recoverPendingFlushFile s flushing).syncingBlockCount = s.syncingBlockCount := by
  cases flushing with
  | none =>
    exact foldl_syncingBlocks (·.setState · .notPresent) .notPresent (by decide)
      (fun s b => ⟨rfl, rfl⟩) s
  | some f =>
    exact foldl_syncingBlocks (recoverBlock f) .dirty (by decide) (fun s b => ⟨rfl, rfl⟩) s

theorem numBlocks_le_size (g : Geometry) : numBlocks g ≤ g.size := by
  by_contra more
  have inside : g.size * g.blockSize < g.size := lt_numBlocks.mp (not_le.mp more)
  exact absurd inside (not_lt.mpr (Nat.le_mul_of_pos_right _ g.blockSize_pos))

theorem Tallied.exact (sized : g.size < 2 ^ 64) (h : Tallied s) : Exact s := by
  have small {v : SparseBlockState} : tally (numBlocks g) s.states v < 2 ^ 64 :=
    lt_of_le_of_lt (tally_le.trans (numBlocks_le_size g)) sized
  constructor
  · rw [h.dirty]
    exact UInt64.toNat_ofNat_of_lt' small
  · rw [h.syncing]
    exact UInt64.toNat_ofNat_of_lt' small

/-- A replay that touches no SYNCING block leaves their number as it was. -/
theorem Sound.replayWalTail {wal : List WalEntry} (h : Sound s)
    (careful : Careful s (.replayWalTail wal)) : Sound (replayWalTail s wal) := by
  obtain ⟨states, syncing, flush, dirty⟩ := foldl_markTail (walTail s wal) s
  have same : tally (numBlocks g) ((walTail s wal).foldl markTail s).states .syncing =
      tally (numBlocks g) s.states .syncing := by
    apply tally_congr
    intro b inside
    rw [states, applyEntries_eq]
    split
    · rename_i marked
      obtain ⟨-, e, listed, rfl⟩ := marked
      simp [careful e listed inside]
    · rfl
  refine ⟨⟨⟨dirty h.dirty, ?_⟩, fun b beyond => ?_⟩, fun r at_r => h.recovers r (flush ▸ at_r)⟩
  · exact syncing.trans (h.syncing.trans (congrArg _ same.symm))
  · change ((walTail s wal).foldl markTail s).states b = _
    rw [states, applyEntries_eq, if_neg fun marked => by omega]
    exact h.outside b beyond

/-- The counter keeps what a replay takes from the SYNCING blocks. -/
theorem replay_careful {wal : List WalEntry} (before : Exact s)
    (after : Exact (replayWalTail s wal)) : Careful s (.replayWalTail wal) := by
  intro e listed inside was
  obtain ⟨states, syncing, -, -⟩ := foldl_markTail (walTail s wal) s
  have fewer : tally (numBlocks g) ((walTail s wal).foldl markTail s).states .syncing <
      tally (numBlocks g) s.states .syncing := by
    apply tally_lt inside was
    · rw [states, applyEntries_eq, if_pos ⟨inside, e, listed, rfl⟩]
      nofun
    · intro b _ still
      rw [states, applyEntries_eq] at still
      split at still
      · cases still
      · exact still
  have counted := after.syncing
  change ((walTail s wal).foldl markTail s).syncingBlockCount.toNat =
    tally (numBlocks g) ((walTail s wal).foldl markTail s).states .syncing at counted
  rw [syncing, before.syncing] at counted
  omega

theorem Sound.recover {flushing : Option (DataFile g.blockSize)} (h : Sound s)
    (careful : Careful s (.recoverPendingFlushFile flushing)) :
    Sound (recoverPendingFlushFile s flushing) := by
  have nothing : syncingBlocks s = [] :=
    List.filter_eq_nil_iff.mpr fun b mem => by simpa using careful b (List.mem_range.mp mem)
  cases flushing with
  | none =>
    rw [recoverPendingFlushFile, nothing]
    exact h
  | some f =>
    rw [recoverPendingFlushFile, nothing]
    exact ⟨⟨⟨h.dirty, h.syncing⟩, h.outside⟩, h.recovers⟩

theorem recover_careful {flushing : Option (DataFile g.blockSize)} (before : Exact s)
    (after : Exact (recoverPendingFlushFile s flushing)) :
    Careful s (.recoverPendingFlushFile flushing) := by
  obtain ⟨none, kept⟩ := recover_syncing s flushing
  apply tally_eq_zero.mp
  rw [← before.syncing, ← kept, after.syncing, none]

theorem op_sound {op : Op g} (h : Sound s) (careful : Careful s op) (taken : op.step s = some t) :
    Sound t := by
  cases op with
  | act a => exact act_sound h taken
  | claim b =>
    cases taken
    split
    · rename_i absent
      have tallied := h.uncounted absent.1 (.inr absent.2) (.inl rfl)
      refine ⟨h.at_block absent.1 tallied ?_, h.recovers⟩
      exact fun b' other => Function.update_of_ne other _ _
    · exact h
  | unclaim b =>
    cases taken
    split
    · rename_i clean
      have inside : b < numBlocks g := by
        by_contra beyond
        rw [h.outside b (not_lt.mp beyond)] at clean
        cases clean
      have tallied := h.uncounted inside (.inl clean) (.inr rfl)
      refine ⟨h.at_block inside tallied ?_, h.recovers⟩
      exact fun b' other => Function.update_of_ne other _ _
    · exact h
  | promote b =>
    rw [Op.step] at taken
    split at taken
    · rename_i inside
      cases taken
      refine ⟨h.toKept.promote inside, ?_⟩
      rw [(shifts_promoteBlock s b).local.flush]
      exact h.recovers
    · cases taken
  | commit b =>
    rw [Op.step] at taken
    split at taken
    · rename_i inside
      cases taken
      refine ⟨h.toKept.commit inside, ?_⟩
      rw [(local_walAppendAndMarkDirty s b).flush]
      exact h.recovers
    · cases taken
  | replayWalTail wal =>
    cases taken
    exact h.replayWalTail careful
  | recoverPendingFlushFile flushing =>
    cases taken
    exact h.recover careful

theorem careful_of_exact {op : Op g} (before : Exact s) (taken : op.step s = some t)
    (after : Exact t) : Careful s op := by
  cases op with
  | replayWalTail wal =>
    cases taken
    exact replay_careful before after
  | recoverPendingFlushFile flushing =>
    cases taken
    exact recover_careful before after
  | act | claim | unclaim | promote | commit => trivial

/-! ## Opening -/

section

variable (g) (d : Disk g.blockSize)

/-- Blocks saved as SYNCING that the log marks: `load_metadata` has counted them. -/
def recounted : Nat := (List.range (numBlocks g)).countP fun b =>
  d.loaded.states b = .syncing ∧ d.walEntries.any fun e => e.blockIndex = b

/-- Blocks that `open` takes off the count though none of them is in it. -/
def uncounted : Nat := tally (numBlocks g) (d.replayed g) .clean

/-- The blocks that are DIRTY once the cache is open. -/
def localBlocks : Nat := (List.range (numBlocks g)).countP fun b => (d.replayed g b).hasLocalData

/-- What `open` counts too much and too little cancels out, or there is nothing to count. -/
def CountsOpen : Prop := recounted g d = uncounted g d ∨ localBlocks g d = 0

end

variable {d : Disk g.blockSize}

theorem countP_hasLocalData (n : ℕ) (m : StateMap) :
    (List.range n).countP (fun b => (m b).hasLocalData) =
      tally n m .dirty + tally n m .syncing := by
  rw [tally_add (by decide)]
  apply List.countP_congr
  intro b _
  cases m b <;> decide

theorem tally_replayed (d : Disk g.blockSize) (v : SparseBlockState) :
    tally (numBlocks g) (d.replayed g) v =
      tally (numBlocks g) (applyEntries (numBlocks g) d.loaded.states d.walEntries) v :=
  tally_congr fun b inside => by rw [Disk.replayed, if_pos inside]

/-- Every mark that replay counts makes one more DIRTY block. -/
theorem marked_eq (es : List WalEntry) (n : ℕ) (m : StateMap) (k : ℕ) :
    (es.foldl (fun (acc : StateMap × Nat) e => (applyEntry n acc.1 e,
        if e.blockIndex < n ∧ acc.1 e.blockIndex ≠ .dirty then acc.2 + 1 else acc.2)) (m, k)).2 +
      tally n m .dirty = k + tally n (applyEntries n m es) .dirty := by
  induction es generalizing m k with
  | nil => rfl
  | cons e rest ih =>
    have later := ih (applyEntry n m e)
      (if e.blockIndex < n ∧ m e.blockIndex ≠ .dirty then k + 1 else k)
    have unfolded : applyEntries n m (e :: rest) = applyEntries n (applyEntry n m e) rest := rfl
    rw [unfolded, List.foldl_cons]
    by_cases inside : e.blockIndex < n
    · have step : tally n (applyEntry n m e) .dirty +
          (if m e.blockIndex = .dirty then 1 else 0) = tally n m .dirty + 1 := by
        rw [applyEntry, if_pos inside]
        exact tally_update inside SparseBlockState.dirty
      by_cases dirty : m e.blockIndex = .dirty
      · simp only [inside, dirty, ne_eq, not_true_eq_false, and_false, if_false, if_true]
          at later step ⊢
        omega
      · simp only [inside, dirty, ne_eq, not_false_eq_true, and_true, if_false, if_true]
          at later step ⊢
        omega
    · have same : applyEntry n m e = m := if_neg inside
      simp only [inside, same, false_and, if_false] at later ⊢
      exact later

/-- The saved SYNCING blocks that the log does not mark stay SYNCING. -/
theorem saved_syncing (d : Disk g.blockSize) :
    tally (numBlocks g) d.loaded.states .syncing =
      recounted g d + tally (numBlocks g) (d.replayed g) .syncing := by
  unfold recounted tally
  rw [List.countP_eq_countP_filter_add _ _ fun b => d.walEntries.any fun e => e.blockIndex = b,
    List.countP_filter, List.countP_filter]
  congr 1
  · apply List.countP_congr
    intro b _
    simp
  · apply List.countP_congr
    intro b mem
    rw [Disk.replayed, if_pos (List.mem_range.mp mem), applyEntries_eq]
    by_cases marked : ∃ e ∈ d.walEntries, e.blockIndex = b
    · simp [marked, List.mem_range.mp mem]
    · have unmarked : ∀ e ∈ d.walEntries, e.blockIndex ≠ b := fun e listed at_b =>
        marked ⟨e, listed, at_b⟩
      rw [if_neg fun h => marked h.2]
      simpa using fun _ => unmarked

theorem openDirtyCount_eq (d : Disk g.blockSize) :
    d.openDirtyCount g = localBlocks g d + recounted g d - uncounted g d := by
  have marked := marked_eq d.walEntries (numBlocks g) d.loaded.states
    ((List.range (numBlocks g)).countP fun b => (d.loaded.states b).hasLocalData)
  have syncing := saved_syncing d
  have dirty := tally_replayed d .dirty
  have saved := countP_hasLocalData (numBlocks g) d.loaded.states
  have replayed := countP_hasLocalData (numBlocks g) (d.replayed g)
  unfold Disk.openDirtyCount localBlocks uncounted tally
  unfold tally at *
  dsimp only
  omega

theorem recounted_le (d : Disk g.blockSize) : recounted g d ≤ localBlocks g d := by
  apply List.countP_mono_left
  intro b mem saved
  obtain ⟨-, listed⟩ := of_decide_eq_true saved
  obtain ⟨e, mem', at_b⟩ := List.any_eq_true.mp listed
  have inside := List.mem_range.mp mem
  rw [Disk.replayed, if_pos inside, applyEntries_eq,
    if_pos ⟨inside, e, mem', of_decide_eq_true at_b⟩]
  rfl

theorem tally_openStates (d : Disk g.blockSize) :
    tally (numBlocks g) (d.openStates g) .dirty = localBlocks g d ∧
      tally (numBlocks g) (d.openStates g) .syncing = 0 := by
  constructor
  · apply List.countP_congr
    intro b _
    unfold Disk.openStates
    cases d.replayed g b <;> decide
  · apply tally_eq_zero.mpr
    intro b _
    unfold Disk.openStates
    cases d.replayed g b <;> nofun

theorem localBlocks_le (d : Disk g.blockSize) : localBlocks g d ≤ numBlocks g := by
  rw [← (tally_openStates d).1]
  exact tally_le

theorem openDirtyCount_exact (sized : g.size < 2 ^ 64) (d : Disk g.blockSize) :
    (UInt64.ofNat (d.openDirtyCount g)).toNat = localBlocks g d ↔ CountsOpen g d := by
  have twice := recounted_le d
  have few := localBlocks_le d
  have fits := numBlocks_le_size g
  have off : uncounted g d ≤ numBlocks g := tally_le
  rw [openDirtyCount_eq, UInt64.toNat_ofNat']
  unfold CountsOpen
  omega

/-- What the files must be for the counters to start right. -/
def Opening.CountsRight : Opening g → Prop
  | .active d => CountsOpen g d
  | .passive d => CountsOpen g d ∧
      (d.flushing.isSome → ∀ b < numBlocks g, d.replayed g b ≠ .syncing)
  | .fresh _ => True

/-- A passive open without SYNCING blocks finds the states of an active one. -/
theorem passiveStates_eq
    (settled : d.flushing.isSome → ∀ b < numBlocks g, d.replayed g b ≠ .syncing) :
    d.passiveStates g = d.openStates g := by
  funext b
  unfold Disk.passiveStates Disk.openStates
  cases state : d.replayed g b with
  | syncing =>
    have inside : b < numBlocks g := by
      by_contra beyond
      rw [Disk.replayed, if_neg beyond] at state
      cases state
    have closed : ¬ d.flushing.isSome := fun flushing => settled flushing b inside state
    simp [closed]
  | dirty | clean | notPresent => rfl

variable {store : PackStore C} {durable : VolumeManifest PackId}

theorem openStates_outside (d : Disk g.blockSize) {b : Nat} (beyond : numBlocks g ≤ b) :
    d.openStates g b = .notPresent := by
  unfold Disk.openStates Disk.replayed
  rw [if_neg (not_lt.mpr beyond)]

theorem openCache_exact (sized : g.size < 2 ^ 64) (d : Disk g.blockSize)
    (store : PackStore C) (durable : VolumeManifest PackId) :
    Exact (openCache d store durable) ↔ CountsOpen g d := by
  obtain ⟨dirty, syncing⟩ := tally_openStates d
  rw [← openDirtyCount_exact sized, ← dirty]
  exact ⟨fun h => h.dirty, fun h => ⟨h, syncing.symm⟩⟩

theorem opening_exact (sized : g.size < 2 ^ 64) (o : Opening g) :
    Exact (o.cache store durable : Cache g C) ↔ o.CountsRight := by
  cases o with
  | active d => exact openCache_exact sized d store durable
  | passive d =>
    constructor
    · intro h
      have settled : d.flushing.isSome → ∀ b < numBlocks g, d.replayed g b ≠ .syncing := by
        intro flushing b inside state
        have none := tally_eq_zero.mp h.syncing.symm b inside
        simp [Opening.cache, Disk.passiveStates, state, flushing] at none
      have dirty := h.dirty
      simp only [Opening.cache, passiveStates_eq settled] at dirty
      exact ⟨(openCache_exact sized d store durable).mp
        ⟨dirty, (tally_openStates d).2.symm⟩, settled⟩
    · rintro ⟨counts, settled⟩
      have active := (openCache_exact sized d store durable).mpr counts
      constructor
      · simp only [Opening.cache, passiveStates_eq settled]
        exact active.dirty
      · simp only [Opening.cache, passiveStates_eq settled]
        exact active.syncing
  | fresh d =>
    have none {v : SparseBlockState} (other : .notPresent ≠ v) :
        tally (numBlocks g) (fun _ => SparseBlockState.notPresent) v = 0 :=
      tally_eq_zero.mpr fun _ _ => other
    exact ⟨fun _ => trivial, fun _ => ⟨(none (by decide)).symm, (none (by decide)).symm⟩⟩

theorem Exact.tallied (h : Exact s) : Tallied s where
  dirty := by rw [← h.dirty, UInt64.ofNat_toNat]
  syncing := by rw [← h.syncing, UInt64.ofNat_toNat]

theorem opening_sound (sized : g.size < 2 ^ 64) {o : Opening g} (right : o.CountsRight) :
    Sound (o.cache store durable : Cache g C) := by
  have exact_ : Exact (o.cache store durable : Cache g C) := (opening_exact sized o).mpr right
  cases o with
  | active d => exact ⟨⟨exact_.tallied, fun b beyond => openStates_outside d beyond⟩, nofun⟩
  | passive d =>
    refine ⟨⟨exact_.tallied, fun b beyond => ?_⟩, nofun⟩
    simp only [Opening.cache, passiveStates_eq right.2]
    exact openStates_outside d beyond
  | fresh d => exact ⟨⟨exact_.tallied, fun _ _ => rfl⟩, nofun⟩

/-! ## Runs -/

/-- Every call that a run makes is a careful one. -/
def CarefulAlong (s : Cache g C) : List (Op g) → Prop
  | [] => True
  | op :: ops => match op.step s with
      | some t => Careful s op ∧ CarefulAlong t ops
      | none => True

theorem mem_visited_head (t : Cache g C) (ops : List (Op g)) : t ∈ visited t ops := by
  cases ops <;> exact List.mem_cons_self

theorem mem_visited_of_exec {ops : List (Op g)} (run : exec Op.step s ops = some t) :
    t ∈ visited s ops := by
  induction ops generalizing s with
  | nil =>
    cases run
    exact List.mem_cons_self
  | cons op ops ih =>
    obtain ⟨u, taken, rest⟩ := Option.bind_eq_some_iff.mp run
    simp only [visited, taken]
    exact List.mem_cons_of_mem _ (ih rest)

/-- Without the calls of a handoff every run is careful. -/
theorem carefulAlong_acts (s : Cache g C) (acts : List Act) :
    CarefulAlong s (acts.map .act) := by
  induction acts generalizing s with
  | nil => trivial
  | cons a rest ih =>
    rw [List.map_cons, CarefulAlong]
    split
    · exact ⟨trivial, ih _⟩
    · trivial

theorem visited_exact (sized : g.size < 2 ^ 64) (h : Sound s) (ops : List (Op g)) :
    (∀ t ∈ visited s ops, Exact t) ↔ CarefulAlong s ops := by
  have here : Exact s := h.toTallied.exact sized
  induction ops generalizing s with
  | nil => simp [visited, CarefulAlong, here]
  | cons op ops ih =>
    unfold visited CarefulAlong
    cases taken : op.step s with
    | none => simp [here]
    | some t =>
      constructor
      · intro all
        have next : Exact t := all t (List.mem_cons_of_mem _ (mem_visited_head t ops))
        have careful := careful_of_exact here taken next
        have later := (ih (op_sound h careful taken) next).mp fun u mem =>
          all u (List.mem_cons_of_mem _ mem)
        exact ⟨careful, later⟩
      · rintro ⟨careful, later⟩ u mem
        have sound := op_sound h careful taken
        cases mem with
        | head => exact here
        | tail _ mem => exact (ih sound (sound.toTallied.exact sized)).mpr later u mem

/-- The counters are exact in every state of a run if and only if the cache was opened on files
    that `open` counts rightly and no step of a handoff met a SYNCING block. -/
theorem counters_exact_iff (sized : g.size < 2 ^ 64) (o : Opening g) (store : PackStore C)
    (durable : VolumeManifest PackId) (ops : List (Op g)) :
    (∀ t ∈ visited (o.cache store durable) ops, Exact t) ↔
      o.CountsRight ∧ CarefulAlong (o.cache store durable) ops := by
  constructor
  · intro all
    have right := (opening_exact sized o).mp (all _ (mem_visited_head _ ops))
    exact ⟨right, (visited_exact sized (opening_sound sized right) ops).mp all⟩
  · rintro ⟨right, careful⟩
    exact (visited_exact sized (opening_sound sized right) ops).mpr careful

theorem counters_exact_over_a_rewrite :
    (visited ((Opening.active .new).cache .empty .new : Cache oneBlockDevice (.plain 16))
      ((writeAndRotate ++ [Act.write 0 [2]]).map .act)).length = 6 ∧
    ∀ t ∈ visited ((Opening.active .new).cache .empty .new : Cache oneBlockDevice (.plain 16))
      ((writeAndRotate ++ [Act.write 0 [2]]).map .act), Exact t :=
  ⟨by decide +kernel,
    (counters_exact_iff (by decide) _ _ _ _).mpr ⟨.inl (by decide +kernel), carefulAlong_acts _ _⟩⟩

/-- A device of two blocks of 16 bytes. -/
def twoBlockDevice : Geometry := { oneBlockDevice with
  size := 32
  chunks_fit := Nat.le_of_ble_eq_true rfl }

/-- The first block is claimed for the time of a fetch, the second one is written, and a
    checkpoint saves both states. -/
def savedDuringFetch : List (Op twoBlockDevice) :=
  .claim 0 :: [Act.write 16 [1], .ckptStart, .ckptCopy, .ckptCopy, .ckptSeal, .ckptPublish].map .act

/-- The next flush, up to its rotation. -/
def nextRotation : List (Op twoBlockDevice) := [Act.flushPacks, .pass, .rotate .ok].map .act

private theorem reopened_counts :
    (exec Op.step (openCache .new .empty .new : Cache twoBlockDevice (.plain 16))
      savedDuringFetch).bind (fun s =>
        (exec Op.step ((Opening.active s.crash).cache s.store s.durable) nextRotation).map
          fun t => (t.dirtyBlockCount, tally (numBlocks twoBlockDevice) t.states .dirty)) =
      some (18446744073709551615, 0) := by
  decide +kernel

/-- After a crash during a fetch the DIRTY block is not counted, and its rotation takes the
    counter below zero. -/
theorem dirty_count_wraps :
    ∃ s t, exec Op.step (openCache .new .empty .new : Cache twoBlockDevice (.plain 16))
        savedDuringFetch = some s ∧
      t ∈ visited ((Opening.active s.crash).cache s.store s.durable) nextRotation ∧
      t.dirtyBlockCount.toNat = 2 ^ 64 - 1 ∧
      tally (numBlocks twoBlockDevice) t.states .dirty = 0 ∧ ¬ Exact t := by
  obtain ⟨s, saved, reopened⟩ := Option.bind_eq_some_iff.mp reopened_counts
  obtain ⟨t, rotated, counts⟩ := Option.map_eq_some_iff.mp reopened
  obtain ⟨counter, none⟩ := Prod.mk.injEq .. ▸ counts
  refine ⟨s, t, saved, mem_visited_of_exec rotated, ?_, none, ?_⟩
  · rw [counter]
    rfl
  · intro h
    have same := h.dirty
    rw [counter, none] at same
    exact absurd same (by decide)

end GlideFS.WriteCache.Counters
