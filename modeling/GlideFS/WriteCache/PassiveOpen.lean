import GlideFS.WriteCache.Reopen
import GlideFS.WriteCache.FlushImage

/-! # A second process on the files of a running cache

During a handoff the successor opens the files while the predecessor still writes them.
`open` then leaves the log and the flushing file alone and keeps SYNCING blocks SYNCING.
When the predecessor is gone, `replay_wal_tail` marks what was logged since, and
`recover_pending_flush_file` takes the SYNCING blocks from the flushing file if it is
still there and drops them otherwise.

The successor's handle of the active file is an open file, not a name: it goes with the
file when the predecessor rotates.
-/

namespace GlideFS.WriteCache

open Block Lib Cache

variable {Hash PackId : Type} [DecidableEq Hash] [DecidableEq PackId] {g : Geometry}
  {C : Codec (BlockData g.blockSize) Hash PackId} {s t : Cache g C} {b : Nat}

/-- The cache of the successor. Without `handle` its active file is that of the predecessor. -/
structure Passive (g : Geometry) where
  states : StateMap
  dirtyBlockCount : Nat
  sequence : Nat
  handle : Option (DataFile g.blockSize)

/-- The states `open` ends with in passive mode. -/
def Disk.passiveStates (g : Geometry) (d : Disk g.blockSize) : StateMap := fun b =>
  match d.replayed g b with
  | .dirty => .dirty
  | .syncing => if d.flushing.isSome then .syncing else .dirty
  | .clean | .notPresent => .notPresent

/-- `WriteCache::open` in passive mode, on the files of a cache that is running. -/
def Cache.passiveOpen (s : Cache g C) : Passive g where
  states := s.crash.passiveStates g
  dirtyBlockCount := s.crash.openDirtyCount g
  sequence := s.crash.openSequence
  handle := if s.activeName = .active then none else some .sparse

namespace Passive

/-- The entries of the log that are new to the successor. -/
def tail (o : Passive g) (wal : List WalEntry) : List WalEntry :=
  wal.filter fun e => o.sequence < e.sequence

/-- `replay_wal_tail`, with the number of entries it returns. -/
def replayWalTail (o : Passive g) (wal : List WalEntry) : Passive g × Nat :=
  let entries := o.tail wal
  let marked := entries.foldl (fun (acc : StateMap × Nat) e =>
    (applyEntry (numBlocks g) acc.1 e,
      if e.blockIndex < numBlocks g ∧ acc.1 e.blockIndex ≠ .dirty then acc.2 + 1 else acc.2))
    (o.states, o.dirtyBlockCount)
  ({ o with
    states := marked.1
    dirtyBlockCount := marked.2
    sequence := entries.foldl (fun top e => max top e.sequence) o.sequence }, entries.length)

/-- The SYNCING blocks that `recover_pending_flush_file` acts on. With a flushing file it ends at
    the first read or write that fails. -/
def recovered (o : Passive g) (flushing : Option (DataFile g.blockSize)) (failed : Option Nat) :
    List Nat :=
  let syncing := (List.range (numBlocks g)).filter fun b => o.states b = .syncing
  if flushing.isSome then syncing.take (failed.getD syncing.length) else syncing

/-- `recover_pending_flush_file`, with the number of blocks it acted on, or the error. -/
def recoverPendingFlushFile (o : Passive g) (active : DataFile g.blockSize)
    (flushing : Option (DataFile g.blockSize)) (failed : Option Nat) : Passive g × Option Nat :=
  let blocks := o.recovered flushing failed
  match flushing with
  | none => ({ o with states := fun b => if b ∈ blocks then .notPresent else o.states b },
      some blocks.length)
  | some f => ({ o with
      states := fun b => if b ∈ blocks then .dirty else o.states b
      dirtyBlockCount := o.dirtyBlockCount + blocks.length
      handle := some (blocks.foldl (fun a b => a.writeBlock b (f.cur b)) (o.handle.getD active)) },
      if failed.isSome then none else some blocks.length)

/-- The successor once the predecessor is gone and left the state `s` behind. -/
def takeover (o : Passive g) (s : Cache g C) : Passive g :=
  ((o.replayWalTail s.wal).1.recoverPendingFlushFile s.active s.crash.flushing none).1

/-- What the successor reads: a DIRTY block from its handle, others through the manifest it has
    loaded again. -/
def resolve (o : Passive g) (s : Cache g C) (b : Nat) : BlockData g.blockSize :=
  if o.states b = .dirty then (o.handle.getD s.active).cur b else s.content s.durable b

/-- The state of the block after the tail of the log. -/
def after (o : Passive g) (wal : List WalEntry) (b : Nat) : SparseBlockState :=
  if ∃ e ∈ wal, e.blockIndex = b ∧ o.sequence < e.sequence then .dirty else o.states b

theorem replayWalTail_map (o : Passive g) (wal : List WalEntry) :
    (o.replayWalTail wal).1.states = applyEntries (numBlocks g) o.states (o.tail wal) := by
  have marks (es : List WalEntry) : ∀ acc : StateMap × Nat,
      (es.foldl (fun (acc : StateMap × Nat) e =>
        (applyEntry (numBlocks g) acc.1 e,
          if e.blockIndex < numBlocks g ∧ acc.1 e.blockIndex ≠ .dirty then acc.2 + 1 else acc.2))
        acc).1 = applyEntries (numBlocks g) acc.1 es := by
    induction es with
    | nil => exact fun _ => rfl
    | cons e rest ih => exact fun acc => ih _
  exact marks _ _

theorem replayWalTail_states (o : Passive g) (wal : List WalEntry) (range : g.InRange b) :
    (o.replayWalTail wal).1.states b = o.after wal b := by
  have inside := lt_numBlocks.mpr range
  rw [replayWalTail_map, applyEntries_eq]
  have same : (b < numBlocks g ∧ ∃ e ∈ o.tail wal, e.blockIndex = b) ↔
      ∃ e ∈ wal, e.blockIndex = b ∧ o.sequence < e.sequence := by
    constructor
    · rintro ⟨_, e, listed, at_b⟩
      obtain ⟨logged, new⟩ := List.mem_filter.mp listed
      exact ⟨e, logged, at_b, of_decide_eq_true new⟩
    · rintro ⟨e, logged, at_b, new⟩
      exact ⟨inside, e, List.mem_filter.mpr ⟨logged, decide_eq_true new⟩, at_b⟩
  exact if_congr same rfl rfl

section Takeover

variable (o : Passive g)

theorem mem_recovered {flushing : Option (DataFile g.blockSize)} :
    b ∈ o.recovered flushing none ↔ b < numBlocks g ∧ o.states b = .syncing := by
  simp [recovered]

theorem mem_syncing (wal : List WalEntry) (flushing : Option (DataFile g.blockSize))
    (range : g.InRange b) :
    b ∈ (o.replayWalTail wal).1.recovered flushing none ↔ o.after wal b = .syncing := by
  rw [mem_recovered, o.replayWalTail_states wal range]
  exact and_iff_right (lt_numBlocks.mpr range)

/-- The state and the bytes of a block after the recovery of the flushing file. -/
theorem takeover_block (running : s.Running) (range : g.InRange b) :
    (o.takeover s).states b = (if o.after s.wal b = .syncing then
        if s.flushingPath.isSome then .dirty else .notPresent
      else o.after s.wal b) ∧
    ((o.takeover s).handle.getD s.active).cur b = (if o.after s.wal b = .syncing then
        (s.flushingPath.map (DataFile.cur · b)).getD ((o.handle.getD s.active).cur b)
      else (o.handle.getD s.active).cur b) := by
  have listed := o.mem_syncing s.wal s.flushingPath range
  have state := o.replayWalTail_states s.wal range
  unfold takeover
  rw [running.crash_flushing]
  cases flushing : s.flushingPath with
  | none =>
    rw [flushing] at listed
    refine ⟨(if_congr listed rfl state).trans ?_, ?_⟩
    · simp
    · exact (ite_self _).symm
  | some f =>
    rw [flushing] at listed
    refine ⟨(if_congr listed rfl state).trans ?_, ?_⟩
    · simp
    · exact (copied_cur f _ _ b).trans (if_congr listed rfl rfl)

/-- A block that is SYNCING for the successor comes from the flushing file, or from S3 if that is
    gone. -/
theorem resolve_syncing (running : s.Running) (range : g.InRange b)
    (syncing : o.after s.wal b = .syncing) :
    (o.takeover s).resolve s b =
      (s.flushingPath.map (DataFile.cur · b)).getD (s.content s.durable b) := by
  obtain ⟨state, cur⟩ := o.takeover_block running range
  rw [if_pos syncing] at state cur
  unfold resolve
  rw [state, cur]
  cases s.flushingPath <;> rfl

/-- Another block is where the log and the states say. -/
theorem resolve_other (running : s.Running) (range : g.InRange b)
    (other : o.after s.wal b ≠ .syncing) :
    (o.takeover s).resolve s b = if o.after s.wal b = .dirty then (o.handle.getD s.active).cur b
      else s.content s.durable b := by
  obtain ⟨state, cur⟩ := o.takeover_block running range
  rw [if_neg other] at state cur
  unfold resolve
  rw [state, cur]

end Takeover

end Passive

/-! ## What the predecessor does to its files -/

/-- The step removes the flushing file. -/
def Act.Removes (s : Cache g C) : Act → Prop
  | .removeOrphan ok | .removeEmpty ok | .deleteFile ok | .unlink ok | .syncDelete ok => ok = true
  | .dropFlush applied => applied = true ∧ ∃ r, s.flush = some r ∧ r.stage.Deletes
  | _ => False

/-- Skipped blocks are copied from the flushing file only while they are SYNCING. -/
theorem unskip_cur {f : DataFile g.blockSize} {v : BlockData g.blockSize} (uncopied bs : List Nat)
    (own : s.states b = .syncing → f.cur b = v) (h : s.active.cur b = v) :
    (bs.foldl (unskipBlock f uncopied) s).active.cur b = v := by
  induction bs generalizing s with
  | nil => exact h
  | cons first rest ih =>
    have kept : (unskipBlock f uncopied s first).active.cur b = v := by
      unfold unskipBlock
      split
      · rename_i syncing
        split
        · exact h
        · rw [transitionToDirty_active]
          by_cases here : b = first
          · subst here
            exact (Function.update_self _ _ _).trans (own syncing)
          · exact (Function.update_of_ne here _ _).trans h
      · rw [transitionToDirty_active]
        exact h
    refine ih (fun syncing => own ?_) kept
    unfold unskipBlock at syncing
    split at syncing
    · split at syncing
      · exact syncing
      · rw [transitionToDirty_states, Function.update_apply] at syncing
        split at syncing
        · cases syncing
        · exact syncing
    · rw [transitionToDirty_states, Function.update_apply] at syncing
      split at syncing
      · cases syncing
      · exact syncing

section Files

variable {a : Act}
  (quiet : a.Internal)
include quiet

/-- Until the next rotation the active file keeps what it has of the guest's bytes. -/
theorem step_active (data : DataInv s) (range : g.InRange b) (h : s.active.cur b = s.acked b)
    (unrotated : a ≠ .rotate .ok) (taken : a.step s = some t) : t.active.cur b = s.acked b := by
  have ok := data.blocks b range
  cases step_cases taken with
  | write done => exact absurd rfl (quiet.1 _ _)
  | zeroRange done => exact absurd rfl (quiet.2 _ _)
  | rotate at_r named => exact absurd rfl unrotated
  | @compute _ _ claim f _ _ skipped uncopied at_r nonempty handle computed =>
    refine unskip_cur uncopied _ (fun syncing => ?_) h
    unfold BlockOk at ok
    rw [syncing] at ok
    exact ok.1 f handle
  | @evict _ _ _ plans at_r =>
    exact (congrArg (DataFile.cur · b) (evictBlocks_active s (flushedBlocks plans))).trans h
  | @copyBack _ _ claim uncopied at_r =>
    change (s.copyBack claim uncopied).active.cur b = _
    unfold copyBack
    cases handle : s.flushingFile with
    | none => exact h
    | some f =>
      refine ((copyBack_fold f s _).2.2 b).trans ?_
      split
      · rename_i copied
        unfold BlockOk at ok
        rw [copied.2] at ok
        exact ok.1 f handle
      · exact h
  | @strand _ _ claim recovered at_r =>
    obtain ⟨_, _, syncingIn, _⟩ := data.stage _ at_r
    rw [strand_all claim.inRange syncingIn]
    exact h
  | @redirty _ _ recovered at_r =>
    have same := foldl_field Cache.active transitionToDirty_active s recovered
    exact (congrArg (DataFile.cur · b) same).trans h
  | removeEmpty at_r | deleteFile at_r | unlink at_r | syncDelete at_r | dropDeleting at_r waits
  | dropPutting at_r waits => split <;> exact h
  | _ => exact h

/-- Apart from a rotation the flushing file stays or is removed. -/
theorem step_path (unrotated : a ≠ .rotate .ok) (taken : a.step s = some t) :
    t.flushingPath = s.flushingPath ∨ (a.Removes s ∧ t.flushingPath = none) := by
  cases step_cases taken with
  | write done => exact absurd rfl (quiet.1 _ _)
  | zeroRange done => exact absurd rfl (quiet.2 _ _)
  | rotate at_r named => exact absurd rfl unrotated
  | compute at_r nonempty handle computed =>
    exact Or.inl (shifts_unskip _ _ s _).local.flushingPath
  | evict at_r => exact Or.inl (shifts_evictBlocks s _).local.flushingPath
  | copyBack at_r => exact Or.inl (shifts_copyBack s _ _).local.flushingPath
  | strand at_r => exact Or.inl (shifts_strand _ s _).local.flushingPath
  | redirty at_r => exact Or.inl (shifts_redirty s _).local.flushingPath
  | removeOrphan at_r => exact Or.inr ⟨rfl, rfl⟩
  | @removeEmpty _ _ ok at_r | @deleteFile _ _ ok at_r | @unlink _ _ _ ok at_r
  | @syncDelete _ _ ok at_r =>
    cases ok
    · exact Or.inl rfl
    · exact Or.inr ⟨rfl, rfl⟩
  | @dropDeleting _ _ _ applied at_r waits =>
    cases applied
    · exact Or.inl rfl
    · exact Or.inr ⟨⟨rfl, _, at_r, waits⟩, rfl⟩
  | dropPutting at_r waits => exact Or.inl (by split <;> rfl)
  | _ => exact Or.inl rfl

/-- Only the end of a checkpoint touches the log. -/
theorem step_wal (kept : a ≠ .ckptTruncate) (taken : a.step s = some t) :
    t.log = s.log := by
  cases step_cases taken with
  | write done => exact absurd rfl (quiet.1 _ _)
  | zeroRange done => exact absurd rfl (quiet.2 _ _)
  | ckptTruncate at_run covered | ckptKeep at_run => exact absurd rfl kept
  | rotate at_r named => exact (shifts_claimDirty (s.setFlags true s.sequence)).log
  | compute at_r nonempty handle computed => exact (shifts_unskip _ _ s _).log
  | evict at_r => exact (shifts_evictBlocks s _).log
  | copyBack at_r => exact (shifts_copyBack s _ _).log
  | strand at_r => exact (shifts_strand _ s _).log
  | redirty at_r => exact (shifts_redirty s _).log
  | removeEmpty at_r | deleteFile at_r | unlink at_r | syncDelete at_r | dropDeleting at_r waits
  | dropPutting at_r waits => split <;> rfl
  | _ => rfl

theorem step_present (data : DataInv s) (copies : a.Copies) (range : g.InRange b)
    (taken : a.step s = some t) (now : t.Present b) : s.Present b := by
  obtain ⟨u, done, same⟩ := step_log data copies quiet taken
  have before := same.present b range now
  have states : u.states = s.states := by cases done <;> rfl
  unfold Present at before ⊢
  exact states ▸ before

end Files

/-! ## What the successor has to find -/

/-- Every block is where the successor will look for it. -/
structure Passive.Tracks (o : Passive g) (s : Cache g C) : Prop where
  number : o.sequence ≤ s.sequence
  covered : ∀ b, g.InRange b → s.Present b → o.after s.wal b ≠ .notPresent
  dirty : ∀ b, g.InRange b → o.after s.wal b = .dirty →
    (o.handle.getD s.active).cur b = s.acked b
  syncing : ∀ b, g.InRange b → o.after s.wal b = .syncing →
    (∀ f, s.flushingPath = some f → f.cur b = s.acked b) ∧
      (s.flushingPath = none → ¬s.Present b)
  noClean : ∀ b, o.states b ≠ .clean

namespace Passive

theorem after_ne_clean {o : Passive g} (h : ∀ b, o.states b ≠ .clean) (wal : List WalEntry)
    (b : Nat) : o.after wal b ≠ .clean := by
  unfold after
  split
  · nofun
  · exact h b

/-- The successor reads every block as it was last acknowledged. -/
theorem Tracks.resolves {o : Passive g} (h : o.Tracks s) (inS3 : InS3 s) (running : s.Running)
    (range : g.InRange b) : (o.takeover s).resolve s b = s.acked b := by
  cases state : o.after s.wal b with
  | clean => exact absurd state (after_ne_clean h.noClean s.wal b)
  | dirty =>
    rw [o.resolve_other running range (by rw [state]; nofun), if_pos state]
    exact h.dirty b range state
  | notPresent =>
    rw [o.resolve_other running range (by rw [state]; nofun), if_neg (by rw [state]; nofun)]
    exact inS3 b range fun present => h.covered b range present state
  | syncing =>
    obtain ⟨inFile, gone⟩ := h.syncing b range state
    rw [o.resolve_syncing running range state]
    cases path : s.flushingPath with
    | none => exact inS3 b range (gone path)
    | some f => exact inFile f path

theorem after_append (o : Passive g) (wal : List WalEntry) {n : Nat} (new : o.sequence < n)
    (b b' : Nat) : o.after (wal ++ [⟨b, n⟩]) b' = if b' = b then .dirty else o.after wal b' := by
  unfold after
  by_cases here : b' = b
  · rw [if_pos here, if_pos]
    exact ⟨⟨b, n⟩, List.mem_append_right _ List.mem_cons_self, here.symm, new⟩
  · rw [if_neg here]
    refine if_congr ?_ rfl rfl
    constructor
    · rintro ⟨e, listed, at_b, later⟩
      cases List.mem_append.mp listed with
      | inl old => exact ⟨e, old, at_b, later⟩
      | inr last =>
        cases List.mem_singleton.mp last
        exact absurd at_b.symm here
    · rintro ⟨e, listed, rest⟩
      exact ⟨e, List.mem_append_left _ listed, rest⟩

section Put

variable {o : Passive g} (patch : Patch g) {bs : List Nat}

/-- A write to a block: the successor finds it DIRTY, in the file both have open. -/
theorem Tracks.putBlock (h : o.Tracks s) (data : DataInv s) (live : o.handle = none)
    (ok : s.Loggable (b :: bs))
    (numbered : o.after s.wal b = .syncing → (s.promoteBlock b).states b ≠ .dirty) :
    o.Tracks (putBlock patch s b) ∧
      ∀ b', b' ≠ b → o.after (Cache.putBlock patch s b).wal b' = o.after s.wal b' := by
  have d := dirtied_putBlock patch s b
  have after := putBlock_dataInv patch s b data
  -- the block is DIRTY now, so the active file has it
  have own (range : g.InRange b) :
      (Cache.putBlock patch s b).active.cur b = (Cache.putBlock patch s b).acked b := by
    have here := after.blocks b range
    unfold BlockOk at here
    rw [d.states, Function.update_self] at here
    exact here
  have present {b' : Nat} (other : b' ≠ b) (now : (Cache.putBlock patch s b).Present b') :
      s.Present b' := (putBlock_present patch now).resolve_left other
  have keeps (sequence : o.sequence ≤ (Cache.putBlock patch s b).sequence)
      (same : ∀ b', b' ≠ b → o.after (Cache.putBlock patch s b).wal b' = o.after s.wal b')
      (marked : g.InRange b → o.after (Cache.putBlock patch s b).wal b ≠ .notPresent ∧
        o.after (Cache.putBlock patch s b).wal b ≠ .syncing) :
      o.Tracks (Cache.putBlock patch s b) := by
    refine ⟨sequence, fun b' range now => ?_, fun b' range state => ?_, fun b' range state => ?_,
      h.noClean⟩ <;> by_cases here : b' = b
    · subst here
      exact (marked range).1
    · rw [same b' here]
      exact h.covered b' range (present here now)
    · subst here
      rw [live]
      exact own range
    · have before := h.dirty b' range (same b' here ▸ state)
      rw [live] at before ⊢
      exact ((d.other b' here).1.trans before).trans (d.other b' here).2.symm
    · subst here
      exact absurd state (marked range).2
    · obtain ⟨inFile, gone⟩ := h.syncing b' range (same b' here ▸ state)
      rw [d.path, (d.other b' here).2]
      exact ⟨inFile, fun none now => gone none (present here now)⟩
  cases putBlock_log patch ok with
  | inl kept =>
    obtain ⟨wal, sequence, was⟩ := kept
    have same (b' : Nat) : o.after (Cache.putBlock patch s b).wal b' = o.after s.wal b' := by
      rw [wal]
    refine ⟨keeps (sequence ▸ h.number) (fun b' _ => same b') fun range => ?_, fun b' _ => same b'⟩
    rw [same b]
    refine ⟨h.covered b range was, fun state => ?_⟩
    rcases putBlock_number patch s b with ⟨dirty, _⟩ | ⟨_, appended, _⟩
    · exact numbered state dirty
    · rw [wal] at appended
      exact absurd (congrArg List.length appended) (by simp)
  | inr appended =>
    obtain ⟨wal, sequence⟩ := appended
    have new : o.sequence < s.sequence + 1 := Nat.lt_succ_of_le h.number
    have marks (b' : Nat) : o.after (Cache.putBlock patch s b).wal b' =
        if b' = b then .dirty else o.after s.wal b' := by
      rw [wal]
      exact o.after_append s.wal new b b'
    have same (b' : Nat) (other : b' ≠ b) :
        o.after (Cache.putBlock patch s b).wal b' = o.after s.wal b' :=
      (marks b').trans (if_neg other)
    refine ⟨keeps ?_ same fun _ => ?_, same⟩
    · rw [sequence]
      exact Nat.le_succ_of_le h.number
    · rw [marks b, if_pos rfl]
      exact ⟨nofun, nofun⟩

theorem Tracks.putBlocks (live : o.handle = none) (nodup : bs.Nodup) : ∀ s : Cache g C, o.Tracks s →
    DataInv s → s.Loggable bs →
    (∀ b ∈ bs, o.after s.wal b = .syncing → (s.promoteBlock b).states b ≠ .dirty) →
    o.Tracks (bs.foldl (Cache.putBlock patch) s) := by
  induction bs with
  | nil => exact fun s h _ _ _ => h
  | cons first rest ih =>
    intro s h data ok numbered
    obtain ⟨next, same⟩ := h.putBlock patch data live ok (numbered first List.mem_cons_self)
    refine ih nodup.of_cons _ next (putBlock_dataInv patch s first data) (ok.tail patch)
      fun b mem state => ?_
    have other : b ≠ first := fun here => (List.nodup_cons.mp nodup).1 (here ▸ mem)
    rw [promoteBlock_putBlock patch s other]
    exact numbered b (List.mem_cons_of_mem _ mem) (same b other ▸ state)

end Put

/-- The file the successor has open is renamed and gets no more writes. -/
def rotated (o : Passive g) (active : DataFile g.blockSize) : Passive g :=
  { o with handle := some (o.handle.getD active) }

section Inner

variable {o : Passive g} {a : Act}

theorem Tracks.frame (h : o.Tracks s) (log : t.log = s.log) (acked : t.acked = s.acked)
    (present : ∀ b, g.InRange b → t.Present b → s.Present b)
    (dirty : ∀ b, g.InRange b → (o.handle.getD s.active).cur b = s.acked b →
      (o.handle.getD t.active).cur b = s.acked b)
    (path : t.flushingPath = s.flushingPath ∨ (t.flushingPath = none ∧
      ∀ b, g.InRange b → o.after s.wal b = .syncing → ¬s.Present b)) : o.Tracks t := by
  obtain ⟨wal, sequence⟩ := Prod.mk.inj log
  refine ⟨sequence ▸ h.number, fun b range now => ?_, fun b range state => ?_,
    fun b range state => ?_, h.noClean⟩ <;> rw [wal] at *
  · exact h.covered b range (present b range now)
  · rw [acked]
    exact dirty b range (h.dirty b range state)
  · obtain ⟨inFile, gone⟩ := h.syncing b range state
    rw [acked]
    rcases path with same | ⟨none, absent⟩
    · rw [same]
      exact ⟨inFile, fun none now => gone none (present b range now)⟩
    · exact ⟨fun f found => (by rw [none] at found; cases found),
        fun _ now => absent b range state (present b range now)⟩

/-- A step of the predecessor that is neither a write nor a rotation. -/
theorem Tracks.inner (h : o.Tracks s) (data : DataInv s) (copies : a.Copies)
    (quiet : a.Internal) (kept : a ≠ .ckptTruncate) (unrotated : a ≠ .rotate .ok)
    (evicted : a.Removes s → ∀ b, g.InRange b → o.after s.wal b = .syncing → ¬s.Present b)
    (taken : a.step s = some t) : o.Tracks t := by
  refine h.frame (step_wal quiet kept taken) (inner_acked quiet taken)
    (fun b range now => step_present quiet data copies range taken now) (fun b range cur => ?_) ?_
  · cases handle : o.handle with
    | some f =>
      rw [handle] at cur
      exact cur
    | none =>
      rw [handle] at cur
      exact step_active quiet data range cur unrotated taken
  · exact (step_path quiet unrotated taken).imp_right fun removed =>
      ⟨removed.2, evicted removed.1⟩

/-- A rotation: the blocks the successor takes from the flushing file have to be in it. -/
theorem Tracks.rotate (h : o.Tracks s) (data : DataInv s)
    (inActive : ∀ b, g.InRange b → o.after s.wal b = .syncing → s.active.cur b = s.acked b)
    (taken : (Act.rotate .ok).step s = some t) : (o.rotated s.active).Tracks t := by
  have quiet : (∀ offset data, Act.rotate .ok ≠ .write offset data) ∧
      ∀ offset len, Act.rotate .ok ≠ .zeroRange offset len := ⟨nofun, nofun⟩
  have present := fun b range now =>
    step_present (b := b) quiet data trivial range taken now
  have acked := inner_acked quiet taken
  obtain ⟨wal, sequence⟩ := Prod.mk.inj (step_wal quiet nofun taken)
  have path : t.flushingPath = some s.active := by
    cases step_cases taken with
    | rotate at_r named =>
      exact congrArg some (claimDirty_active (s.setFlags true s.sequence))
  have after (b : Nat) : (o.rotated s.active).after t.wal b = o.after s.wal b := by
    rw [wal]
    rfl
  refine ⟨sequence ▸ h.number, fun b range now => ?_, fun b range state => ?_,
    fun b range state => ?_, h.noClean⟩ <;> rw [after b] at *
  · exact h.covered b range (present b range now)
  · rw [acked]
    exact h.dirty b range state
  · rw [path, acked]
    refine ⟨fun f found => ?_, nofun⟩
    cases found
    exact inActive b range state

end Inner

end Passive

/-! ## Opening -/

/-- The successor may open the files: the numbers are not behind the files, a block it takes as
    DIRTY is in the active file, and one it takes as SYNCING in the flushing file. -/
structure Cache.Shareable (s : Cache g C) : Prop where
  counted : s.Counted
  dirty : ∀ b, g.InRange b → s.crash.passiveStates g b = .dirty → s.active.cur b = s.acked b
  syncing : ∀ b, g.InRange b → s.crash.passiveStates g b = .syncing →
    ∀ f, s.flushingPath = some f → f.cur b = s.acked b

/-- Nothing in the log is new to a cache that has just opened it. -/
theorem passiveOpen_after (s : Cache g C) (b : Nat) :
    s.passiveOpen.after s.wal b = s.crash.passiveStates g b := by
  obtain ⟨low, high⟩ := Wal.foldl_max_le s.crash.walEntries s.crash.loaded.maxSequence
  refine if_neg ?_
  rintro ⟨e, listed, _, new⟩
  refine absurd new (not_lt.mpr ?_)
  by_cases replays : walMinSeq s.crash.loaded < e.sequence
  · exact high e (List.mem_filter.mpr ⟨listed, decide_eq_true replays⟩)
  · exact (not_lt.mp replays).trans ((walMinSeq_le _).trans low)

theorem Cache.Counted.openSequence_le (h : s.Counted) : s.crash.openSequence ≤ s.sequence := by
  rcases foldl_max_top s.crash.walEntries s.crash.loaded.maxSequence with saved | ⟨e, listed, top⟩
  · exact saved.trans h.1
  · exact top.trans (h.2 e (List.mem_filter.mp listed).1)

theorem passiveOpen_tracks (tenure : TenureInv s) (safe : s.Shareable) : s.passiveOpen.Tracks s := by
  have record : RecordInv s := tenure.files.elim id fun blank => blank.recordInv safe.counted
  have live : s.passiveOpen.handle = none := if_pos tenure.running.named
  refine ⟨safe.counted.openSequence_le, fun b range present => ?_, fun b range state => ?_,
    fun b range state => ?_, fun b => ?_⟩
  · rw [passiveOpen_after]
    have replayed := (Disk.replayed_local_iff s.crash range).mpr ?_
    · unfold Disk.passiveStates
      cases at_b : s.crash.replayed g b with
      | dirty => nofun
      | syncing => dsimp only; split <;> nofun
      | clean | notPresent => rw [at_b] at replayed; cases replayed
    · cases record.log.recorded b range present with
      | inl saved => exact Or.inl saved
      | inr logged =>
        obtain ⟨e, listed, at_b, later⟩ := logged
        exact Or.inr ⟨e, List.mem_filter.mpr ⟨listed, decide_eq_true later⟩, at_b⟩
  · rw [passiveOpen_after] at state
    rw [live]
    exact safe.dirty b range state
  · rw [passiveOpen_after] at state
    refine ⟨safe.syncing b range state, fun none => ?_⟩
    -- without a flushing file nothing is left SYNCING
    have gone : s.crash.flushing = .none := tenure.running.crash_flushing.trans none
    unfold Disk.passiveStates at state
    rw [gone] at state
    cases at_b : s.crash.replayed g b <;> rw [at_b] at state <;> cases state
  · change s.crash.passiveStates g b ≠ .clean
    unfold Disk.passiveStates
    cases s.crash.replayed g b with
    | syncing => dsimp only; split <;> nofun
    | _ => nofun

end GlideFS.WriteCache
