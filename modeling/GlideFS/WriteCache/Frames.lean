import GlideFS.WriteCache.Flusher

/-! # What the steps of a cache leave alone

Guest writes and the block loops of a flush change only the local side of a cache:
states and their counts, the active file, the log and its numbers. `Local` says so
with one equation, from which the other fields are read off, and `Shifts` says it of
the loops, which leave the log alone too.
-/

namespace GlideFS.WriteCache

open Block Lib

variable {Hash PackId : Type} [DecidableEq Hash] [DecidableEq PackId] {g : Geometry}
  {C : Codec (BlockData g.blockSize) Hash PackId} {s t u : Cache g C}

namespace Cache

/-- `t` has the fields of `s` outside the local side. -/
def Local (s t : Cache g C) : Prop :=
  t = { s with
    states := t.states
    dirtyBlockCount := t.dirtyBlockCount
    syncingBlockCount := t.syncingBlockCount
    sequence := t.sequence
    active := t.active
    wal := t.wal
    acked := t.acked
    written := t.written }

/-- What a flush does to its blocks: `t` has the fields of `s` but for the states with their
    counts and the active file. -/
def Shifts (s t : Cache g C) : Prop :=
  t = { s with
    states := t.states
    dirtyBlockCount := t.dirtyBlockCount
    syncingBlockCount := t.syncingBlockCount
    active := t.active }

/-- The log and the last number taken. -/
def log (s : Cache g C) : List WalEntry × Nat := (s.wal, s.sequence)

/-- The packs in S3, the manifest in memory and the stored one. -/
def remote (s : Cache g C) : PackStore C × VolumeManifest PackId × VolumeManifest PackId :=
  (s.store, s.volumeManifest, s.durable)

theorem content_memory (same : t.remote = s.remote) (b : Nat) :
    t.content t.volumeManifest b = s.content s.volumeManifest b := by
  simp only [remote, Prod.mk.injEq] at same
  unfold content
  rw [same.1, same.2.1]

theorem content_durable (same : t.remote = s.remote) (b : Nat) :
    t.content t.durable b = s.content s.durable b := by
  simp only [remote, Prod.mk.injEq] at same
  unfold content
  rw [same.1, same.2.2]

namespace Local

theorem refl (s : Cache g C) : Local s s := rfl

theorem trans (first : Local s t) (second : Local t u) : Local s u := by
  unfold Local at first second ⊢
  rw [second, first]

theorem foldl {step : Cache g C → Nat → Cache g C} (each : ∀ s b, Local s (step s b))
    (s : Cache g C) (bs : List Nat) : Local s (bs.foldl step s) := by
  induction bs generalizing s with
  | nil => exact refl s
  | cons b rest ih => exact (each s b).trans (ih (step s b))

theorem store (h : Local s t) : t.store = s.store := by rw [h]

theorem volumeManifest (h : Local s t) : t.volumeManifest = s.volumeManifest := by rw [h]

theorem durable (h : Local s t) : t.durable = s.durable := by rw [h]

theorem remote (h : Local s t) : t.remote = s.remote := by rw [h, Cache.remote, Cache.remote]

theorem flushingFile (h : Local s t) : t.flushingFile = s.flushingFile := by rw [h]

theorem flushingPath (h : Local s t) : t.flushingPath = s.flushingPath := by rw [h]

theorem activeName (h : Local s t) : t.activeName = s.activeName := by rw [h]

theorem metadata (h : Local s t) : t.metadata = s.metadata := by rw [h]

theorem walSynced (h : Local s t) : t.walSynced = s.walSynced := by rw [h]

theorem ckpt (h : Local s t) : t.ckpt = s.ckpt := by rw [h]

theorem flush (h : Local s t) : t.flush = s.flush := by rw [h]

theorem returned (h : Local s t) : t.returned = s.returned := by rw [h]

theorem remaining (h : Local s t) : t.remaining = s.remaining := by rw [h]

end Local

namespace Shifts

theorem refl (s : Cache g C) : Shifts s s := rfl

theorem trans (first : Shifts s t) (second : Shifts t u) : Shifts s u := by
  unfold Shifts at first second ⊢
  rw [second, first]

theorem foldl {step : Cache g C → Nat → Cache g C} (each : ∀ s b, Shifts s (step s b))
    (s : Cache g C) (bs : List Nat) : Shifts s (bs.foldl step s) := by
  induction bs generalizing s with
  | nil => exact refl s
  | cons b rest ih => exact (each s b).trans (ih (step s b))

theorem log (h : Shifts s t) : t.log = s.log := by rw [h, Cache.log, Cache.log]

theorem acked (h : Shifts s t) : t.acked = s.acked := by rw [h]

theorem written (h : Shifts s t) : t.written = s.written := by rw [h]

end Shifts

theorem Shifts.local (h : Shifts s t) : Local s t := by
  unfold Local
  rw [h]

theorem Shifts.remote (h : Shifts s t) : t.remote = s.remote := h.local.remote

theorem shifts_transitionToDirty (s : Cache g C) (b : Nat) : Shifts s (s.transitionToDirty b) := by
  unfold transitionToDirty
  split <;> rfl

theorem shifts_transitionDirtyToSyncing (s : Cache g C) (b : Nat) :
    Shifts s (s.transitionDirtyToSyncing b) := by
  unfold transitionDirtyToSyncing
  split <;> rfl

theorem shifts_transitionSyncingToNotPresent (s : Cache g C) (b : Nat) :
    Shifts s (s.transitionSyncingToNotPresent b) := by
  unfold transitionSyncingToNotPresent
  split <;> rfl

theorem shifts_writeActive (s : Cache g C) (b : Nat) (d : BlockData g.blockSize) :
    Shifts s (s.writeActive b d) := rfl

theorem shifts_promoteBlock (s : Cache g C) (b : Nat) : Shifts s (s.promoteBlock b) := by
  unfold promoteBlock
  split
  · exact .refl s
  · rename_i f _
    have moved : Shifts s ((s.writeActive b (f.cur b)).transitionToDirty b) :=
      (shifts_writeActive s b _).trans (shifts_transitionToDirty _ b)
    split
    · exact .refl s
    · exact .refl s
    · exact moved
    · split
      · exact .refl s
      · exact moved

theorem local_walAppendAndMarkDirty (s : Cache g C) (b : Nat) :
    Local s (s.walAppendAndMarkDirty b) := by
  unfold walAppendAndMarkDirty
  split
  · exact .refl s
  · exact (shifts_transitionToDirty s b).local.trans rfl

theorem local_putBlock (patch : Patch g)
    (s : Cache g C) (b : Nat) : Local s (putBlock patch s b) := by
  unfold putBlock
  exact (((shifts_promoteBlock s b).trans (shifts_writeActive _ b _)).local.trans
    (local_walAppendAndMarkDirty _ b)).trans rfl

theorem local_putBlocks (s : Cache g C) (patch : Patch g) (offset len : Nat) :
    Local s (s.putBlocks patch offset len) :=
  Local.foldl (local_putBlock patch) s _

/-- A write changes nothing or puts its blocks, without an append if a checkpoint holds the
    log. -/
theorem putRange_some {patch : Patch g} {offset len : Nat}
    (done : s.putRange patch offset len = some t) :
    (len = 0 ∧ t = s) ∨ (len ≠ 0 ∧ t = s.putBlocks patch offset len ∧
      (s.walHeld = true → t.wal.length = s.wal.length)) := by
  unfold putRange at done
  split at done
  · cases done
  · split at done
    · rename_i empty
      cases done
      exact Or.inl ⟨empty, rfl⟩
    · rename_i nonempty
      split at done
      · cases done
      · rename_i held
        cases done
        exact Or.inr ⟨nonempty, rfl, fun holds => not_not.mp fun grown => held ⟨holds, grown⟩⟩

theorem local_putRange {patch : Patch g} {offset len : Nat}
    (done : s.putRange patch offset len = some t) : Local s t := by
  cases putRange_some done with
  | inl same => exact same.2 ▸ .refl s
  | inr put => exact put.2.1 ▸ local_putBlocks s patch offset len

theorem shifts_unskipBlock (f : DataFile g.blockSize) (uncopied : List Nat) (s : Cache g C)
    (b : Nat) : Shifts s (unskipBlock f uncopied s b) := by
  unfold unskipBlock
  split
  · split
    · exact .refl s
    · exact (shifts_writeActive s b _).trans (shifts_transitionToDirty _ b)
  · exact shifts_transitionToDirty s b

theorem shifts_copyBack (s : Cache g C) (claim : Claim g) (uncopied : List Nat) :
    Shifts s (s.copyBack claim uncopied) := by
  unfold copyBack
  split
  · exact .refl s
  · refine Shifts.foldl (fun s b => ?_) s _
    unfold copyBackBlock
    split
    · exact shifts_writeActive s b _
    · exact .refl s

theorem shifts_strandBlock (recovered : List Nat) (s : Cache g C) (b : Nat) :
    Shifts s (strandBlock recovered s b) := by
  unfold strandBlock
  split
  · exact .refl s
  · exact shifts_transitionSyncingToNotPresent s b

theorem shifts_claimDirty (s : Cache g C) : Shifts s s.claimDirty :=
  Shifts.foldl shifts_transitionDirtyToSyncing s _

theorem shifts_unskip (f : DataFile g.blockSize) (uncopied : List Nat) (s : Cache g C)
    (bs : List Nat) : Shifts s (bs.foldl (unskipBlock f uncopied) s) :=
  Shifts.foldl (shifts_unskipBlock f uncopied) s bs

theorem shifts_evictBlocks (s : Cache g C) (bs : List Nat) : Shifts s (s.evictBlocks bs) :=
  Shifts.foldl shifts_transitionSyncingToNotPresent s bs

theorem shifts_strand (recovered : List Nat) (s : Cache g C) (bs : List Nat) :
    Shifts s (bs.foldl (strandBlock recovered) s) :=
  Shifts.foldl (shifts_strandBlock recovered) s bs

theorem shifts_redirty (s : Cache g C) (bs : List Nat) : Shifts s (bs.foldl transitionToDirty s) :=
  Shifts.foldl shifts_transitionToDirty s bs

/-! ## Block states -/

@[simp] theorem transitionToDirty_states (s : Cache g C) (b : Nat) :
    (s.transitionToDirty b).states = Function.update s.states b .dirty := by
  unfold transitionToDirty
  split
  · rename_i dirty
    exact (Function.update_eq_self_iff.mpr dirty.symm).symm
  · rfl
  · rfl
  · rfl

theorem transitionSyncingToNotPresent_states (s : Cache g C) (b b' : Nat) :
    (s.transitionSyncingToNotPresent b).states b' =
      if b' = b ∧ s.states b = .syncing then .notPresent else s.states b' := by
  unfold transitionSyncingToNotPresent
  split
  · rename_i syncing
    simp only [setState, Function.update_apply, syncing, and_true]
  · rename_i other
    rw [if_neg fun h => other h.2]

theorem evictBlocks_states (s : Cache g C) (bs : List Nat) (b : Nat) :
    (s.evictBlocks bs).states b =
      if b ∈ bs ∧ s.states b = .syncing then .notPresent else s.states b := by
  unfold evictBlocks
  induction bs generalizing s with
  | nil => simp
  | cons first rest ih =>
    rw [List.foldl_cons, ih, transitionSyncingToNotPresent_states]
    by_cases here : b = first
    · subst here
      by_cases syncing : s.states b = .syncing <;> simp [syncing]
    · simp [here]

/-! ## One block of a guest write -/

theorem evictBlocks_active (s : Cache g C) (bs : List Nat) :
    (s.evictBlocks bs).active = s.active := by
  refine foldl_field Cache.active (fun s b => ?_) s bs
  unfold transitionSyncingToNotPresent
  split <;> rfl

@[simp] theorem transitionToDirty_active (s : Cache g C) (b : Nat) :
    (s.transitionToDirty b).active = s.active := by
  unfold transitionToDirty
  split <;> rfl

@[simp] theorem transitionToDirty_acked (s : Cache g C) (b : Nat) :
    (s.transitionToDirty b).acked = s.acked := (shifts_transitionToDirty s b).acked

@[simp] theorem transitionToDirty_log (s : Cache g C) (b : Nat) :
    (s.transitionToDirty b).wal = s.wal ∧ (s.transitionToDirty b).sequence = s.sequence :=
  Prod.ext_iff.mp (shifts_transitionToDirty s b).log

/-- A block is promoted when the flushing file has it: always for SYNCING, for NOT_PRESENT
    when its bytes there are not all zero. -/
theorem promoteBlock_cases (s : Cache g C) (b : Nat) :
    (s.promoteBlock b = s ∧ (s.states b = .syncing → s.flushingFile = none)) ∨
      ∃ f, s.flushingFile = some f ∧
        (s.states b = .syncing ∨ s.states b = .notPresent ∧ f.cur b ≠ 0) ∧
        s.promoteBlock b = (s.writeActive b (f.cur b)).transitionToDirty b := by
  unfold promoteBlock
  cases handle : s.flushingFile with
  | none => exact Or.inl ⟨rfl, fun _ => rfl⟩
  | some f =>
    cases at_b : s.states b with
    | dirty => exact Or.inl ⟨rfl, nofun⟩
    | clean => exact Or.inl ⟨rfl, nofun⟩
    | syncing => exact Or.inr ⟨f, rfl, Or.inl rfl, rfl⟩
    | notPresent =>
      dsimp only
      split
      · exact Or.inl ⟨rfl, nofun⟩
      · rename_i nonzero
        exact Or.inr ⟨f, rfl, Or.inr ⟨rfl, nonzero⟩, rfl⟩

theorem promoteBlock_other (s : Cache g C) {b b' : Nat} (other : b' ≠ b) :
    (s.promoteBlock b).states b' = s.states b' ∧
      (s.promoteBlock b).active.cur b' = s.active.cur b' := by
  rcases promoteBlock_cases s b with ⟨same, _⟩ | ⟨f, _, _, moved⟩
  · rw [same]
    exact ⟨rfl, rfl⟩
  · rw [moved, transitionToDirty_states, transitionToDirty_active]
    simp [writeActive, DataFile.writeBlock, other]

theorem walAppendAndMarkDirty_log (s : Cache g C) (b : Nat) :
    (s.walAppendAndMarkDirty b).wal =
        (if s.states b = .dirty then s.wal else s.wal ++ [⟨b, nextSequence s.sequence⟩]) ∧
      (s.walAppendAndMarkDirty b).sequence =
        if s.states b = .dirty then s.sequence else nextSequence s.sequence := by
  unfold walAppendAndMarkDirty
  split <;> exact ⟨rfl, rfl⟩

theorem walAppendAndMarkDirty_data (s : Cache g C) (b : Nat) :
    (s.walAppendAndMarkDirty b).states = Function.update s.states b .dirty ∧
      (s.walAppendAndMarkDirty b).active = s.active ∧
      (s.walAppendAndMarkDirty b).acked = s.acked := by
  unfold walAppendAndMarkDirty
  split
  · rename_i dirty
    exact ⟨(Function.update_eq_self_iff.mpr dirty.symm).symm, rfl, rfl⟩
  · exact ⟨transitionToDirty_states s b, transitionToDirty_active s b, transitionToDirty_acked s b⟩

variable (patch : Patch g)

theorem putBlock_states (s : Cache g C) (b : Nat) :
    (putBlock patch s b).states = Function.update s.states b .dirty := by
  unfold putBlock
  simp only [acknowledge, (walAppendAndMarkDirty_data _ b).1]
  funext b'
  by_cases same : b' = b
  · subst same
    simp
  · rw [Function.update_of_ne same, Function.update_of_ne same]
    exact (promoteBlock_other s same).1

theorem putBlock_cur (s : Cache g C) (b : Nat) :
    (putBlock patch s b).active.cur =
      Function.update s.active.cur b (patch b ((s.promoteBlock b).active.cur b)) := by
  unfold putBlock
  simp only [acknowledge, (walAppendAndMarkDirty_data _ b).2.1, writeActive, DataFile.writeBlock]
  funext b'
  by_cases same : b' = b
  · subst same
    simp
  · rw [Function.update_of_ne same, Function.update_of_ne same]
    exact (promoteBlock_other s same).2

theorem putBlock_acked (s : Cache g C) (b : Nat) :
    (putBlock patch s b).acked = Function.update s.acked b (patch b (s.base b)) := by
  unfold putBlock
  simp only [acknowledge, (walAppendAndMarkDirty_data _ b).2.2]
  exact congrArg (fun a => Function.update a b (patch b (s.base b))) (shifts_promoteBlock s b).acked

theorem putBlock_written (s : Cache g C) (b : Nat) : (putBlock patch s b).written = true := rfl

/-- A run of block writes keeps what each of them keeps. -/
theorem putRange_keeps {P : Cache g C → Prop} {patch : Patch g} {offset len : Nat}
    (each : ∀ patch s b, P s → P (putBlock patch s b)) (h : P s)
    (done : s.putRange patch offset len = some t) : P t := by
  have all (bs : List Nat) : ∀ s, P s → P (bs.foldl (putBlock patch) s) := by
    induction bs with
    | nil => exact fun _ h => h
    | cons b rest ih => exact fun s h => ih _ (each patch s b h)
  cases putRange_some done with
  | inl same => exact same.2 ▸ h
  | inr put => exact put.2.1 ▸ all _ s h

end Cache

end GlideFS.WriteCache
