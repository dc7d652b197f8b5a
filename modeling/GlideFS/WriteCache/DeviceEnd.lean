import GlideFS.WriteCache.KeptBytes

/-! # Bytes past the end of the device

Nothing is ever stored past the end of a device: writes stop there, the files end
there, and flushes only store blocks of the device. A device that grows has zeros in
its new part.
-/

namespace GlideFS.WriteCache

open Block Lib Cache

variable {Hash PackId : Type} [DecidableEq Hash] [DecidableEq PackId] {g : Geometry}
  {C : Codec (BlockData g.blockSize) Hash PackId} {s t : Cache g C} {b i : Nat}

/-- Byte `i` of block `b` is past the end. -/
structure Past (g : Geometry) (b i : Nat) : Prop where
  known : g.Addressable b
  past : g.size ≤ b * g.blockSize + i

/-- The byte is zero wherever the cache might take it from. -/
structure Cache.ZeroAt (s : Cache g C) (b i : Nat) : Prop where
  active : (s.active.cur b).get i = 0
  path : ∀ f, s.flushingPath = some f → (f.cur b).get i = 0
  file : ∀ f, s.flushingFile = some f → (f.cur b).get i = 0
  acked : (s.acked b).get i = 0
  manifest : (s.content s.volumeManifest b).get i = 0
  durable : (s.content s.durable b).get i = 0

/-- The fields it depends on. -/
def Cache.sources (s : Cache g C) :=
  (s.active, s.flushingPath, s.flushingFile, s.acked, s.store, s.volumeManifest, s.durable)

@[simp] theorem zero_get (n i : Nat) : (0 : BlockData n).get i = 0 := by
  unfold BlockData.get
  split <;> rfl

namespace Cache.ZeroAt

theorem same (h : s.ZeroAt b i) (sources : t.sources = s.sources) : t.ZeroAt b i := by
  simp only [Cache.sources, Prod.mk.injEq] at sources
  obtain ⟨active, path, file, acked, store, manifest, durable⟩ := sources
  refine ⟨active ▸ h.active, path ▸ h.path, file ▸ h.file, acked ▸ h.acked, ?_, ?_⟩
  · rw [manifest]
    unfold content
    rw [store]
    exact h.manifest
  · rw [durable]
    unfold content
    rw [store]
    exact h.durable

theorem ofLocal (h : s.ZeroAt b i) (l : Local s t) (active : (t.active.cur b).get i = 0)
    (acked : (t.acked b).get i = 0) : t.ZeroAt b i where
  active
  path := l.flushingPath ▸ h.path
  file := l.flushingFile ▸ h.file
  acked
  manifest := content_memory l.remote b ▸ h.manifest
  durable := content_durable l.remote b ▸ h.durable

theorem unmoved (h : s.ZeroAt b i) (l : Shifts s t) (active : t.active = s.active) :
    t.ZeroAt b i :=
  h.ofLocal l.local (active ▸ h.active) (l.acked ▸ h.acked)

theorem put (h : s.ZeroAt b i) (outcome : PutOutcome) : (s.putManifest outcome).ZeroAt b i := by
  refine ⟨h.active, h.path, h.file, h.acked, h.manifest, ?_⟩
  unfold putManifest content
  dsimp only
  split
  · exact h.durable
  · exact h.manifest

theorem unlinked (h : s.ZeroAt b i) : s.removeFlushing.ZeroAt b i :=
  ⟨h.active, nofun, h.file, h.acked, h.manifest, h.durable⟩

theorem unskip (h : s.ZeroAt b i) {f : DataFile g.blockSize} (zero : (f.cur b).get i = 0)
    (uncopied : List Nat) (bs : List Nat) :
    (bs.foldl (unskipBlock f uncopied) s).ZeroAt b i := by
  induction bs generalizing s with
  | nil => exact h
  | cons first rest ih =>
    refine ih (h.ofLocal (shifts_unskipBlock f uncopied s first).local ?_ ?_)
    · unfold unskipBlock
      split
      · split
        · exact h.active
        · rw [transitionToDirty_active]
          unfold writeActive DataFile.writeBlock
          dsimp only
          rw [Function.update_apply]
          split
          · rename_i here
            exact here ▸ zero
          · exact h.active
      · rw [transitionToDirty_active]
        exact h.active
    · rw [(shifts_unskipBlock f uncopied s first).acked]
      exact h.acked

theorem copiedBack (h : s.ZeroAt b i) (claim : Claim g) (uncopied : List Nat) :
    (s.copyBack claim uncopied).ZeroAt b i := by
  refine h.ofLocal (shifts_copyBack s claim uncopied).local ?_ ?_
  · unfold copyBack
    split
    · exact h.active
    · rename_i f handle
      rw [(copyBack_fold f s _).2.2 b]
      split
      · exact h.file f handle
      · exact h.active
  · rw [(shifts_copyBack s claim uncopied).acked]
    exact h.acked

end Cache.ZeroAt

theorem step_zeroAt (remote : RemoteInv False s) (data : DataInv s) (known : g.Addressable b)
    (h : s.ZeroAt b i) {a : Act}
    (quiet : a.Internal) (taken : a.step s = some t) : t.ZeroAt b i := by
  cases step_cases taken with
  | write done => exact absurd rfl (quiet.1 _ _)
  | zeroRange done => exact absurd rfl (quiet.2 _ _)
  | rotate at_r named =>
    have claimed := (h.same (t := s.setFlags true s.sequence) rfl).unmoved
      (shifts_claimDirty _) (claimDirty_active _)
    refine ⟨zero_get _ _, fun f found => ?_, fun f found => ?_, claimed.acked, claimed.manifest,
      claimed.durable⟩ <;>
    · cases found
      exact claimed.active
  | @compute _ _ claim f _ _ skipped uncopied at_r nonempty handle computed =>
    exact (h.unskip (h.file f handle) uncopied (claim.blocks.filter (· ∈ skipped))).same rfl
  | @upload _ _ _ _ _ p _ at_r at_k =>
    refine ⟨h.active, h.path, h.file, h.acked, ?_, ?_⟩
    · have same := uploadPack_content remote.manifest p b
      exact (congrArg (BlockData.get · i) same).trans h.manifest
    · have same := uploadPack_content remote.durable p b
      exact (congrArg (BlockData.get · i) same).trans h.durable
  | @appendNone _ _ _ plans at_r _ | @append _ _ _ plans at_r =>
    refine ⟨h.active, h.path, h.file, h.acked, ?_, h.durable⟩
    obtain ⟨own, other⟩ := append_content remote known at_r
    by_cases flushed : b ∈ flushedBlocks plans
    · obtain ⟨f, handle, same⟩ := own flushed
      exact (congrArg (BlockData.get · i) same).trans (h.file f handle)
    · exact (congrArg (BlockData.get · i) (other flushed)).trans h.manifest
  | put at_r | publish at_r | syncPut at_r => exact (h.put .ok).same rfl
  | putFails outcome at_r | publishFails outcome at_r | syncPutFails outcome at_r =>
    exact (h.put outcome).same rfl
  | @evict _ _ _ plans at_r =>
    exact (h.unmoved (shifts_evictBlocks s _) (evictBlocks_active s _)).same rfl
  | @copyBack _ _ claim uncopied at_r =>
    exact (h.copiedBack claim uncopied).same rfl
  | @strand _ _ claim recovered at_r =>
    obtain ⟨_, _, syncingIn, _⟩ := data.stage _ at_r
    rw [strand_all claim.inRange syncingIn]
    exact h.same rfl
  | @redirty _ _ recovered at_r =>
    exact (h.unmoved (shifts_redirty s recovered)
      (foldl_field Cache.active transitionToDirty_active s recovered)).same rfl
  | passStale at_r stale | cleanEmpty at_r empty | dropHandle at_r | keepFile at_r
  | closeHandle at_r =>
    exact ⟨h.active, h.path, nofun, h.acked, h.manifest, h.durable⟩
  | removeOrphan at_r => exact h.unlinked.same rfl
  | removeEmpty at_r | deleteFile at_r | unlink at_r | syncDelete at_r | dropDeleting at_r waits =>
    split
    · exact h.unlinked.same rfl
    · exact h.same rfl
  | dropPutting at_r waits =>
    split
    · exact (h.put .applied).same rfl
    · exact h.same rfl
  | _ => exact h.same rfl

/-! ## Guest writes -/

theorem putBlock_zeroAt {patch : Patch g}
    (outside : ∀ old : BlockData g.blockSize, old.get i = 0 → (patch b old).get i = 0)
    (h : s.ZeroAt b i) (b' : Nat) : (putBlock patch s b').ZeroAt b i := by
  -- promotion only brings bytes of the flushing file
  have promoted : ((s.promoteBlock b').active.cur b).get i = 0 := by
    cases promoteBlock_cases s b' with
    | inl unmoved =>
      rw [unmoved.1]
      exact h.active
    | inr moved =>
      obtain ⟨f, handle, _, moved⟩ := moved
      rw [moved, transitionToDirty_active]
      unfold writeActive DataFile.writeBlock
      dsimp only
      rw [Function.update_apply]
      split
      · rename_i here
        exact here ▸ h.file f handle
      · exact h.active
  have base (same : b = b') : (s.base b').get i = 0 := by
    subst same
    unfold base
    split
    · exact h.acked
    · exact promoted
  refine h.ofLocal (local_putBlock patch s b') ?_ ?_
  · rw [putBlock_cur, Function.update_apply]
    split
    · rename_i here
      subst here
      exact outside _ promoted
    · exact h.active
  · rw [putBlock_acked, Function.update_apply]
    split
    · rename_i here
      rw [← here]
      exact outside _ (here ▸ base here)
    · exact h.acked

theorem putBlocks_zeroAt {patch : Patch g}
    (outside : ∀ old : BlockData g.blockSize, old.get i = 0 → (patch b old).get i = 0)
    (bs : List Nat) (h : s.ZeroAt b i) : (bs.foldl (putBlock patch) s).ZeroAt b i := by
  induction bs generalizing s with
  | nil => exact h
  | cons first rest ih => exact ih (putBlock_zeroAt outside h first)

theorem putRange_fits {patch : Patch g} {offset len : Nat}
    (done : s.putRange patch offset len = some t) : offset + len ≤ g.size := by
  by_contra beyond
  unfold putRange at done
  rw [if_pos (by omega)] at done
  cases done

theorem host_zeroAt (remote : RemoteInv False s) (data : DataInv s) (past : Past g b i)
    (h : s.ZeroAt b i) {a : HostAct} (taken : a.step s = some t) : t.ZeroAt b i := by
  cases host_cases taken with
  | put how done =>
    have fits := putRange_fits done
    have apart := past.past
    have beside : ¬a.Covers g b i := by
      unfold HostAct.Covers
      split
      · exact id
      · omega
    have claimed : (s.claimed (a.claims g)).ZeroAt b i :=
      ⟨h.active, h.path, h.file, h.acked, h.manifest, h.durable⟩
    have outside (old : BlockData g.blockSize) (zero : old.get i = 0) :
        (a.patch g b old).get i = 0 ∧ (s.backfilled (a.patch g) b old).get i = 0 := by
      unfold backfilled
      rw [a.patch_outside beside, a.patch_outside beside]
      refine ⟨zero, ?_⟩
      split
      · exact zero
      · exact h.manifest
    cases putRange_some done with
    | inl same => exact same.2 ▸ claimed
    | inr put =>
      rw [put.2.1]
      rcases how with ⟨rfl, -⟩ | ⟨rfl, -⟩
      · exact putBlocks_zeroAt (fun old zero => (outside old zero).1) _ claimed
      · exact putBlocks_zeroAt (fun old zero => (outside old zero).2) _ claimed
  | recast _ _ | syncActive | syncWal =>
    exact ⟨h.active, h.path, h.file, h.acked, h.manifest, h.durable⟩
  | inner quiet taken => exact step_zeroAt remote data past.known h quiet taken

end GlideFS.WriteCache
