import GlideFS.WriteCache.FlushImage

/-! # Snapshot objects

`snapshot` flushes, then stores the manifest under the name of the export and the
sequence number read at the start of the last pass. `Life` has the runs of one name
over writes, flushes, snapshots, reopenings and resizes.

Three things change what the guest reads without a new number: a write whose blocks
are all DIRTY or promoted, a crash that `open` does not recover from, and a resize,
after which the numbers begin again at 0. `unnumbered` counts them. Between two of
them the sequence number determines the contents of the device.
-/

namespace GlideFS.WriteCache

open Block Lib Cache

/-- When a pass rotated: after how many unnumbered changes, and at which number. -/
structure Rotation where
  unnumbered : Nat
  sequence : Nat
  deriving DecidableEq

/-- The last pass of a running snapshot. -/
structure SnapshotPass where
  seqCutpoint : Nat
  rotated : Option Rotation

/-- What `put_snapshot` stored under a sequence number. -/
structure SnapshotObject (blockSize : Nat) where
  sequence : Nat
  size : Nat
  content : Nat → BlockData blockSize
  rotated : Option Rotation

variable {Hash PackId : Type} [DecidableEq Hash] [DecidableEq PackId]

/-- The cache of an export, its running snapshot, and the snapshots taken so far. -/
structure Site (g : Geometry) (C : Codec (BlockData g.blockSize) Hash PackId) where
  cache : Cache g C
  unnumbered : Nat
  snapshot : Option SnapshotPass
  taken : List (SnapshotObject g.blockSize)

inductive SiteAct where
  | host (a : HostAct)
  /-- `snapshot` gets the flush lock. -/
  | snapshot
  /-- The end of `snapshot`, also if its caller went away: the object may not have been stored. -/
  | putSnapshot (persisted : Bool)

variable {g : Geometry} {C : Codec (BlockData g.blockSize) Hash PackId}

/-- A write is acknowledged without a number. -/
def HostAct.Unnumbered (s : Cache g C) (a : HostAct) : Prop :=
  (a.range g).2 ≠ 0 ∧ ∀ b ∈ a.blocks g, ¬(s.claimed (a.claims g)).TakesNumber b

instance (s : Cache g C) (a : HostAct) : Decidable (a.Unnumbered s) := by
  unfold HostAct.Unnumbered
  infer_instance

namespace Cache

/-- `flush_until_no_skips` returns Ok. -/
def NoSkips (s : Cache g C) : Bool :=
  match s.flush with
  | some ⟨_, .finished, stats⟩ => stats.blocksCrcMismatched = 0
  | _ => false

end Cache

namespace Site

/-- What the running snapshot knows after a step: a pass reads the number when it begins. -/
def passAfter (s : Site g C) (p : SnapshotPass) : HostAct → SnapshotPass
  | .inner .pass => ⟨s.cache.sequence, none⟩
  | .inner (.rotate .ok) => ⟨p.seqCutpoint, some ⟨s.unnumbered, s.cache.sequence⟩⟩
  | _ => p

def step (s : Site g C) : SiteAct → Option (Site g C)
  | .host a =>
      if s.snapshot.isSome = true ∧ s.cache.NoSkips = true ∧ a matches .inner (.finish _) then none
      else (a.step s.cache).map fun t =>
        { s with
          cache := t
          unnumbered := if a.Unnumbered s.cache then s.unnumbered + 1 else s.unnumbered
          snapshot := if t.flush.isSome then s.snapshot.map (s.passAfter · a) else none }
  | .snapshot => (Act.flushToS3.step s.cache).map fun t =>
      { s with
        cache := { t with returned := s.cache.returned }
        snapshot := some ⟨s.cache.sequence, none⟩ }
  | .putSnapshot persisted =>
      match s.snapshot with
      | some p =>
          if s.cache.NoSkips = true then some
            { s with
              cache := s.cache.endFlush s.cache.returned
              snapshot := none
              taken := if persisted then ⟨p.seqCutpoint, g.size,
                s.cache.content s.cache.volumeManifest, p.rotated⟩ :: s.taken else s.taken }
          else none
      | none => none

/-- The cache is dropped and opened again on its files. -/
def reopened (s : Site g C) (restored : Bool) : Site g C :=
  { s with
    cache := s.cache.reopened
    unnumbered := if restored then s.unnumbered else s.unnumbered + 1
    snapshot := none }

def resized (s : Site g C) (t : Cache g C) (saved : Bool) (n : Nat)
    (fits : n ≤ g.chunkSize * 2 ^ 32) : Site (g.grow n fits) C :=
  ⟨t.resized saved n fits, s.unnumbered + 1, none, s.taken⟩

end Site

/-- Both snapshots rotated, without an unnumbered change in between, and the later one at the
    number it had read. -/
def SnapshotPass.Follows (p : SnapshotPass) (o : SnapshotObject g.blockSize) : Prop :=
  ∃ n m, o.rotated = some ⟨n, m⟩ ∧ p.rotated = some ⟨n, p.seqCutpoint⟩

/-- The steps of the runs considered. -/
def SiteAct.Careful (s : Site g C) : SiteAct → Prop
  | .host a => a.Sound s.cache
  | .snapshot => True
  | .putSnapshot _ => ∀ p, s.snapshot = some p → ∀ o ∈ s.taken, o.sequence = p.seqCutpoint →
      p.Follows o

open Classical in
/-- The states of an export of one name. -/
inductive Life : (g : Geometry) → (C : Codec (BlockData g.blockSize) Hash PackId) →
    Site g C → Prop
  | create {g : Geometry} {C : Codec (BlockData g.blockSize) Hash PackId} (d : Disk g.blockSize)
      (v : Volume C) : Life g C ⟨openCache d v.store v.manifest, 0, none, []⟩
  | fork {g : Geometry} {C : Codec (BlockData g.blockSize) Hash PackId} (d : Disk g.blockSize)
      (v : Volume C) : Life g C ⟨openFresh d v.store v.manifest, 0, none, []⟩
  | step {g : Geometry} {C : Codec (BlockData g.blockSize) Hash PackId} {s t : Site g C}
      {a : SiteAct} (before : Life g C s) (careful : a.Careful s) (taken : s.step a = some t) :
      Life g C t
  | reopen {g : Geometry} {C : Codec (BlockData g.blockSize) Hash PackId} {s : Site g C}
      (before : Life g C s) : Life g C (s.reopened (decide s.cache.Restores))
  | resize {g : Geometry} {C : Codec (BlockData g.blockSize) Hash PackId} {s : Site g C}
      {t : Cache g C} (before : Life g C s) (returns : Drained s.cache t) (saved : Bool) {n : Nat}
      (grows : g.size < n) (fits : n ≤ g.chunkSize * 2 ^ 32) :
      Life (g.grow n fits) C (s.resized t saved n fits)

/-! ## The number determines the contents -/

variable {s t : Site g C} {im : Nat → BlockData g.blockSize}

namespace Site

/-- What was read when a pass rotated is read still if neither of the two counters has moved. -/
def Reads (s : Site g C) (v : Rotation) (size : Nat) (im : Nat → BlockData g.blockSize) : Prop :=
  v.unnumbered ≤ s.unnumbered ∧ (v.unnumbered = s.unnumbered → size = g.size ∧
    v.sequence ≤ s.cache.sequence ∧
      (v.sequence = s.cache.sequence → ∀ b, g.InRange b → im b = s.cache.acked b))

/-- A step that changes what is read moves one of the counters. -/
structure Advances (s t : Site g C) : Prop where
  unnumbered : s.unnumbered ≤ t.unnumbered
  sequence : s.cache.sequence ≤ t.cache.sequence
  acked : s.unnumbered = t.unnumbered → s.cache.sequence = t.cache.sequence →
    ∀ b, g.InRange b → s.cache.acked b = t.cache.acked b

theorem Reads.advance {v : Rotation} {size : Nat} (h : s.Reads v size im) (moved : s.Advances t) :
    t.Reads v size im := by
  refine ⟨h.1.trans moved.unnumbered, fun now => ?_⟩
  have same : s.unnumbered = t.unnumbered :=
    le_antisymm moved.unnumbered (now ▸ h.1)
  obtain ⟨size, below, read⟩ := h.2 (now.trans same.symm)
  refine ⟨size, below.trans moved.sequence, fun last b range => ?_⟩
  have still : s.cache.sequence = t.cache.sequence := le_antisymm moved.sequence (last ▸ below)
  exact (read (last.trans still.symm) b range).trans (moved.acked same still b range)

end Site

/-- An object says what its own pass rotated. -/
structure SiteInv (s : Site g C) : Prop where
  remote : RemoteInv False s.cache
  data : DataInv s.cache
  number : NumberInv s.cache
  objects : ∀ o ∈ s.taken, ∀ v, o.rotated = some v →
    o.sequence ≤ v.sequence ∧ s.Reads v o.size o.content
  begun : ∀ p, s.snapshot = some p → p.seqCutpoint ≤ s.cache.sequence
  rotated : ∀ p v, s.snapshot = some p → p.rotated = some v → p.seqCutpoint ≤ v.sequence ∧
    ∃ im, s.cache.Imaged im ∧ s.Reads v g.size im ∧ ∀ o ∈ s.taken, ∀ w, o.rotated = some w →
      w.unnumbered = v.unnumbered → w.sequence ≤ v.sequence ∧
        (w.sequence = v.sequence → o.size = g.size ∧ ∀ b, g.InRange b → o.content b = im b)
  same : ∀ o ∈ s.taken, ∀ o' ∈ s.taken, o.sequence = o'.sequence →
    o.size = o'.size ∧ ∀ b, b * g.blockSize < o.size → o.content b = o'.content b

variable {a : HostAct} {u : Cache g C}

theorem host_advances (data : DataInv s.cache) (sound : a.Sound s.cache)
    (taken : a.step s.cache = some u) :
    s.Advances ⟨u, if a.Unnumbered s.cache then s.unnumbered + 1 else s.unnumbered, t.snapshot,
      t.taken⟩ := by
  have steady (sequence : u.sequence = s.cache.sequence)
      (acked : ∀ b, g.InRange b → s.cache.acked b = u.acked b) :
      s.Advances ⟨u, if a.Unnumbered s.cache then s.unnumbered + 1 else s.unnumbered, t.snapshot,
        t.taken⟩ := by
    refine ⟨?_, sequence.ge, fun _ _ => acked⟩
    dsimp only
    split <;> omega
  cases host_cases taken with
  | put how done =>
    rcases putRange_some done with ⟨_, rfl⟩ | ⟨nonempty, put, _⟩
    · exact steady rfl fun _ _ => rfl
    · by_cases unnumbered : a.Unnumbered s.cache
      · rw [if_pos unnumbered]
        refine ⟨Nat.le_succ _, ?_, fun same => absurd same (Nat.succ_ne_self _).symm⟩
        rw [put]
        exact putBlocks_sequence_ge _ (s.cache.claimed (a.claims g)) _
      · have takes : ∃ b ∈ a.blocks g, (s.cache.claimed (a.claims g)).TakesNumber b := by
          by_contra none
          push Not at none
          exact unnumbered ⟨nonempty, none⟩
        obtain ⟨b, mem, takes⟩ := takes
        have raised : s.cache.sequence < u.sequence := by
          rw [put]
          exact putBlocks_sequence_lt _ mem (s.cache.claimed (a.claims g)) takes
        rw [if_neg unnumbered]
        exact ⟨le_rfl, raised.le, fun _ same => absurd same raised.ne⟩
  | recast | syncActive | syncWal => exact steady rfl fun _ _ => rfl
  | inner quiet taken =>
    obtain ⟨w, done, same⟩ := step_log data sound.2 quiet taken
    refine steady ?_ fun b _ => (congrFun (inner_acked quiet taken) b).symm
    exact (Prod.mk.inj same.log).2.trans done.sequence

theorem host_dataInv {w : Cache g C} (remote : RemoteInv False u) (data : DataInv u)
    (sound : a.Sound u) (taken : a.step u = some w) : RemoteInv False w ∧ DataInv w := by
  cases host_cases taken with
  | put how done =>
    have same : RemoteInv False (u.claimed (a.claims g)) := remote.quiet rfl remote.stage
    have claimed := (Recast.claimed u (a.claims g)).dataInv data
    exact ⟨same.local (local_putRange done), putRange_keeps putBlock_dataInv claimed done⟩
  | recast which same => exact ⟨remote.quiet rfl remote.stage, same.dataInv data⟩
  | syncActive | syncWal =>
    exact ⟨remote.quiet rfl remote.stage, ⟨data.blocks, data.idle, data.stage⟩⟩
  | inner quiet taken =>
    exact ⟨step_remoteInv remote sound.1 taken, step_dataInv remote data sound.2 taken⟩

theorem host_imaged {w : Cache g C} (remote : RemoteInv False u) (data : DataInv u)
    (h : u.Imaged im) (begun : a ≠ .inner .pass) (unrotated : a ≠ .inner (.rotate .ok))
    (taken : a.step u = some w) : w.Imaged im := by
  cases host_cases taken with
  | put how done =>
    have claimed : (u.claimed (a.claims g)).Imaged im := h
    exact claimed.ofLocal (local_putRange done)
  | recast | syncActive | syncWal => exact h
  | inner quiet taken =>
    exact step_imaged remote h quiet (fun same => begun (same ▸ rfl))
      (fun same => unrotated (same ▸ rfl)) taken

namespace Site

theorem passAfter_other (p : SnapshotPass) {a : HostAct} (begun : a ≠ .inner .pass)
    (unrotated : a ≠ .inner (.rotate .ok)) : s.passAfter p a = p := by
  unfold passAfter
  split
  · exact absurd rfl begun
  · exact absurd rfl unrotated
  · rfl

theorem reads_now (s : Site g C) : s.Reads ⟨s.unnumbered, s.cache.sequence⟩ g.size s.cache.acked :=
  ⟨le_rfl, fun _ => ⟨rfl, le_rfl, fun _ _ _ => rfl⟩⟩

end Site

/-- What the running snapshot has rotated after a step of the host. -/
theorem host_rotated (h : SiteInv s) (moved : s.Advances t) (taken : a.step s.cache = some t.cache)
    (kept : t.taken = s.taken) {p : SnapshotPass} (at_p : s.snapshot = some p) {v : Rotation}
    (rotated : (s.passAfter p a).rotated = some v) :
    (s.passAfter p a).seqCutpoint ≤ v.sequence ∧
      ∃ im, t.cache.Imaged im ∧ t.Reads v g.size im ∧ ∀ o ∈ t.taken, ∀ w, o.rotated = some w →
        w.unnumbered = v.unnumbered → w.sequence ≤ v.sequence ∧
          (w.sequence = v.sequence → o.size = g.size ∧ ∀ b, g.InRange b → o.content b = im b) := by
  rw [kept]
  by_cases pass : a = .inner .pass
  · subst pass
    cases rotated
  by_cases rotates : a = .inner (.rotate .ok)
  · subst rotates
    cases rotated
    refine ⟨h.begun p at_p, s.cache.acked, rotate_imaged h.data taken,
      s.reads_now.advance moved, fun o listed w found same => ?_⟩
    obtain ⟨_, _, now⟩ := h.objects o listed w found
    obtain ⟨size, below, read⟩ := now same
    exact ⟨below, fun last => ⟨size, read last⟩⟩
  · rw [s.passAfter_other p pass rotates] at rotated ⊢
    obtain ⟨begun, im, imaged, reads, others⟩ := h.rotated p v at_p rotated
    exact ⟨begun, im, host_imaged h.remote h.data imaged pass rotates taken, reads.advance moved,
      others⟩

theorem host_siteInv (h : SiteInv s) (sound : a.Sound s.cache) (taken : s.step (.host a) = some t) :
    SiteInv t := by
  obtain ⟨_, done⟩ := Option.ite_none_left_eq_some.mp taken
  obtain ⟨u, stepped, rfl⟩ := Option.map_eq_some_iff.mp done
  have moved : s.Advances _ := host_advances (t := { s with
    snapshot := if u.flush.isSome then s.snapshot.map (s.passAfter · a) else none })
    h.data sound stepped
  obtain ⟨remote, data⟩ := host_dataInv h.remote h.data sound stepped
  refine ⟨remote, data, host_numberInv h.data h.number sound stepped, fun o listed v found => ?_,
    fun p at_p => ?_, fun p v at_p found => ?_, h.same⟩
  · obtain ⟨number, reads⟩ := h.objects o listed v found
    exact ⟨number, reads.advance moved⟩
  all_goals
    dsimp only at at_p
    split at at_p
    case isFalse => cases at_p
    obtain ⟨p, before, rfl⟩ := Option.map_eq_some_iff.mp at_p
  · have later : p.seqCutpoint ≤ u.sequence := (h.begun p before).trans moved.sequence
    unfold Site.passAfter
    split
    · exact moved.sequence
    · exact later
    · exact later
  · exact host_rotated h moved stepped rfl before found

/-! ## The other steps -/

theorem NoSkips.imaged (ended : u.NoSkips = true) (h : u.Imaged im) {b : Nat} (range : g.InRange b) :
    u.content u.volumeManifest b = im b := by
  unfold Cache.NoSkips at ended
  split at ended
  · rename_i at_r
    exact h _ at_r (of_decide_eq_true ended) b range
  · cases ended

/-- Two objects of one number have one content: the second one follows the first. -/
theorem SiteInv.published_same (h : SiteInv s) {p : SnapshotPass} (at_p : s.snapshot = some p)
    (ended : s.cache.NoSkips = true) {o : SnapshotObject g.blockSize} (listed : o ∈ s.taken)
    (same : o.sequence = p.seqCutpoint) (follows : p.Follows o) :
    o.size = g.size ∧ ∀ b, g.InRange b →
      o.content b = s.cache.content s.cache.volumeManifest b := by
  obtain ⟨n, m, first, second⟩ := follows
  obtain ⟨_, im, imaged, _, others⟩ := h.rotated p _ at_p second
  obtain ⟨below, equal⟩ := others o listed _ first rfl
  -- the first one rotated at its number too: not before it, nor after the second one
  have rotated : m = p.seqCutpoint :=
    le_antisymm below (same ▸ (h.objects o listed _ first).1)
  obtain ⟨size, content⟩ := equal rotated
  exact ⟨size, fun b range => (content b range).trans (NoSkips.imaged ended imaged range).symm⟩

theorem NoSkips.held (ended : u.NoSkips = true) (data : DataInv u) : u.Held := by
  unfold Cache.NoSkips at ended
  split at ended
  · rename_i at_r
    exact (data.stage _ at_r).1
  · cases ended

theorem Site.Reads.congr {v : Rotation} {size : Nat} {other : Nat → BlockData g.blockSize}
    (h : s.Reads v size im) (same : ∀ b, g.InRange b → other b = im b) : s.Reads v size other := by
  refine ⟨h.1, fun now => ?_⟩
  obtain ⟨size, below, read⟩ := h.2 now
  exact ⟨size, below, fun last b range => (same b range).trans (read last b range)⟩

/-- The end of a snapshot, but for the object. -/
theorem SiteInv.ended (h : SiteInv s) (ended : s.cache.NoSkips = true) :
    SiteInv { s with cache := s.cache.endFlush s.cache.returned, snapshot := none } := by
  refine ⟨h.remote.quiet rfl nofun,
    h.data.endFlush (fun _ => NoSkips.held ended h.data) _,
    h.number.frame rfl rfl fun run found => ⟨run.awaited, found⟩, h.objects,
    nofun, nofun, h.same⟩

theorem putSnapshot_siteInv (h : SiteInv s) {persisted : Bool}
    (careful : (SiteAct.putSnapshot persisted).Careful s)
    (taken : s.step (.putSnapshot persisted) = some t) : SiteInv t := by
  simp only [Site.step] at taken
  split at taken
  case h_2 => cases taken
  rename_i p at_p
  obtain ⟨ended, ⟨⟩⟩ := Option.ite_none_right_eq_some.mp taken
  have idle := h.ended ended
  cases persisted with
  | false => exact idle
  | true =>
    have same {o : SnapshotObject g.blockSize} (listed : o ∈ s.taken)
        (number : o.sequence = p.seqCutpoint) :=
      h.published_same at_p ended listed number (careful p at_p o listed number)
    refine ⟨idle.remote, idle.data, idle.number, fun o listed v found => ?_, idle.begun,
      nofun, fun o first o' second number => ?_⟩
    · rcases List.mem_cons.mp listed with rfl | old
      · obtain ⟨below, im, imaged, reads, _⟩ := h.rotated p v at_p found
        exact ⟨below, reads.congr fun b range => NoSkips.imaged ended imaged range⟩
      · exact idle.objects o old v found
    · rcases List.mem_cons.mp first with rfl | old <;>
        rcases List.mem_cons.mp second with rfl | old'
      · exact ⟨rfl, fun _ _ => rfl⟩
      · obtain ⟨size, content⟩ := same old' number.symm
        exact ⟨size.symm, fun b range => (content b range).symm⟩
      · obtain ⟨size, content⟩ := same old number
        exact ⟨size, fun b range => content b (lt_of_lt_of_eq range size)⟩
      · exact h.same o old o' old' number

theorem step_siteInv (h : SiteInv s) {a : SiteAct} (careful : a.Careful s)
    (taken : s.step a = some t) : SiteInv t := by
  cases a with
  | host a => exact host_siteInv h careful taken
  | putSnapshot persisted => exact putSnapshot_siteInv h careful taken
  | snapshot =>
    obtain ⟨u, stepped, rfl⟩ := Option.map_eq_some_iff.mp taken
    have remote := step_remoteInv h.remote (a := .flushToS3) trivial stepped
    have data := step_dataInv h.remote h.data (a := .flushToS3) trivial stepped
    cases step_cases stepped with
    | flushToS3 free remaining =>
      exact ⟨remote.quiet rfl remote.stage, ⟨data.blocks, data.idle, data.stage⟩,
        h.number.frame rfl rfl fun run found => ⟨run.awaited, found⟩, h.objects,
        fun p at_p => (by cases at_p; exact le_rfl),
        fun p v at_p found => (by cases at_p; cases found), h.same⟩

/-- Reopening changes what is read only if it is counted. -/
theorem reopened_siteInv (h : SiteInv s) {restored : Bool}
    (restores : restored = true → s.cache.Restores) : SiteInv (s.reopened restored) := by
  have moved : s.Advances (s.reopened restored) := by
    refine ⟨?_, h.number.reopened_ge, fun kept _ b range => ?_⟩
    · unfold Site.reopened
      dsimp only
      split <;> omega
    · cases restored with
      | true => exact (restores rfl b range).symm
      | false => exact absurd kept (Nat.succ_ne_self _).symm
  refine ⟨openCache_remoteInv s.cache.crash h.remote.volume,
    openCache_dataInv s.cache.crash h.remote.volume, NumberInv.openCache _ _ _,
    fun o listed v found => ?_, nofun, nofun,
    h.same⟩
  obtain ⟨number, reads⟩ := h.objects o listed v found
  exact ⟨number, reads.advance moved⟩

theorem resized_siteInv (h : SiteInv s) (returns : Drained s.cache u) (saved : Bool) {n : Nat}
    (fits : n ≤ g.chunkSize * 2 ^ 32) : SiteInv (s.resized u saved n fits) := by
  have remote : RemoteInv False u := (returns.quiet.invariant
    (I := fun u => RemoteInv False u ∧ DataInv u) ⟨h.remote, h.data⟩ fun _ _ _ held quiet taken =>
      ⟨step_remoteInv held.1 quiet.1.1 taken, step_dataInv held.1 held.2 quiet.1.2 taken⟩).1
  refine ⟨⟨remote.durable, remote.durable, nofun⟩,
    (TenureInv.openFresh (g := g.grow n fits) (u.removed saved) remote.volume).data,
    NumberInv.openFresh (g := g.grow n fits) _ _ _, fun o listed v found => ?_,
    nofun, nofun, h.same⟩
  obtain ⟨number, before, _⟩ := h.objects o listed v found
  exact ⟨number, Nat.le_succ_of_le before,
    fun same => absurd before (not_le.mpr (same ▸ Nat.lt_succ_self _))⟩

theorem Life.inv {s : Site g C} (h : Life g C s) : SiteInv s := by
  induction h with
  | create d v =>
    exact ⟨openCache_remoteInv d v, openCache_dataInv d v, NumberInv.openCache _ _ _,
      nofun, nofun,
      nofun, nofun⟩
  | fork d v =>
    have fresh := TenureInv.openFresh d v
    exact ⟨⟨v.backed, v.backed, nofun⟩, fresh.data, NumberInv.openFresh _ _ _,
      nofun, nofun,
      nofun, nofun⟩
  | step before careful taken ih => exact step_siteInv ih careful taken
  | reopen before ih => exact reopened_siteInv ih fun yes => by simpa using yes
  | resize before returns saved grows fits ih => exact resized_siteInv ih returns saved fits

/-- In a run in which every snapshot under a number already used follows the earlier ones, the
    objects of one number resolve every block to the same content. -/
theorem snapshots_immutable {s : Site g C} (life : Life g C s) {o o' : SnapshotObject g.blockSize}
    (first : o ∈ s.taken) (second : o' ∈ s.taken) (number : o.sequence = o'.sequence) :
    o.size = o'.size ∧ ∀ b, b * g.blockSize < o.size → o.content b = o'.content b :=
  life.inv.same o first o' second number

theorem Life.reach {s t : Site g C} (h : Life g C s) (run : Reach Site.step SiteAct.Careful s t) :
    Life g C t :=
  run.invariant h fun _ _ _ before careful taken => .step before careful taken

/-- A snapshot up to the rotation of its first pass. -/
def snapshotAndRotate : List SiteAct :=
  [.snapshot, .host (.inner .pass), .host (.inner (.rotate .ok))]

/-- The rest of the flush of one block, from the upload of its pack. -/
def uploadAndEvict : List SiteAct :=
  ([.upload 0, .append, .put .ok, .evict, .flushCkpt, .ckptCopy, .ckptSeal, .ckptPublish,
    .ckptTruncate, .clearFlags, .dropHandle, .deleteFile true] : List Act).map (.host ∘ .inner)

/-- The rest of a flush that has nothing to upload. -/
def findNothing : List SiteAct :=
  [.host (.inner .cleanEmpty), .host (.inner (.removeEmpty true))]

def newSite : Site oneBlockDevice (.plain 16) := ⟨newCache, 0, none, []⟩

set_option synthInstance.maxSize 500 in
private theorem snapshot_twice :
    (exec Site.step newSite (.host (.write 0 [1]) :: snapshotAndRotate)).bind (fun s =>
      (s.step (.host (.inner (.compute 3 [] [])))).bind fun t =>
        (exec Site.step t uploadAndEvict).bind fun u =>
          (exec Site.step u (.putSnapshot true :: snapshotAndRotate ++ findNothing)).bind fun v =>
            (v.step (.putSnapshot true)).map fun w =>
              (u.taken.length, (v.snapshot.map fun p => (p.seqCutpoint, p.rotated)),
                (v.taken.map fun o => (o.sequence, o.rotated)),
                w.taken.map fun o => (o.sequence, o.size, (o.content 0).get 0))) =
      some (0, some (1, some ⟨0, 1⟩), [(1, some ⟨0, 1⟩)], [(1, 16, 1), (1, 16, 1)]) := by
  decide +kernel

/-- The first flush of a new volume finds no pack that could be stale. -/
private theorem first_snapshot_careful : ∃ s,
    exec Site.step newSite (.host (.write 0 [1]) :: snapshotAndRotate) = some s ∧
      SiteAct.Careful s (.host (.inner (.compute 3 [] []))) := by
  obtain ⟨s, run, manifest⟩ : ∃ s,
      exec Site.step newSite (.host (.write 0 [1]) :: snapshotAndRotate) = some s ∧
        s.cache.volumeManifest = .new := ⟨_, rfl, rfl⟩
  refine ⟨s, run, fun r _ claim _ f _ => ?_, rfl⟩
  rw [manifest]
  exact ⟨fun c => Or.inr List.not_mem_nil, fun no => no.elim⟩

/-- A snapshot of one byte, and another one with nothing written in between: they have one
    number, and the block is the same in both. -/
theorem snapshot_twice_same : ∃ (s : Site oneBlockDevice (.plain 16)) (o o' : SnapshotObject 16),
    s.taken = [o', o] ∧ o.sequence = 1 ∧ o'.sequence = 1 ∧ (o.content 0).get 0 = 1 ∧
      o.content 0 = o'.content 0 := by
  obtain ⟨s, first, rest⟩ := Option.bind_eq_some_iff.mp snapshot_twice
  obtain ⟨t, computed, rest⟩ := Option.bind_eq_some_iff.mp rest
  obtain ⟨u, flushed, rest⟩ := Option.bind_eq_some_iff.mp rest
  obtain ⟨v, again, rest⟩ := Option.bind_eq_some_iff.mp rest
  obtain ⟨w, put, facts⟩ := Option.map_eq_some_iff.mp rest
  obtain ⟨s', first', careful⟩ := first_snapshot_careful
  cases first.symm.trans first'
  simp only [Prod.mk.injEq] at facts
  obtain ⟨none, pass, objects, published⟩ := facts
  have plain : ∀ a ∈ .host (.write 0 [1]) :: snapshotAndRotate, ∀ s : Site oneBlockDevice (.plain 16),
      a.Careful s := by
    simp [snapshotAndRotate, SiteAct.Careful, HostAct.Sound, Act.Sound, Act.Resolvable, Act.Copies]
  have upload : ∀ a ∈ uploadAndEvict, ∀ s : Site oneBlockDevice (.plain 16), a.Careful s := by
    simp [uploadAndEvict, SiteAct.Careful, HostAct.Sound, Act.Sound, Act.Resolvable, Act.Copies]
  have empty : ∀ a ∈ snapshotAndRotate ++ findNothing, ∀ s : Site oneBlockDevice (.plain 16),
      a.Careful s := by
    simp [snapshotAndRotate, findNothing, SiteAct.Careful, HostAct.Sound, Act.Sound,
      Act.Resolvable, Act.Copies]
  have new : Life oneBlockDevice (.plain 16) newSite := .create .new .new
  have atU : Life oneBlockDevice (.plain 16) u :=
    ((new.reach (reach_exec_of first plain)).step careful computed).reach
      (reach_exec_of flushed upload)
  obtain ⟨u', firstPut, later⟩ := Option.bind_eq_some_iff.mp again
  have atV : Life oneBlockDevice (.plain 16) v := by
    refine (atU.step ?_ firstPut).reach (reach_exec_of later empty)
    intro p _ o listed
    rw [List.length_eq_zero_iff.mp none] at listed
    cases listed
  have follows : SiteAct.Careful v (.putSnapshot true) := by
    intro p at_p o listed _
    rw [at_p] at pass
    have before := List.mem_map_of_mem (f := fun o => (o.sequence, o.rotated)) listed
    rw [objects, List.mem_singleton] at before
    simp only [Option.map_some, Option.some.injEq, Prod.mk.injEq] at pass before
    exact ⟨0, 1, before.2, pass.1 ▸ pass.2⟩
  have life := atV.step follows put
  obtain ⟨o', others, listed, last, published⟩ := List.map_eq_cons_iff.mp published
  obtain ⟨o, none', rfl, one, published⟩ := List.map_eq_cons_iff.mp published
  cases List.map_eq_nil_iff.mp published
  simp only [Prod.mk.injEq] at last one
  have atO : o ∈ w.taken := by simp [listed]
  have atO' : o' ∈ w.taken := by simp [listed]
  refine ⟨w, o, o', listed, one.1, last.1, one.2.2, ?_⟩
  obtain ⟨_, same⟩ := snapshots_immutable life atO atO' (one.1.trans last.1.symm)
  exact same 0 (by rw [one.2.1]; decide)

set_option synthInstance.maxSize 500 in
private theorem written_while_syncing :
    (exec Site.step newSite (.host (.write 0 [1]) :: snapshotAndRotate ++
      [.host (.write 0 [2]), .host (.inner (.compute 3 [] []))] ++ uploadAndEvict ++
      .putSnapshot true :: snapshotAndRotate ++ [.host (.inner (.compute 3 [] []))] ++
      uploadAndEvict ++ [.putSnapshot true])).map (fun s =>
        s.taken.map fun o => (o.sequence, o.size, (o.content 0).get 0)) =
      some [(1, 16, 2), (1, 16, 1)] := by
  decide +kernel

/-- While the first snapshot flushes a block, the guest writes the block again. The write is
    promoted and takes no number, so that the second snapshot replaces the first one. -/
theorem snapshot_replaced : ∃ (s : Site oneBlockDevice (.plain 16)) (o o' : SnapshotObject 16),
    Reach Site.step anyStep newSite s ∧ s.taken = [o', o] ∧ o.sequence = o'.sequence ∧
      o.content 0 ≠ o'.content 0 := by
  obtain ⟨s, run, published⟩ := Option.map_eq_some_iff.mp written_while_syncing
  obtain ⟨o', others, listed, last, published⟩ := List.map_eq_cons_iff.mp published
  obtain ⟨o, none, rfl, one, published⟩ := List.map_eq_cons_iff.mp published
  cases List.map_eq_nil_iff.mp published
  simp only [Prod.mk.injEq] at last one
  refine ⟨s, o, o', reach_exec run, listed, one.1.trans last.1.symm, fun same => ?_⟩
  have byte := one.2.2
  rw [same, last.2.2] at byte
  exact absurd byte (by decide)

end GlideFS.WriteCache
