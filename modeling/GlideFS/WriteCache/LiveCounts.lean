import GlideFS.Block.LiveCount
import GlideFS.WriteCache.LiveBlocks

/-! # Known live counts are exact

A flush stores a chunk's count with the pack it appends, computed when it read the
chunk's packs; the backfill stores one that was unknown, computed from the packs it
read; a compaction leaves the count alone. Counts travel in stored manifests. Here
these run side by side over any number of open volumes, and a volume may have its
manifest replaced by a stored one while its flush is under way, as a re-attach does.
-/

namespace GlideFS.WriteCache

open Block Lib

variable {D Hash PackId : Type} [Zero D] [DecidableEq D] [DecidableEq Hash] [DecidableEq PackId]
  {C : Codec D Hash PackId}

/-! ## Volumes side by side -/

namespace LiveCounts

/-- A compaction between its steps: the chunk, the packs it replaces and what it has made. -/
inductive Compaction (C : Codec D Hash PackId) where
  | listed (c : Nat) (ids : List PackId)
  | merged (c : Nat) (ids : List PackId) (index : MergedIndex C)
  | packed (c : Nat) (ids : List PackId) (pack : Pack C)
  | ready (c : Nat) (ids new : List PackId)

/-- A chunk of the backfill: the packs that were read and, once their indexes are loaded, the
    count. -/
structure Backfill (PackId : Type) where
  chunkIdx : Nat
  packs : List PackId
  live : Option Nat

/-- A flush before it touches the manifest. `reading` is the chunk whose indexes are being
    loaded, with the manifest its packs were read from. -/
structure Flush (C : Codec D Hash PackId) where
  geometry : Geometry
  snap : Snapshot geometry D
  todo : List Nat
  reading : Option (Nat × VolumeManifest PackId)
  uploading : List (ChunkPlan C)
  staged : List (ChunkPlan C)

/-- A manifest in memory and what works on it. -/
structure Volume (C : Codec D Hash PackId) where
  manifest : VolumeManifest PackId
  flush : Option (Flush C)
  compacting : Nat → Option (Compaction C)
  backfill : Nat → Option (Backfill PackId)

/-- The packs, every manifest that was stored, and the open volumes. -/
structure Pool (C : Codec D Hash PackId) where
  store : PackStore C
  saved : List (StoredManifest PackId)
  volumes : Nat → Volume C

def Volume.opened (m : VolumeManifest PackId) : Volume C :=
  ⟨m, none, fun _ => none, fun _ => none⟩

inductive FlushAct where
  | read
  | compute (level : Int)
  | upload (i : Nat)
  | append
  | fail

inductive CompactAct where
  | merge
  | fetch
  | upload
  | swap
  | fail

inductive CountAct where
  | load
  | set

inductive Act (D : Type) where
  | create
  /-- A manifest that was stored is opened. -/
  | load (k : Nat)
  /-- `enforce_attach_fence` puts a stored manifest in the place of the one in memory. -/
  | reload (k : Nat)
  | save
  | flushBegin (g : Geometry) (snap : Snapshot g D)
  | flush (a : FlushAct)
  | compactList (j c : Nat)
  | compact (j : Nat) (a : CompactAct)
  | countRead (j c : Nat)
  | count (j : Nat) (a : CountAct)

namespace Volume

/-- `flush_dirty_body` up to its manifest update. -/
def flushStep (s : PackStore C) (v : Volume C) (f : Flush C) :
    FlushAct → Option (PackStore C × Volume C)
  | .read =>
      match f.reading, f.todo with
      | none, c :: rest =>
          some (s, { v with flush := some { f with todo := rest, reading := some (c, v.manifest) } })
      | _, _ => none
  | .compute level =>
      f.reading.bind fun (c, m) =>
        (planChunk s m level f.snap c).map fun plan =>
          -- an empty pack and one the chunk lists by now are not uploaded
          let uploading := if plan.uploads v.manifest then f.uploading ++ [plan] else f.uploading
          (s, { v with flush := some { f with reading := none, uploading } })
  | .upload i =>
      f.uploading[i]?.map fun plan =>
        let f := { f with uploading := f.uploading.eraseIdx i, staged := f.staged ++ [plan] }
        (s.streamChunkPack plan.chunkIdx plan.pack, { v with flush := some f })
  | .append =>
      if f.todo.isEmpty ∧ f.reading.isNone ∧ f.uploading.isEmpty then
        some (s, { v with manifest := appendStaged v.manifest f.staged, flush := none })
      else none
  | .fail => some (s, { v with flush := none })

/-- What `compact_chunk` does next: its packs, its manifest and where it stands. -/
def compactStep (s : PackStore C) (m : VolumeManifest PackId) :
    Compaction C → CompactAct → Option (PackStore C × VolumeManifest PackId × Option (Compaction C))
  | .listed c ids, .merge =>
      (mergeIndexes s c ids).map fun index => (s, m, some (.merged c ids index))
  | .merged c ids index, .fetch =>
      (packMerged s c index).map fun
        | none => (s, m, some (.ready c ids []))
        | some pack => (s, m, some (.packed c ids pack))
  | .packed c ids pack, .upload =>
      some (s.streamChunkPack c pack, m, some (.ready c ids [pack.packId]))
  | .ready c ids new, .swap => some (s, (m.replacePacksCas c ids new).getD m, none)
  | _, .fail => some (s, m, none)
  | _, _ => none

/-- `ensure_once` for one chunk. -/
def countStep (s : PackStore C) (m : VolumeManifest PackId) (b : Backfill PackId) :
    CountAct → Option (VolumeManifest PackId × Option (Backfill PackId))
  | .load =>
      (loadExisting s b.chunkIdx b.packs).map fun existing =>
        (m, some { b with live := some (liveBlocksAfter existing []) })
  | .set => b.live.map fun live => (m.setLiveBlocksIfUnknown b.chunkIdx b.packs live, none)

def step (s : PackStore C) (saved : List (StoredManifest PackId)) (v : Volume C) :
    Act D → Option (PackStore C × Volume C)
  | .create => some (s, .opened .new)
  | .load k => saved[k]?.bind fun st => st.deserialize.map fun m => (s, .opened m)
  | .reload k => saved[k]?.bind fun st => st.deserialize.map fun m => (s, { v with manifest := m })
  | .save => none
  | .flushBegin g snap =>
      if v.flush.isNone then
        some (s, { v with flush := some ⟨g, snap, snap.chunks, none, [], []⟩ })
      else none
  | .flush a => v.flush.bind fun f => v.flushStep s f a
  | .compactList j c =>
      if (v.compacting j).isNone then
        let job := Compaction.listed c (v.manifest.chunkPackIds c)
        some (s, { v with compacting := Function.update v.compacting j (some job) })
      else none
  | .compact j a =>
      (v.compacting j).bind fun job =>
        (compactStep s v.manifest job a).map fun (s, m, job) =>
          (s, { v with manifest := m, compacting := Function.update v.compacting j job })
  | .countRead j c =>
      match v.backfill j, v.manifest.chunks c with
      | none, some ⟨packs, none⟩ =>
          some (s, { v with backfill := Function.update v.backfill j (some ⟨c, packs, none⟩) })
      | _, _ => none
  | .count j a =>
      (v.backfill j).bind fun job =>
        (countStep s v.manifest job a).map fun (m, job) =>
          (s, { v with manifest := m, backfill := Function.update v.backfill j job })

end Volume

/-- One step of one volume, named by its number. -/
def step (p : Pool C) : Nat × Act D → Option (Pool C)
  | (v, .save) =>
      (p.volumes v).manifest.serialize.map fun st => { p with saved := p.saved ++ [st] }
  | (v, a) =>
      ((p.volumes v).step p.store p.saved a).map fun (s, u) =>
        { p with store := s, volumes := Function.update p.volumes v u }

/-- The chunks a flush has read the packs of and has not appended to yet. -/
def Flush.working (f : Flush C) : List Nat :=
  (f.reading.map Prod.fst).toList ++ (f.uploading ++ f.staged).map ChunkPlan.chunkIdx

/-- A manifest that replaces the one in memory during a flush has, for the chunks the flush is
    working on, packs that are searched with the same results. -/
def ReloadsAlike (p : Pool C) : Nat × Act D → Prop
  | (v, .reload k) => ∀ f st m, (p.volumes v).flush = some f → p.saved[k]? = some st →
      st.deserialize = some m → ∀ c ∈ f.working,
        Alike p.store c ((p.volumes v).manifest.chunkPackIds c) (m.chunkPackIds c)
  | _ => True

/-- The manifests that are open or stored. -/
def Pool.Holds (p : Pool C) (m : VolumeManifest PackId) : Prop :=
  (∃ v, (p.volumes v).manifest = m) ∨ ∃ st ∈ p.saved, st.deserialize = some m

/-- No volume is open and the stored manifests are of the time before counts. -/
structure Start (p : Pool C) : Prop where
  legacy : ∀ st ∈ p.saved, st.counts = none
  volumes : ∀ v, p.volumes v = .opened .new

/-! ## What the steps keep -/

/-- Known counts are exact, and chunk indexes have 32 bits. -/
structure Exact (s : PackStore C) (m : VolumeManifest PackId) : Prop where
  counts : ∀ c e n, m.chunks c = some e → e.liveBlocks = some n → Counts s c e.packs n
  keys : ∀ c e, m.chunks c = some e → c < VolumeManifest.chunkKeys

variable {s s' : PackStore C} {m m' : VolumeManifest PackId} {old new : List PackId}

theorem Exact.extends (h : Exact s m) (more : s.Extends s') : Exact s' m where
  counts c e n here known := (h.counts c e n here known).extends more
  keys := h.keys

def Flush.chunks (f : Flush C) : List Nat := f.todo ++ f.working

namespace Flush

/-! A chunk moves from one list of the flush to the next, or is left out. -/

variable {f : Flush C} {m : VolumeManifest PackId} {plan : ChunkPlan C}

theorem chunks_read {c : Nat} {rest : List Nat} (idle : f.reading = none)
    (todo : f.todo = c :: rest) (m : VolumeManifest PackId) :
    (chunks { f with todo := rest, reading := some (c, m) }).Perm f.chunks := by
  simp only [chunks, working, idle, todo, Option.map_some, Option.toList_some, Option.map_none,
    Option.toList_none, List.nil_append, List.cons_append]
  exact List.perm_middle

theorem chunks_reading {c : Nat} (reading : f.reading = some (c, m)) :
    f.chunks = f.todo ++ c :: (f.uploading ++ f.staged).map ChunkPlan.chunkIdx := by
  simp [chunks, working, reading]

theorem chunks_compute (reading : f.reading = some (plan.chunkIdx, m)) :
    (chunks { f with reading := none, uploading := f.uploading ++ [plan] }).Perm f.chunks := by
  rw [chunks_reading reading]
  refine List.Perm.append_left _ ?_
  simp only [working, Option.map_none, Option.toList_none, List.nil_append, List.append_assoc,
    List.map_append, List.singleton_append]
  exact List.perm_middle

theorem chunks_skip {c : Nat} (reading : f.reading = some (c, m)) :
    (chunks { f with reading := none }).Sublist f.chunks := by
  rw [chunks_reading reading]
  exact List.Sublist.append_left (List.sublist_cons_self _ _) _

theorem plans_upload {i : Nat} (here : f.uploading[i]? = some plan) :
    (f.uploading.eraseIdx i ++ (f.staged ++ [plan])).Perm (f.uploading ++ f.staged) := by
  obtain ⟨small, rfl⟩ := List.getElem?_eq_some_iff.mp here
  calc f.uploading.eraseIdx i ++ (f.staged ++ [f.uploading[i]])
    _ |>.Perm (f.uploading[i] :: (f.uploading.eraseIdx i ++ f.staged)) := by
        rw [← List.append_assoc]
        exact List.perm_append_singleton _ _
    _ |>.Perm (f.uploading ++ f.staged) :=
        (List.getElem_cons_eraseIdx_perm small).append_right f.staged

theorem chunks_upload {i : Nat} (here : f.uploading[i]? = some plan) :
    (chunks { f with uploading := f.uploading.eraseIdx i, staged := f.staged ++ [plan] }).Perm
      f.chunks :=
  (((plans_upload here).map ChunkPlan.chunkIdx).append_left _).append_left f.todo

theorem staged_distinct (h : f.chunks.Nodup) : (f.staged.map ChunkPlan.chunkIdx).Nodup := by
  refine h.sublist ?_
  simp only [chunks, working, List.map_append, ← List.append_assoc]
  exact List.sublist_append_right _ _

end Flush

structure Flush.Sound (s : PackStore C) (m : VolumeManifest PackId) (f : Flush C) : Prop where
  reading : ∀ c m₀, f.reading = some (c, m₀) → Alike s c (m₀.chunkPackIds c) (m.chunkPackIds c)
  fits : ∀ plan ∈ f.uploading ++ f.staged, plan.Fits s (m.chunkPackIds plan.chunkIdx)
  stored : ∀ plan ∈ f.staged, s.get plan.chunkIdx plan.pack.packId = some plan.pack
  distinct : f.chunks.Nodup
  keys : ∀ c ∈ f.chunks, c < VolumeManifest.chunkKeys

def Compaction.Sound (s : PackStore C) : Compaction C → Prop
  | .listed _ _ => True
  | .merged c ids index => ∃ s₀ : PackStore C, s₀.Extends s ∧ Merges s₀ c ids index
  | .packed c ids pack => ∃ (s₀ s₁ : PackStore C) (index : MergedIndex C), s₀.Extends s₁ ∧
      s₁.Extends s ∧ Merges s₀ c ids index ∧ packMerged s₁ c index = some (some pack)
  | .ready c ids new => Alike s c ids new

def Backfill.Sound (s : PackStore C) (b : Backfill PackId) : Prop :=
  ∀ n, b.live = some n → Counts s b.chunkIdx b.packs n

structure Volume.Sound (s : PackStore C) (v : Volume C) : Prop where
  exact : Exact s v.manifest
  flush : ∀ f, v.flush = some f → f.Sound s v.manifest
  compacting : ∀ j job, v.compacting j = some job → job.Sound s
  backfill : ∀ j job, v.backfill j = some job → job.Sound s

structure Pool.Sound (p : Pool C) : Prop where
  volumes : ∀ v, (p.volumes v).Sound p.store
  saved : ∀ st ∈ p.saved, ∀ m, st.deserialize = some m → Exact p.store m

section Grown

variable {s s' : PackStore C} (more : s.Extends s')
include more

theorem Flush.Sound.extends {m : VolumeManifest PackId} {f : Flush C} (h : f.Sound s m) :
    f.Sound s' m where
  reading c m₀ here := (h.reading c m₀ here).extends more
  fits plan mem := (h.fits plan mem).extends more
  stored plan mem := more _ _ _ (h.stored plan mem)
  distinct := h.distinct
  keys := h.keys

theorem Compaction.Sound.extends {job : Compaction C} (h : job.Sound s) : job.Sound s' := by
  cases job with
  | listed => trivial
  | merged c ids index =>
    obtain ⟨s₀, grown, merges⟩ := h
    exact ⟨s₀, fun _ _ _ get => more _ _ _ (grown _ _ _ get), merges⟩
  | packed c ids pack =>
    obtain ⟨s₀, s₁, index, fetched, grown, merges, packed⟩ := h
    exact ⟨s₀, s₁, index, fetched, fun _ _ _ get => more _ _ _ (grown _ _ _ get), merges, packed⟩
  | ready c ids new => exact Alike.extends h more

theorem Backfill.Sound.extends {job : Backfill PackId} (h : job.Sound s) : job.Sound s' :=
  fun n known => (h n known).extends more

theorem Volume.Sound.extends {v : Volume C} (h : v.Sound s) : v.Sound s' where
  exact := h.exact.extends more
  flush f running := (h.flush f running).extends more
  compacting j job here := (h.compacting j job here).extends more
  backfill j job here := (h.backfill j job here).extends more

end Grown

/-- A flush does not notice a new manifest whose packs are searched alike. -/
theorem Flush.Sound.moved {f : Flush C} (h : f.Sound s m)
    (same : ∀ c ∈ f.working, Alike s c (m.chunkPackIds c) (m'.chunkPackIds c)) : f.Sound s m' where
  reading c m₀ here := by
    refine (h.reading c m₀ here).trans (same c ?_)
    simp [working, here]
  fits plan mem := by
    refine (h.fits plan mem).alike (same plan.chunkIdx ?_)
    exact List.mem_append_right _ (List.mem_map_of_mem mem)
  stored := h.stored
  distinct := h.distinct
  keys := h.keys

/-- Appending the staged packs keeps every known count exact. -/
theorem exact_appendStaged {f : Flush C} (h : f.Sound s m) (exact : Exact s m) :
    Exact s (appendStaged m f.staged) := by
  have distinct := Flush.staged_distinct h.distinct
  have appended (c : Nat) : (∃ plan ∈ f.staged, plan.chunkIdx = c) ∨
      (appendStaged m f.staged).chunks c = m.chunks c := by
    by_cases mem : c ∈ f.staged.map ChunkPlan.chunkIdx
    · obtain ⟨plan, mem, here⟩ := List.mem_map.mp mem
      exact .inl ⟨plan, mem, here⟩
    · exact .inr (appendStaged_chunks_other mem)
  constructor
  · intro c e n here known
    rcases appended c with ⟨plan, mem, rfl⟩ | same
    · rw [appendStaged_chunks_mem distinct mem] at here
      cases here
      cases known
      exact (h.fits plan (List.mem_append_right _ mem)).counts (h.stored plan mem)
    · exact exact.counts c e n (same ▸ here) known
  · intro c e here
    rcases appended c with ⟨plan, mem, rfl⟩ | same
    · apply h.keys
      simp only [Flush.chunks, Flush.working, List.mem_append, List.mem_map]
      exact .inr (.inr ⟨plan, .inr mem, rfl⟩)
    · exact exact.keys c e (same ▸ here)

/-- What a step leaves behind for the volume it is a step of. -/
structure Kept (s s' : PackStore C) (v' : Volume C) : Prop where
  store : s.Extends s'
  exact : Exact s' v'.manifest
  flush : ∀ f, v'.flush = some f → f.Sound s' v'.manifest

theorem flushStep_kept {v v' : Volume C} {f : Flush C} {a : FlushAct} (h : v.Sound s)
    (running : v.flush = some f) (taken : v.flushStep s f a = some (s', v')) :
    Kept s s' v' ∧ v'.compacting = v.compacting ∧ v'.backfill = v.backfill := by
  have sound := h.flush f running
  cases a with
  | read =>
    simp only [Volume.flushStep] at taken
    split at taken
    · rename_i c rest idle todo
      cases taken
      refine ⟨⟨extends_refl s, h.exact, fun f' same => ?_⟩, rfl, rfl⟩
      cases same
      have moved := Flush.chunks_read idle todo v.manifest
      exact
        { reading := by
            intro c' m₀ here
            cases here
            exact .refl s c _
          fits := sound.fits
          stored := sound.stored
          distinct := moved.nodup_iff.mpr sound.distinct
          keys := fun c' mem => sound.keys c' (moved.mem_iff.mp mem) }
    · cases taken
  | compute level =>
    obtain ⟨⟨c, m₀⟩, reading, taken⟩ := Option.bind_eq_some_iff.mp taken
    obtain ⟨plan, planned, taken⟩ := Option.map_eq_some_iff.mp taken
    cases taken
    refine ⟨⟨extends_refl s, h.exact, fun f' same => ?_⟩, rfl, rfl⟩
    cases same
    obtain ⟨rfl, fits⟩ := planChunk_fits planned
    have fits := fits.alike (sound.reading _ m₀ reading)
    split
    · have moved := Flush.chunks_compute reading
      exact
        { reading := nofun
          fits := by
            intro p mem
            rcases List.mem_append.mp mem with up | staged
            · rcases List.mem_append.mp up with old | new
              · exact sound.fits p (List.mem_append_left _ old)
              · rw [List.mem_singleton.mp new]
                exact fits
            · exact sound.fits p (List.mem_append_right _ staged)
          stored := sound.stored
          distinct := moved.nodup_iff.mpr sound.distinct
          keys := fun c' mem => sound.keys c' (moved.mem_iff.mp mem) }
    · have fewer := Flush.chunks_skip reading
      exact
        { reading := nofun
          fits := sound.fits
          stored := sound.stored
          distinct := sound.distinct.sublist fewer
          keys := fun c' mem => sound.keys c' (fewer.subset mem) }
  | upload i =>
    obtain ⟨plan, here, taken⟩ := Option.map_eq_some_iff.mp taken
    cases taken
    have more : s.Extends (s.streamChunkPack plan.chunkIdx plan.pack) := fun _ _ _ get =>
      PackStore.streamChunkPack_keeps get
    have grown := h.extends more
    refine ⟨⟨more, grown.exact, fun f' same => ?_⟩, rfl, rfl⟩
    cases same
    have moved := Flush.plans_upload here
    have chunks := Flush.chunks_upload here
    have sound := grown.flush f running
    exact
      { reading := sound.reading
        fits := fun p mem => sound.fits p (moved.mem_iff.mp mem)
        stored := by
          intro p mem
          rcases List.mem_append.mp mem with old | new
          · exact sound.stored p old
          · rw [List.mem_singleton.mp new]
            exact s.streamChunkPack_self plan.chunkIdx plan.pack
        distinct := chunks.nodup_iff.mpr sound.distinct
        keys := fun c' mem => sound.keys c' (chunks.mem_iff.mp mem) }
  | append =>
    obtain ⟨-, taken⟩ := Option.ite_none_right_eq_some.mp taken
    cases taken
    exact ⟨⟨extends_refl s, exact_appendStaged sound h.exact, nofun⟩, rfl, rfl⟩
  | fail =>
    cases taken
    exact ⟨⟨extends_refl s, h.exact, nofun⟩, rfl, rfl⟩

/-- A list whose old part is searched alike is searched alike with what follows it. -/
theorem alike_append {c : Nat} (h : Alike s c old new) (tail : List PackId) :
    Alike s c (old ++ tail) (new ++ tail) := by
  intro s' more off
  rw [List.reverse_append, List.reverse_append, locateIn_append, locateIn_append, h s' more off]

/-- A swap of packs for ones that are searched alike changes no lookup. -/
theorem alike_replacePacksCas {c : Nat} (stands : Alike s c old new) (m : VolumeManifest PackId)
    (c' : Nat) :
    Alike s c' (m.chunkPackIds c') (((m.replacePacksCas c old new).getD m).chunkPackIds c') := by
  cases swapped : m.replacePacksCas c old new with
  | none => exact .refl s c' _
  | some m' =>
    obtain ⟨tail, replaced⟩ := VolumeManifest.replacePacksCas_replaced swapped
    by_cases at_c : c' = c
    · subst at_c
      rw [Option.getD_some, replaced.before, replaced.after]
      exact alike_append stands tail
    · rw [Option.getD_some, VolumeManifest.chunkPackIds, VolumeManifest.chunkPackIds,
        replaced.others c' at_c]
      exact .refl s c' _

/-- A manifest update that changes no lookup and makes up no count. -/
structure Rewritten (s : PackStore C) (m m' : VolumeManifest PackId) : Prop where
  exact : Exact s m'
  alike : ∀ c, Alike s c (m.chunkPackIds c) (m'.chunkPackIds c)

theorem chunkPackIds_of_chunks {c : Nat} {e : ChunkEntry PackId} (here : m.chunks c = some e) :
    m.chunkPackIds c = e.packs := by
  simp [VolumeManifest.chunkPackIds, here]

theorem rewritten_replacePacksCas (h : Exact s m) {c : Nat} (stands : Alike s c old new) :
    Rewritten s m ((m.replacePacksCas c old new).getD m) := by
  have alike := alike_replacePacksCas stands m
  cases swapped : m.replacePacksCas c old new with
  | none => exact ⟨h, fun c' => .refl s c' _⟩
  | some m' =>
    rw [swapped] at alike
    obtain ⟨tail, replaced⟩ := VolumeManifest.replacePacksCas_replaced swapped
    refine ⟨⟨fun c' e n here known => ?_, fun c' e here => ?_⟩, alike⟩
    · by_cases at_c : c' = c
      · subst at_c
        obtain ⟨e₀, before, count⟩ := replaced.count e here
        have counts := h.counts c' e₀ n before (count ▸ known)
        rw [← chunkPackIds_of_chunks before] at counts
        rw [← chunkPackIds_of_chunks here]
        exact counts.alike (alike c')
      · exact h.counts c' e n (replaced.others c' at_c ▸ here) known
    · by_cases at_c : c' = c
      · subst at_c
        obtain ⟨e₀, before, -⟩ := replaced.count e here
        exact h.keys c' e₀ before
      · exact h.keys c' e (replaced.others c' at_c ▸ here)

theorem rewritten_setLiveBlocks (h : Exact s m) {c n : Nat} {packs : List PackId}
    (counts : Counts s c packs n) : Rewritten s m (m.setLiveBlocksIfUnknown c packs n) := by
  rw [VolumeManifest.setLiveBlocksIfUnknown]
  split
  · rename_i listed before
    split
    · rename_i same
      subst same
      refine ⟨⟨fun c' e n' here known => ?_, fun c' e here => ?_⟩, fun c' => ?_⟩
      · by_cases at_c : c' = c
        · subst at_c
          rw [VolumeManifest.setChunk_self] at here
          cases here
          cases known
          exact counts
        · rw [VolumeManifest.setChunk_other at_c] at here
          exact h.counts c' e n' here known
      · by_cases at_c : c' = c
        · exact at_c ▸ h.keys c _ before
        · rw [VolumeManifest.setChunk_other at_c] at here
          exact h.keys c' e here
      · by_cases at_c : c' = c
        · subst at_c
          rw [chunkPackIds_of_chunks before, chunkPackIds_of_chunks (m.setChunk_self c' _)]
          exact .refl s c' listed
        · rw [VolumeManifest.chunkPackIds, VolumeManifest.chunkPackIds,
            VolumeManifest.setChunk_other at_c]
          exact .refl s c' _
    · exact ⟨h, fun c' => .refl s c' _⟩
  · exact ⟨h, fun c' => .refl s c' _⟩

/-- The manifest after a step of a compaction: as it was, or with packs swapped for others that
    are searched alike. -/
def Swapped (s : PackStore C) (m m' : VolumeManifest PackId) : Prop :=
  m' = m ∨ ∃ c old new, Alike s c old new ∧ m' = (m.replacePacksCas c old new).getD m

theorem Swapped.alike (h : Swapped s m m') (c : Nat) :
    Alike s c (m.chunkPackIds c) (m'.chunkPackIds c) := by
  rcases h with rfl | ⟨c', old, new, stands, rfl⟩
  · exact .refl s c _
  · exact alike_replacePacksCas stands m c

theorem Swapped.rewritten (h : Swapped s m m') (exact : Exact s m) : Rewritten s m m' := by
  rcases h with rfl | ⟨c, old, new, stands, rfl⟩
  · exact ⟨exact, fun c => .refl s c _⟩
  · exact rewritten_replacePacksCas exact stands

/-- Every step of a compaction leaves it sound, and only the swap touches the manifest. -/
theorem compactStep_swapped {job : Compaction C} {job' : Option (Compaction C)} {a : CompactAct}
    (h : job.Sound s) (taken : Volume.compactStep s m job a = some (s', m', job')) :
    s.Extends s' ∧ Swapped s' m m' ∧ ∀ k, job' = some k → k.Sound s' := by
  have stopped : s.Extends s ∧ Swapped s m m ∧ ∀ k : Compaction C, none = some k → k.Sound s :=
    ⟨extends_refl s, .inl rfl, nofun⟩
  cases job with
  | listed c ids =>
    cases a with
    | merge =>
      obtain ⟨index, merged, taken⟩ := Option.map_eq_some_iff.mp taken
      cases taken
      refine ⟨extends_refl s, .inl rfl, fun k same => ?_⟩
      cases same
      exact ⟨s, extends_refl s, mergeIndexes_merges merged⟩
    | fail => cases taken; exact stopped
    | _ => cases taken
  | merged c ids index =>
    cases a with
    | fetch =>
      obtain ⟨s₀, grown, merges⟩ := h
      obtain ⟨new, packed, taken⟩ := Option.map_eq_some_iff.mp taken
      cases new with
      | none =>
        cases taken
        refine ⟨extends_refl s, .inl rfl, fun k same => ?_⟩
        cases same
        intro s' more off
        have stands := stands_packMerged grown more merges packed nofun
        exact (stands.same off).symm
      | some pack =>
        cases taken
        refine ⟨extends_refl s, .inl rfl, fun k same => ?_⟩
        cases same
        exact ⟨s₀, s, index, grown, extends_refl s, merges, packed⟩
    | fail => cases taken; exact stopped
    | _ => cases taken
  | packed c ids pack =>
    cases a with
    | upload =>
      obtain ⟨s₀, s₁, index, fetched, grown, merges, packed⟩ := h
      cases taken
      have more : s.Extends (s.streamChunkPack c pack) := fun _ _ _ get =>
        PackStore.streamChunkPack_keeps get
      refine ⟨more, .inl rfl, fun k same => ?_⟩
      cases same
      intro s' later off
      have stored := later _ _ _ (s.streamChunkPack_self c pack)
      have stands := stands_packMerged fetched
        (fun _ _ _ get => later _ _ _ (more _ _ _ (grown _ _ _ get))) merges packed
        fun _ same => by cases same; exact stored
      exact (stands.same off).symm
    | fail => cases taken; exact stopped
    | _ => cases taken
  | ready c ids new =>
    cases a with
    | swap =>
      cases taken
      exact ⟨extends_refl s, .inr ⟨c, ids, new, h, rfl⟩, nofun⟩
    | fail => cases taken; exact stopped
    | _ => cases taken

theorem countStep_rewritten {job : Backfill PackId} {job' : Option (Backfill PackId)} {a : CountAct}
    (exact : Exact s m) (h : job.Sound s) (taken : Volume.countStep s m job a = some (m', job')) :
    Rewritten s m m' ∧ ∀ k, job' = some k → k.Sound s := by
  cases a with
  | load =>
    obtain ⟨existing, loaded, taken⟩ := Option.map_eq_some_iff.mp taken
    cases taken
    refine ⟨⟨exact, fun c => .refl s c _⟩, fun k same => ?_⟩
    cases same
    intro n known
    cases known
    exact counts_loadExisting loaded
  | set =>
    obtain ⟨live, known, taken⟩ := Option.map_eq_some_iff.mp taken
    cases taken
    exact ⟨rewritten_setLiveBlocks exact (h live known), nofun⟩

/-- A job that changes leaves the others as they are. -/
theorem of_update {α : Type} {P : α → Prop} {jobs : Nat → Option α} {j : Nat} {job : Option α}
    (old : ∀ i k, jobs i = some k → P k) (new : ∀ k, job = some k → P k) :
    ∀ i k, Function.update jobs j job i = some k → P k := by
  intro i k here
  rcases update_eq_some here with ⟨-, here⟩ | ⟨-, here⟩
  · exact new k here
  · exact old i k here

theorem Volume.sound_opened (h : Exact s m) :
    (Volume.opened m).Sound s where
  exact := h
  flush _ none := by cases none
  compacting _ _ none := by cases none
  backfill _ _ none := by cases none

theorem exact_new (s : PackStore C) : Exact s VolumeManifest.new where
  counts _ _ _ none := by cases none
  keys _ _ none := by cases none

/-- A volume that is sound stays so, and packs are only added. -/
theorem Volume.step_sound {saved : List (StoredManifest PackId)} {v v' : Volume C} {a : Act D}
    (h : v.Sound s) (loads : ∀ st ∈ saved, ∀ m, st.deserialize = some m → Exact s m)
    (alike : ∀ k f st m, a = .reload k → v.flush = some f → saved[k]? = some st → st.deserialize = some m → ∀ c ∈ f.working, Alike s c (v.manifest.chunkPackIds c) (m.chunkPackIds c))
    (taken : v.step s saved a = some (s', v')) : s.Extends s' ∧ v'.Sound s' := by
  cases a with
  | create =>
    cases taken
    exact ⟨extends_refl s, sound_opened (exact_new s)⟩
  | load k =>
    obtain ⟨st, listed, taken⟩ := Option.bind_eq_some_iff.mp taken
    obtain ⟨m, read, taken⟩ := Option.map_eq_some_iff.mp taken
    cases taken
    exact ⟨extends_refl s, sound_opened (loads st (List.mem_of_getElem? listed) m read)⟩
  | reload k =>
    obtain ⟨st, listed, taken⟩ := Option.bind_eq_some_iff.mp taken
    obtain ⟨m, read, taken⟩ := Option.map_eq_some_iff.mp taken
    cases taken
    refine ⟨extends_refl s, loads st (List.mem_of_getElem? listed) m read, fun f running => ?_,
      h.compacting, h.backfill⟩
    exact (h.flush f running).moved (alike k f st m rfl running listed read)
  | save => cases taken
  | flushBegin g snap =>
    obtain ⟨-, taken⟩ := Option.ite_none_right_eq_some.mp taken
    cases taken
    refine ⟨extends_refl s, h.exact, fun f same => ?_, h.compacting, h.backfill⟩
    cases same
    have chunks : Flush.chunks (C := C) ⟨g, snap, snap.chunks, none, [], []⟩ = snap.chunks := by
      simp [Flush.chunks, Flush.working]
    exact
      { reading := nofun
        fits := fun _ mem => absurd mem List.not_mem_nil
        stored := fun _ mem => absurd mem List.not_mem_nil
        distinct := by
          rw [chunks]
          exact List.nodup_dedup _
        keys := by
          intro c mem
          rw [chunks] at mem
          obtain ⟨p, -, rfl⟩ := Snapshot.mem_chunks.mp mem
          rw [VolumeManifest.chunkKeys]
          exact Nat.mod_lt _ (by decide) }
  | flush a =>
    obtain ⟨f, running, taken⟩ := Option.bind_eq_some_iff.mp taken
    obtain ⟨kept, compacting, backfill⟩ := flushStep_kept h running taken
    have grown := h.extends kept.store
    exact ⟨kept.store, kept.exact, kept.flush, compacting ▸ grown.compacting,
      backfill ▸ grown.backfill⟩
  | compactList j c =>
    obtain ⟨-, taken⟩ := Option.ite_none_right_eq_some.mp taken
    cases taken
    refine ⟨extends_refl s, h.exact, h.flush, of_update h.compacting fun job same => ?_, h.backfill⟩
    cases same
    trivial
  | compact j a =>
    obtain ⟨job, at_job, taken⟩ := Option.bind_eq_some_iff.mp taken
    obtain ⟨⟨s₁, m, job'⟩, moved, taken⟩ := Option.map_eq_some_iff.mp taken
    cases taken
    obtain ⟨more, swapped, next⟩ := compactStep_swapped (h.compacting j job at_job) moved
    have grown := h.extends more
    have rewritten := swapped.rewritten grown.exact
    refine ⟨more, rewritten.exact, fun f running => ?_, of_update grown.compacting next,
      grown.backfill⟩
    exact (grown.flush f running).moved fun c _ => rewritten.alike c
  | countRead j c =>
    simp only [Volume.step] at taken
    split at taken
    · cases taken
      refine ⟨extends_refl s, h.exact, h.flush, h.compacting, of_update h.backfill fun job same => ?_⟩
      cases same
      exact nofun
    · cases taken
  | count j a =>
    obtain ⟨job, at_job, taken⟩ := Option.bind_eq_some_iff.mp taken
    obtain ⟨⟨m, job'⟩, moved, taken⟩ := Option.map_eq_some_iff.mp taken
    cases taken
    obtain ⟨rewritten, next⟩ := countStep_rewritten h.exact (h.backfill j job at_job) moved
    refine ⟨extends_refl s, rewritten.exact, fun f running => ?_, h.compacting,
      of_update h.backfill next⟩
    exact (h.flush f running).moved fun c _ => rewritten.alike c

theorem step_sound {p p' : Pool C} {a : Nat × Act D} (h : p.Sound) (allowed : ReloadsAlike p a)
    (taken : step p a = some p') : p'.Sound := by
  obtain ⟨v, a⟩ := a
  by_cases saves : a = .save
  · subst saves
    obtain ⟨st, written, rfl⟩ := Option.map_eq_some_iff.mp taken
    refine ⟨h.volumes, fun st' mem m read => ?_⟩
    rcases List.mem_append.mp mem with old | new
    · exact h.saved st' old m read
    · cases List.mem_singleton.mp new
      obtain ⟨m', read', same⟩ := deserialize_serialize written
      cases read'.symm.trans read
      have exact := (h.volumes v).exact
      refine ⟨fun c e n here known => ?_, fun c e here => key_of_deserialize read here⟩
      obtain ⟨e₀, before, packs, counts⟩ := same c e here
      rw [packs]
      exact exact.counts c e₀ n before (counts n known)
  · have taken : ((p.volumes v).step p.store p.saved a).map (fun (s, u) =>
        { p with store := s, volumes := Function.update p.volumes v u }) = some p' := by
      cases a <;> first | exact taken | exact absurd rfl saves
    obtain ⟨⟨s, u⟩, moved, rfl⟩ := Option.map_eq_some_iff.mp taken
    have alike : ∀ k f st m, a = .reload k → (p.volumes v).flush = some f → p.saved[k]? = some st →
        st.deserialize = some m → ∀ c ∈ f.working,
          Alike p.store c ((p.volumes v).manifest.chunkPackIds c) (m.chunkPackIds c) := by
      rintro k f st m rfl
      exact allowed f st m
    obtain ⟨more, sound⟩ := Volume.step_sound (h.volumes v) h.saved alike moved
    refine ⟨fun w => ?_, fun st mem m read => (h.saved st mem m read).extends more⟩
    by_cases same : w = v
    · subst same
      simpa using sound
    · simpa [same] using (h.volumes w).extends more

theorem Start.sound {p : Pool C} (h : Start p) : p.Sound where
  volumes v := by
    rw [h.volumes]
    exact Volume.sound_opened (exact_new p.store)
  saved st mem m read := by
    refine ⟨fun c e n here known => ?_, fun c e here => key_of_deserialize read here⟩
    rw [StoredManifest.deserialize, h.legacy st mem] at read
    cases read
    obtain ⟨packs, -, rfl⟩ := Option.map_eq_some_iff.mp here
    cases known

/-- In every manifest of a run, open or stored, a known count is the number of the chunk's
    offsets whose newest entry has data, and the sum is given only if all counts are known. -/
theorem live_counts_exact {p q : Pool C} (start : Start p) (run : Reach step ReloadsAlike p q)
    (held : q.Holds m) :
    (∀ c e n, m.chunks c = some e → e.liveBlocks = some n →
      n = {off | Live q.store c e.packs off}.ncard) ∧
    ∀ blockSize, m.storedBytes blockSize ≠ none →
      ∀ c e, m.chunks c = some e → e.liveBlocks ≠ none := by
  have sound := run.invariant (I := Pool.Sound) start.sound fun _ _ _ => step_sound
  have exact : Exact q.store m := by
    rcases held with ⟨v, rfl⟩ | ⟨st, mem, read⟩
    · exact (sound.volumes v).exact
    · exact sound.saved st mem m read
  constructor
  · intro c e n here known
    exact (exact.counts c e n here known).count
  · intro blockSize given c e here
    obtain ⟨total, summed⟩ := Option.ne_none_iff_exists'.mp given
    exact VolumeManifest.known_of_storedBytes summed (exact.keys c e here) here

/-- A pool with the empty manifest of a volume stored. -/
def emptySaved : Pool (.plain 16) :=
  ⟨.empty, [⟨[], none, fun _ mem => absurd mem List.not_mem_nil⟩], fun _ => .opened .new⟩

theorem emptySaved_start : Start emptySaved where
  legacy st mem := by
    rw [List.mem_singleton.mp mem]
  volumes _ := rfl

theorem gib4k_inRange (b : Fin 8) : Geometry.gib4k.InRange b := by
  simp only [Geometry.InRange, Geometry.gib4k]
  omega

/-- One block of a volume of one GiB, filled with a byte. -/
def oneBlock (b : Fin 8) (v : UInt8) : Snapshot .gib4k (BlockData 16) where
  blocks := [(b, .fill 16 v)]
  distinct := List.nodup_singleton _
  inRange _ mem := List.mem_singleton.mp mem ▸ gib4k_inRange b

/-- A flush of one block up to its upload. -/
def flushUploaded (b : Fin 8) (v : UInt8) : List (Nat × Act (BlockData 16)) :=
  [(0, .flushBegin .gib4k (oneBlock b v)), (0, .flush .read), (0, .flush (.compute 3)),
    (0, .flush (.upload 0))]

/-- The offsets a stored pack of chunk 0 has data for. -/
def Pool.dataOffsets (p : Pool (.plain 16)) (id : List (PackBlock (BlockData 16))) : List Nat :=
  ((p.store.get 0 id).map fun pack =>
    (pack.blocks.filter fun b => 0 < b.compressed.length).map PackBlock.chunkOffset).getD []

/-- The packs of chunk 0 of volume 0, each with its offsets, and the count. -/
def Pool.chunkZero (p : Pool (.plain 16)) : Option (List (List Nat) × Option Nat) :=
  ((p.volumes 0).manifest.chunks 0).map fun e => (e.packs.map p.dataOffsets, e.liveBlocks)

theorem live_of_one {p : Pool (.plain 16)} {id : List (PackBlock (BlockData 16))} {off : Nat}
    (h : Live p.store 0 [id] off) : off ∈ p.dataOffsets id := by
  obtain ⟨e, located, data⟩ := h
  simp only [List.reverse_singleton, locateIn] at located
  split at located
  · cases located
  · rename_i pack get
    split at located
    · rename_i e' found
      cases located
      obtain ⟨mem, rfl⟩ := Pack.find_some found
      simp only [Pool.dataOffsets, get, Option.map_some, Option.getD_some]
      exact List.mem_map_of_mem (List.mem_filter.mpr ⟨mem, by simpa using data⟩)
    · cases located

private theorem reloaded_during_flush :
    (exec step emptySaved ([(0, .load 0)] ++ flushUploaded 0 1 ++ [(0, .flush .append)] ++
      flushUploaded 1 2 ++ [(0, .reload 0), (0, .flush .append)])).bind Pool.chunkZero =
        some ([[1]], some 2) := by
  decide +kernel

/-- A flush counted two live blocks over the packs in memory. The manifest that a re-attach
    reloads does not list the first of them, so the chunk has one. -/
theorem reload_count_wrong : ∃ q : Pool (.plain 16), Reach step anyStep emptySaved q ∧
    ∃ m, q.Holds m ∧ ∃ c e n, m.chunks c = some e ∧ e.liveBlocks = some n ∧
      n ≠ {off | Live q.store c e.packs off}.ncard := by
  obtain ⟨q, run, seen⟩ := Option.bind_eq_some_iff.mp reloaded_during_flush
  obtain ⟨e, here, seen⟩ := Option.map_eq_some_iff.mp seen
  obtain ⟨packs, known⟩ := Prod.mk.inj seen
  obtain ⟨id, one, offsets⟩ := List.map_eq_singleton_iff.mp packs
  refine ⟨q, reach_exec run, (q.volumes 0).manifest, .inl ⟨0, rfl⟩, 0, e, 2, here, known, ?_⟩
  have only : {off | Live q.store 0 e.packs off} ⊆ {1} := by
    intro off live
    rw [Set.mem_ofPred_eq, one] at live
    simpa [offsets] using live_of_one live
  have few := Set.ncard_le_ncard only (Set.finite_singleton 1)
  rw [Set.ncard_singleton] at few
  omega

private theorem flushed_once :
    (exec step emptySaved ([(0, .load 0)] ++ flushUploaded 0 1 ++ [(0, .flush .append)])).bind
      Pool.chunkZero = some ([[0]], some 1) := by
  decide +kernel

/-- After one flush the count is known, and it is the number of live offsets. -/
theorem live_counts_exact_flushed : ∃ q : Pool (.plain 16), ∃ e,
    (q.volumes 0).manifest.chunks 0 = some e ∧ e.liveBlocks = some 1 ∧
      1 = {off | Live q.store 0 e.packs off}.ncard := by
  obtain ⟨q, run, seen⟩ := Option.bind_eq_some_iff.mp flushed_once
  obtain ⟨e, here, seen⟩ := Option.map_eq_some_iff.mp seen
  have known := (Prod.mk.inj seen).2
  have allowed : Reach step ReloadsAlike emptySaved q := by
    apply reach_exec_of run
    intro a mem u
    simp only [flushUploaded, List.cons_append, List.nil_append, List.mem_cons, List.not_mem_nil,
      or_false] at mem
    rcases mem with rfl | rfl | rfl | rfl | rfl | rfl <;> trivial
  exact ⟨q, e, here, known,
    (live_counts_exact emptySaved_start allowed (.inl ⟨0, rfl⟩)).1 0 e 1 here known⟩

end LiveCounts

end GlideFS.WriteCache
