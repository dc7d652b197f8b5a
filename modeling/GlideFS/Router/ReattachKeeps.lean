import GlideFS.Router.Reattach
import GlideFS.WriteCache.FlushResolves

/-! # A flush keeps its packs over a re-attach

A block of the flush is in one of its packs, or it was found in place and the manifest in
memory resolves it until the append. From the append to the serialization memory resolves
all of them, then the serialized manifest does, and from the PUT on the object. Only a
manifest that takes the place of another can break this.
-/

namespace GlideFS.Router.Reattach

open Block Lib WriteCache

variable {D Hash PackId E : Type} [Zero D] [DecidableEq D] [DecidableEq Hash]
  [DecidableEq PackId] [DecidableEq E] {C : Codec D Hash PackId}

/-! ## Resolving and covering -/

variable {g : Geometry} {s s' : PackStore C} {m m' : VolumeManifest PackId} {f : LiveCounts.Flush C}
  {x : Cycle C E} {t t' : State C E} {a : Act D PackId E}

theorem resolveBlock_extends (more : s.Extends s') {b : Nat} {d : D}
    (h : resolveBlock g s m b = some d) : resolveBlock g s' m b = some d := by
  cases located : locateBlock g s m b with
  | none => simp [resolveBlock, located] at h
  | some r =>
    have same : locateBlock g s' m b = some r := locateIn_extends more located
    rw [resolveBlock, same]
    rwa [resolveBlock, located] at h

namespace Covers

variable {g : Geometry} {s s' : PackStore C} {m m' m'' : VolumeManifest PackId} {p : Nat × D}

theorem refl (g : Geometry) (s : PackStore C) (m : VolumeManifest PackId) (p : Nat × D) :
    Covers g s m m p := by
  intro _ _ h
  exact h

theorem trans (h : Covers g s m m' p) (h' : Covers g s m' m'' p) : Covers g s m m'' p := by
  intro s' more resolved
  exact h' s' more (h s' more resolved)

theorem «extends» (h : Covers g s m m' p) (more : s.Extends s') : Covers g s' m m' p := by
  intro t grown
  exact h t fun _ _ _ get => grown _ _ _ (more _ _ _ get)

theorem resolves (h : Covers g s m m' p) (resolved : resolveBlock g s m p.1 = some p.2) :
    resolveBlock g s m' p.1 = some p.2 :=
  h s (extends_refl s) resolved

/-- Packs that are searched alike resolve alike. -/
theorem of_alike (h : ∀ c, Alike s c (m.chunkPackIds c) (m'.chunkPackIds c)) :
    Covers g s m m' p := by
  intro s' more resolved
  have same : locateBlock g s' m' p.1 = locateBlock g s' m p.1 := (h _ s' more _).symm
  rw [resolveBlock, same]
  exact resolved

end Covers

/-! ## What a flush knows -/

/-- A flush before its append. `kept` is about the blocks no pack of the flush has. -/
structure Planning (s : PackStore C) (m : VolumeManifest PackId) (f : LiveCounts.Flush C) :
    Prop where
  reading : ∀ c m₀, f.reading = some (c, m₀) → ∀ p ∈ f.snap.inChunk c, Covers f.geometry s m₀ m p
  packs : ∀ plan ∈ f.uploading ++ f.staged, ∀ p ∈ f.snap.inChunk plan.chunkIdx, ∀ e,
    plan.pack.find (f.geometry.blockOffsetInChunk p.1) = some e → C.fetchBlock e = some p.2
  stored : ∀ plan ∈ f.staged, s.get plan.chunkIdx plan.pack.packId = some plan.pack
  distinct : f.chunks.Nodup
  kept : ∀ p ∈ f.snap.blocks, f.geometry.chunkIdxForBlock p.1 ∉ f.todo →
    (∀ c m₀, f.reading = some (c, m₀) → c ≠ f.geometry.chunkIdxForBlock p.1) →
    (∀ plan ∈ f.uploading ++ f.staged, plan.chunkIdx = f.geometry.chunkIdxForBlock p.1 →
      plan.pack.find (f.geometry.blockOffsetInChunk p.1) = none) →
    resolveBlock f.geometry s m p.1 = some p.2

/-- The manifest resolves every block of the flush to its content. -/
def Resolves (s : PackStore C) (m : VolumeManifest PackId) (f : LiveCounts.Flush C) : Prop :=
  ∀ p ∈ f.snap.blocks, resolveBlock f.geometry s m p.1 = some p.2

/-- What holds at each stage of a flush. -/
def Stage.Sound (s : PackStore C) (memory : VolumeManifest PackId)
    (object : Option (Stored PackId E)) (f : LiveCounts.Flush C) : Stage PackId E → Prop
  | .planning => Planning s memory f
  | .appended => f.todo = [] ∧ Resolves s memory f
  | .serialized bytes | .putting bytes _ _ => f.todo = [] ∧ Resolves s bytes.manifest f
  | .stored _ | .evicting =>
      f.todo = [] ∧ ∃ o, object = some o ∧ Resolves s o.content.manifest f
  | .failed => True

structure Cycle.Sound (t : State C E) (x : Cycle C E) : Prop where
  stage : x.stage.Sound t.store t.memory.manifest t.object x.plan
  blocks : ∀ p ∈ x.plan.snap.blocks, t.blocks p.1 = .syncing ∨ t.blocks p.1 = .dirty

structure Inv (t : State C E) : Prop where
  cycle : ∀ x, t.flush = some x → x.Sound t
  jobs : ∀ j job, t.compacting j = some job → job.Sound t.store
  /-- `flush_lock`. -/
  lock : t.flush = none ∨ t.publish = none

theorem Planning.fresh (h : Planning s m f) {c : Nat} (working : c ∈ f.working) : c ∉ f.todo := by
  intro later
  exact (List.nodup_append.mp h.distinct).2.2 c later c working rfl

/-- A flush being planned does not notice a manifest that has its blocks. -/
theorem Planning.moved (h : Planning s m f) (more : s.Extends s')
    (covers : ∀ p ∈ f.snap.blocks, f.geometry.chunkIdxForBlock p.1 ∉ f.todo → Covers f.geometry s' m m' p) :
    Planning s' m' f where
  reading c m₀ here p mem := by
    obtain ⟨listed, at_c⟩ := Snapshot.mem_inChunk.mp mem
    have read : c ∉ f.todo := h.fresh (by simp [LiveCounts.Flush.working, here])
    exact ((h.reading c m₀ here p mem).extends more).trans (covers p listed (at_c ▸ read))
  packs := h.packs
  stored plan mem := more _ _ _ (h.stored plan mem)
  distinct := h.distinct
  kept p mem read idle unpacked := by
    have resolved := resolveBlock_extends more (h.kept p mem read idle unpacked)
    exact (covers p mem read).resolves resolved

theorem Resolves.moved (h : Resolves s m f) (more : s.Extends s')
    (covers : ∀ p ∈ f.snap.blocks, Covers f.geometry s' m m' p) : Resolves s' m' f := by
  intro p mem
  exact (covers p mem).resolves (resolveBlock_extends more (h p mem))

theorem Resolves.extends (h : Resolves s m f) (more : s.Extends s') : Resolves s' m f :=
  h.moved more fun p _ => .refl f.geometry s' m p

theorem Cycle.KeptBy.refl (x : Cycle C E) (s : PackStore C) (m : VolumeManifest PackId) :
    x.KeptBy s m m := by
  intro p _ _
  exact .refl _ s m p

/-- With every chunk read the new manifest has all the blocks the old one has. -/
theorem Cycle.KeptBy.all (h : x.KeptBy s m m') (done : x.plan.todo = []) :
    ∀ p ∈ x.plan.snap.blocks, Covers x.plan.geometry s m m' p := by
  intro p mem
  apply h p mem
  rw [done]
  exact List.not_mem_nil

/-- A step outside the flush leaves a sound state if the manifests it brings have the blocks of
    those they replace. -/
theorem Inv.moved (h : Inv t) (more : t.store.Extends t'.store) (flush : t'.flush = t.flush)
    (publish : t.flush = none ∨ t'.publish = t.publish)
    (memory : ∀ x, t.flush = some x → x.stage.UsesMemory → x.KeptBy t'.store t.memory.manifest t'.memory.manifest)
    (object : ∀ x, t.flush = some x → x.stage.UsesObject → ∀ o, t.object = some o → ∃ o', t'.object = some o' ∧ x.KeptBy t'.store o.content.manifest o'.content.manifest)
    (blocks : ∀ b, t'.blocks b = t.blocks b ∨ t'.blocks b = .dirty)
    (jobs : ∀ j job, t'.compacting j = some job → job.Sound t'.store) : Inv t' where
  cycle x running := by
    rw [flush] at running
    have sound := h.cycle x running
    constructor
    · have known := sound.stage
      have memory := memory x running
      have object := object x running
      obtain ⟨f, stage⟩ := x
      cases stage with
      | planning => exact Planning.moved known more (memory trivial)
      | appended =>
        obtain ⟨done, resolves⟩ := known
        exact ⟨done, resolves.moved more ((memory trivial).all done)⟩
      | serialized bytes | putting bytes expected attempts =>
        exact ⟨known.1, known.2.extends more⟩
      | stored etag | evicting =>
        obtain ⟨done, o, here, resolves⟩ := known
        obtain ⟨o', there, kept⟩ := object trivial o here
        exact ⟨done, o', there, resolves.moved more (kept.all done)⟩
      | failed => trivial
    · intro p mem
      rcases blocks p.1 with same | dirty
      · rw [same]
        exact sound.blocks p mem
      · exact .inr dirty
  jobs := jobs
  lock := by
    rw [flush]
    rcases publish with none | same
    · exact .inl none
    · rw [same]
      exact h.lock

/-- The object after a PUT that was done has the flush's blocks if the manifest has. -/
theorem putManifest_kept {bytes : Stamped PackId} {expected : Option E} {reply : Reply}
    {etag : Option E} (kept : puts t.object expected reply → t.StoresKept bytes)
    (running : t.flush = some x) (uses : x.stage.UsesObject) {o : Stored PackId E}
    (here : t.object = some o) :
    ∃ o', putManifest t.object bytes expected reply etag = some o' ∧
      x.KeptBy t.store o.content.manifest o'.content.manifest := by
  rw [putManifest]
  split
  · rename_i done
    exact ⟨_, rfl, kept done x o running uses here⟩
  · exact ⟨o, here, .refl x _ _⟩

/-! ## The steps of an attach -/

/-- What an attach can change: the manifest in memory and the object, and nothing else a flush
    looks at. -/
structure AttachKeeps (t t' : State C E) : Prop where
  frame : (t'.store, t'.flush, t'.blocks, t'.compacting) = (t.store, t.flush, t.blocks, t.compacting)
  publish : t.flush = none ∨ t'.publish = t.publish
  memory : ∀ x, t.flush = some x → x.stage.UsesMemory →
    x.KeptBy t.store t.memory.manifest t'.memory.manifest
  object : ∀ x, t.flush = some x → x.stage.UsesObject → ∀ o, t.object = some o →
    ∃ o', t'.object = some o' ∧ x.KeptBy t.store o.content.manifest o'.content.manifest

theorem AttachKeeps.inv (k : AttachKeeps t t') (h : Inv t) : Inv t' := by
  obtain ⟨store, flush, blocks, compacting⟩ := by simpa only [Prod.mk.injEq] using k.frame
  refine h.moved ?_ flush k.publish ?_ ?_ (fun b => .inl (by rw [blocks])) ?_
  · rw [store]
    exact extends_refl _
  · rw [store]
    exact k.memory
  · rw [store]
    exact k.object
  · rw [compacting, store]
    exact h.jobs

/-- A step that leaves both manifests as they are. -/
theorem AttachKeeps.same
    (frame : (t'.store, t'.flush, t'.blocks, t'.compacting) =
      (t.store, t.flush, t.blocks, t.compacting))
    (publish : t.flush = none ∨ t'.publish = t.publish)
    (memory : t'.memory.manifest = t.memory.manifest) (object : t'.object = t.object) :
    AttachKeeps t t' where
  frame
  publish
  memory x _ _ := by
    rw [memory]
    exact .refl x _ _
  object x _ _ o here := ⟨o, object.trans here, .refl x _ _⟩

theorem attachStep_keeps {j : Nat} {reply : Reply} {etag : Option E} {call : Attach PackId E}
    (here : t.attach j = some call) (careful : Careful t (.fence j reply etag : Act D PackId E)) :
    AttachKeeps t (t.attachStep j reply etag call) := by
  have careful := careful call here
  cases call with
  | fencing tries my =>
    simp only [State.attachStep]
    split
    · exact .same rfl (.inr rfl) rfl rfl
    · split
      · exact .same rfl (.inr rfl) rfl rfl
      · exact .same rfl (.inr rfl) rfl rfl
  | seizing | stamping | seized | contended | reloaded => exact .same rfl (.inr rfl) rfl rfl
  | seizePut tries my bytes expected =>
    exact
      { frame := rfl
        publish := .inr rfl
        memory := fun x _ _ => .refl x _ _
        object := fun x running uses o here => putManifest_kept careful running uses here }
  | reloading tries my found =>
    exact
      { frame := rfl
        publish := .inr rfl
        memory := careful
        object := fun x _ _ o here => ⟨o, here, .refl x _ _⟩ }

/-! ## The steps of a flush -/

/-- What a plan leaves out the manifest in memory resolves, as the one the plan was made for. -/
theorem resolves_of_unpacked {m₀ : VolumeManifest PackId} {level : Int} {snap : Snapshot g D}
    {plan : ChunkPlan C} (plans : plan.Plans s m₀ level snap) {p : Nat × D}
    (mem : p ∈ snap.inChunk plan.chunkIdx) (covers : Covers g s m₀ m p)
    (unpacked : plan.pack.find (g.blockOffsetInChunk p.1) = none) :
    resolveBlock g s m p.1 = some p.2 := by
  obtain ⟨listed, at_c⟩ := Snapshot.mem_inChunk.mp mem
  apply covers.resolves
  by_contra changed
  rw [plans.find_changed listed at_c.symm changed] at unpacked
  cases unpacked

/-- A pack that is not uploaded is empty, or the chunk lists it. -/
theorem skipped_iff {m₀ : VolumeManifest PackId} {level : Int} {snap : Snapshot g D}
    {plan : ChunkPlan C} (plans : plan.Plans s m₀ level snap) :
    plan.uploads m = false ↔ changedBlocks s m₀ level snap plan.chunkIdx = [] ∨
      C.contentPackId (changedBlocks s m₀ level snap plan.chunkIdx) ∈
        m.chunkPackIds plan.chunkIdx := by
  rw [← plans.packed, ChunkPlan.uploads, Pack.packId]
  by_cases empty : plan.pack.blocks = []
  · simp [empty]
  · simp [empty]

/-- Planning does not touch the snapshot. -/
theorem flushStep_blocks {f' : LiveCounts.Flush C} {v : LiveCounts.Volume C}
    {a : LiveCounts.FlushAct} (taken : (LiveCounts.Volume.opened m).flushStep s f a = some (s', v))
    (next : v.flush = some f') : f'.snap.blocks = f.snap.blocks := by
  cases a with
  | read =>
    simp only [LiveCounts.Volume.flushStep] at taken
    split at taken
    · cases taken
      cases next
      rfl
    · cases taken
  | compute level =>
    obtain ⟨_, -, taken⟩ := Option.bind_eq_some_iff.mp taken
    obtain ⟨plan, -, taken⟩ := Option.map_eq_some_iff.mp taken
    cases taken
    cases next
    rfl
  | upload i =>
    obtain ⟨plan, -, taken⟩ := Option.map_eq_some_iff.mp taken
    cases taken
    cases next
    rfl
  | append =>
    obtain ⟨-, taken⟩ := Option.ite_none_right_eq_some.mp taken
    cases taken
    cases next
  | fail =>
    cases taken
    cases next

theorem planning_step {f' : LiveCounts.Flush C} {v : LiveCounts.Volume C} {a : LiveCounts.FlushAct}
    (h : Planning s m f)
    (careful : ∀ level c m₀, a = .compute level → f.reading = some (c, m₀) →
      changedBlocks s m₀ level f.snap c ≠ [] →
      C.contentPackId (changedBlocks s m₀ level f.snap c) ∈ m.chunkPackIds c →
      ∀ p ∈ f.snap.inChunk c, resolveBlock f.geometry s m p.1 = some p.2)
    (taken : (LiveCounts.Volume.opened m).flushStep s f a = some (s', v)) (next : v.flush = some f') :
    s.Extends s' ∧ Planning s' m f' := by
  cases a with
  | read =>
    simp only [LiveCounts.Volume.flushStep] at taken
    split at taken
    · rename_i c rest idle todo
      cases taken
      cases next
      refine ⟨extends_refl s, ?_⟩
      exact
        { reading := by
            intro c' m₀ here p _
            cases here
            exact .refl _ s m p
          packs := h.packs
          stored := h.stored
          distinct := (LiveCounts.Flush.chunks_read idle todo m).nodup_iff.mpr h.distinct
          kept := by
            intro p mem read idle' unpacked
            apply h.kept p mem _ (fun _ _ none => by simp [idle] at none) unpacked
            rw [todo]
            exact List.not_mem_cons_of_ne_of_not_mem (idle' c m rfl).symm read }
    · cases taken
  | compute level =>
    obtain ⟨⟨c, m₀⟩, reading, taken⟩ := Option.bind_eq_some_iff.mp taken
    obtain ⟨plan, planned, taken⟩ := Option.map_eq_some_iff.mp taken
    cases taken
    cases next
    obtain ⟨rfl, plans⟩ := planChunk_spec planned
    have covers := h.reading _ m₀ reading
    -- a block of another chunk is where it was before
    have others (p : Nat × D) (mem : p ∈ f.snap.blocks)
        (read : f.geometry.chunkIdxForBlock p.1 ∉ f.todo)
        (other : plan.chunkIdx ≠ f.geometry.chunkIdxForBlock p.1) := by
      refine h.kept p mem read fun c' m' here => ?_
      cases reading.symm.trans here
      exact other
    refine ⟨extends_refl s, ?_⟩
    cases uploads : plan.uploads (LiveCounts.Volume.opened (C := C) m).manifest with
    | true =>
      exact
        { reading := fun _ _ none => by cases none
          packs := by
            intro plan' mem p inside e found
            simp only [if_true, List.append_assoc, List.singleton_append] at mem
            rcases List.mem_append.mp mem with old | new
            · exact h.packs plan' (List.mem_append_left _ old) p inside e found
            · rcases List.mem_cons.mp new with rfl | staged
              · obtain ⟨listed, at_c⟩ := Snapshot.mem_inChunk.mp inside
                exact plans.fetch_of_find listed at_c.symm found
              · exact h.packs plan' (List.mem_append_right _ staged) p inside e found
          stored := h.stored
          distinct := (LiveCounts.Flush.chunks_compute reading).nodup_iff.mpr h.distinct
          kept := by
            intro p mem read _ unpacked
            simp only [if_true, List.append_assoc, List.singleton_append] at unpacked
            by_cases here : plan.chunkIdx = f.geometry.chunkIdxForBlock p.1
            · have inside := Snapshot.mem_inChunk.mpr ⟨mem, here.symm⟩
              exact resolves_of_unpacked plans inside (covers p inside)
                (unpacked plan (by simp) here)
            · apply others p mem read here
              intro plan' listed
              apply unpacked plan'
              rcases List.mem_append.mp listed with up | staged
              · exact List.mem_append_left _ up
              · exact List.mem_append_right _ (List.mem_cons_of_mem _ staged) }
    | false =>
      exact
        { reading := fun _ _ none => by cases none
          packs := h.packs
          stored := h.stored
          distinct := h.distinct.sublist (LiveCounts.Flush.chunks_skip reading)
          kept := by
            intro p mem read _ unpacked
            by_cases here : plan.chunkIdx = f.geometry.chunkIdxForBlock p.1
            · have inside := Snapshot.mem_inChunk.mpr ⟨mem, here.symm⟩
              by_cases empty : changedBlocks s m₀ level f.snap plan.chunkIdx = []
              · apply resolves_of_unpacked plans inside (covers p inside)
                rw [Pack.find_none, plans.packed, empty]
                simp
              · have listed := ((skipped_iff plans).mp uploads).resolve_left empty
                exact careful level _ m₀ rfl reading empty listed p inside
            · exact others p mem read here unpacked }
  | upload i =>
    obtain ⟨plan, here, taken⟩ := Option.map_eq_some_iff.mp taken
    cases taken
    cases next
    have more : s.Extends (s.streamChunkPack plan.chunkIdx plan.pack) := fun _ _ _ get =>
      PackStore.streamChunkPack_keeps get
    have grown := h.moved more fun p _ _ => .refl f.geometry _ m p
    have moved := LiveCounts.Flush.plans_upload here
    refine ⟨more, ?_⟩
    exact
      { reading := grown.reading
        packs := fun plan' mem => grown.packs plan' (moved.mem_iff.mp mem)
        stored := by
          intro plan' mem
          rcases List.mem_append.mp mem with old | new
          · exact grown.stored plan' old
          · rw [List.mem_singleton.mp new]
            exact s.streamChunkPack_self plan.chunkIdx plan.pack
        distinct := (LiveCounts.Flush.chunks_upload here).nodup_iff.mpr grown.distinct
        kept := by
          intro p mem read idle unpacked
          apply grown.kept p mem read idle
          intro plan' listed
          exact unpacked plan' (moved.mem_iff.mpr listed) }
  | append =>
    obtain ⟨-, taken⟩ := Option.ite_none_right_eq_some.mp taken
    cases taken
    cases next
  | fail =>
    cases taken
    cases next

/-- After the append the manifest resolves every block of the flush. -/
theorem Planning.append_resolves (h : Planning s m f) (todo : f.todo = []) (idle : f.reading = none)
    (uploaded : f.uploading = []) : Resolves s (appendStaged m f.staged) f := by
  intro p mem
  have distinct := LiveCounts.Flush.staged_distinct h.distinct
  have kept (unpacked : ∀ plan ∈ f.staged, plan.chunkIdx = f.geometry.chunkIdxForBlock p.1 →
      plan.pack.find (f.geometry.blockOffsetInChunk p.1) = none) :
      resolveBlock f.geometry s m p.1 = some p.2 := by
    apply h.kept p mem
    · simp [todo]
    · simp [idle]
    · simpa [uploaded] using unpacked
  by_cases staged : f.geometry.chunkIdxForBlock p.1 ∈ f.staged.map ChunkPlan.chunkIdx
  · obtain ⟨plan, listed, idx⟩ := List.mem_map.mp staged
    have located := locate_appended (m := m) distinct listed (h.stored plan listed) idx
    cases found : plan.pack.find (f.geometry.blockOffsetInChunk p.1) with
    | some e =>
      rw [found] at located
      rw [resolveBlock, located]
      exact h.packs plan (by simp [listed]) p (Snapshot.mem_inChunk.mpr ⟨mem, idx.symm⟩) e found
    | none =>
      rw [found] at located
      have resolved := kept fun plan' listed' idx' => by
        rwa [List.inj_on_of_nodup_map distinct listed' listed (idx'.trans idx.symm)]
      rw [resolveBlock, located]
      exact resolved
  · have resolved := kept fun plan listed idx =>
      absurd (idx ▸ List.mem_map_of_mem (f := ChunkPlan.chunkIdx) listed) staged
    have located : locateBlock f.geometry s (appendStaged m f.staged) p.1 =
        locateBlock f.geometry s m p.1 := by
      rw [locateBlock, locateBlock, appendStaged_other staged]
    rw [resolveBlock, located]
    exact resolved

theorem planning_begin (s : PackStore C) (m : VolumeManifest PackId) (snap : Snapshot g D) :
    Planning s m ⟨g, snap, snap.chunks, none, [], []⟩ where
  reading _ _ none := by cases none
  packs _ mem := absurd mem List.not_mem_nil
  stored _ mem := absurd mem List.not_mem_nil
  distinct := by
    simp only [LiveCounts.Flush.chunks, LiveCounts.Flush.working, Option.map_none,
      Option.toList_none, List.append_nil, List.map_nil]
    exact List.nodup_dedup _
  kept p mem later := absurd (Snapshot.mem_chunks.mpr ⟨p, mem, rfl⟩) later

theorem Inv.unpublished (h : Inv t) (running : t.flush = some x) : t.publish = none := by
  rcases h.lock with none | none
  · rw [running] at none
    cases none
  · exact none

/-- A flush that stays at work leaves a sound state if its new stage is sound. -/
theorem Inv.staged (h : Inv t) (running : t.flush = some x) {stage : Stage PackId E}
    (frame : (t'.store, t'.publish, t'.blocks, t'.compacting) =
      (t.store, t.publish, t.blocks, t.compacting)) (flush : t'.flush = setStage x stage)
    (sound : stage.Sound t'.store t'.memory.manifest t'.object x.plan) : Inv t' where
  cycle y here := by
    cases flush.symm.trans here
    refine ⟨sound, ?_⟩
    simp only [Prod.mk.injEq] at frame
    rw [frame.2.2.1]
    exact (h.cycle x running).blocks
  jobs := by
    simp only [Prod.mk.injEq] at frame
    rw [frame.1, frame.2.2.2]
    exact h.jobs
  lock := .inr ((Prod.mk.inj (Prod.mk.inj frame).2).1.trans (h.unpublished running))

/-- A flush that has ended leaves nothing to keep. -/
theorem Inv.ended (h : Inv t) (store : t'.store = t.store) (flush : t'.flush = none)
    (compacting : t'.compacting = t.compacting) : Inv t' where
  cycle _ here := by
    rw [flush] at here
    cases here
  jobs := by
    rw [store, compacting]
    exact h.jobs
  lock := .inl flush

theorem flushStep_inv {a : FlushAct E} (h : Inv t) (running : t.flush = some x)
    (careful : Careful t (.flush a : Act D PackId E)) (taken : t.flushStep x a = some t') :
    Inv t' := by
  have known := (h.cycle x running).stage
  obtain ⟨f, stage⟩ := x
  cases a with
  | plan a =>
    cases stage with
    | planning =>
      obtain ⟨⟨s, v⟩, planned, taken⟩ := Option.bind_eq_some_iff.mp taken
      obtain ⟨f', next, taken⟩ := Option.map_eq_some_iff.mp taken
      cases taken
      obtain ⟨more, planning⟩ := planning_step known (by
        rintro level c m₀ rfl reading
        exact careful ⟨f, .planning⟩ c m₀ running reading) planned next
      constructor
      · intro y here
        cases here
        refine ⟨planning, ?_⟩
        rw [flushStep_blocks planned next]
        exact (h.cycle _ running).blocks
      · intro j job here
        exact (h.jobs j job here).extends more
      · exact .inr (h.unpublished running)
    | _ => cases taken
  | append =>
    cases stage with
    | planning =>
      simp only [State.flushStep, List.isEmpty_iff, Option.isNone_iff_eq_none] at taken
      obtain ⟨⟨todo, idle, uploaded⟩, taken⟩ := Option.ite_none_right_eq_some.mp taken
      have resolves := Planning.append_resolves known todo idle uploaded
      split at taken
      · rename_i nothing
        cases taken
        rw [nothing] at resolves
        obtain ⟨o, here, kept⟩ := careful ⟨f, .planning⟩ running nothing
        refine h.staged running rfl rfl ?_
        exact ⟨todo, o, here, resolves.moved (extends_refl _) (kept.all todo)⟩
      · cases taken
        exact h.staged running rfl rfl ⟨todo, resolves⟩
    | _ => cases taken
  | serialize | readEtag | storeEtag =>
    cases stage <;> first | cases taken; exact h.staged running rfl rfl known | cases taken
  | put reply etag =>
    cases stage with
    | putting bytes expected attempts =>
      cases attempts with
      | zero => cases taken
      | succ attempts =>
        cases taken
        refine h.staged running rfl rfl ?_
        cases reply with
        | ok =>
          cases matched : Matches t.object expected with
          | true =>
            simp only [outcome, matched, if_true]
            refine ⟨known.1, ⟨bytes, etag⟩, ?_, known.2⟩
            simp [putManifest, puts, matched]
          | false =>
            simp only [outcome, matched]
            trivial
        | failed | applied =>
          simp only [outcome]
          split
          · trivial
          · exact known
    | _ => cases taken
  | evict =>
    cases stage with
    | evicting =>
      cases taken
      exact h.ended rfl rfl rfl
    | _ => cases taken
  | fail =>
    cases stage with
    | planning | appended =>
      cases taken
      exact h.staged running rfl rfl trivial
    | _ => cases taken
  | recover lost =>
    cases stage with
    | failed =>
      cases taken
      exact h.ended rfl rfl rfl
    | _ => cases taken

/-! ## Runs -/

theorem step_inv (h : Inv t) (careful : Careful t a) (taken : step t a = some t') : Inv t' := by
  cases a with
  | flushBegin g snap =>
    obtain ⟨⟨-, free, -⟩, taken⟩ := Option.ite_none_right_eq_some.mp taken
    cases taken
    refine ⟨fun x here => ?_, h.jobs, .inr (Option.isNone_iff_eq_none.mp free)⟩
    cases here
    refine ⟨planning_begin t.store t.memory.manifest snap, fun p mem => .inl ?_⟩
    exact if_pos (List.mem_map_of_mem mem)
  | flush a =>
    obtain ⟨x, running, taken⟩ := Option.bind_eq_some_iff.mp taken
    exact flushStep_inv h running careful taken
  | attach j my =>
    obtain ⟨-, taken⟩ := Option.ite_none_right_eq_some.mp taken
    cases taken
    exact AttachKeeps.inv (t := t) (.same rfl (.inr rfl) rfl rfl) h
  | fence j reply etag =>
    obtain ⟨call, here, rfl⟩ := Option.map_eq_some_iff.mp taken
    exact (attachStep_keeps here careful).inv h
  | publishTag =>
    obtain ⟨⟨free, -⟩, taken⟩ := Option.ite_none_right_eq_some.mp taken
    cases taken
    have free := Option.isNone_iff_eq_none.mp free
    exact AttachKeeps.inv (t := t) (.same rfl (.inl free) rfl rfl) h
  | publish reply etag =>
    obtain ⟨call, here, rfl⟩ := Option.map_eq_some_iff.mp taken
    have free : t.flush = none := by
      rcases h.lock with none | none
      · exact none
      · rw [none] at here
        cases here
    apply AttachKeeps.inv (t := t) _ h
    cases call <;>
      exact ⟨rfl, .inl free, by simp [free], by simp [free]⟩
  | compactList j c =>
    obtain ⟨-, taken⟩ := Option.ite_none_right_eq_some.mp taken
    cases taken
    refine ⟨fun x running => ⟨(h.cycle x running).stage, (h.cycle x running).blocks⟩, ?_, h.lock⟩
    apply LiveCounts.of_update h.jobs
    intro job same
    cases same
    trivial
  | compact j a =>
    obtain ⟨job, at_job, taken⟩ := Option.bind_eq_some_iff.mp taken
    obtain ⟨⟨s, m, job'⟩, moved, taken⟩ := Option.map_eq_some_iff.mp taken
    cases taken
    obtain ⟨more, swapped, next⟩ := LiveCounts.compactStep_swapped (h.jobs j job at_job) moved
    refine h.moved more rfl (.inr rfl) ?_ ?_ (fun b => .inl rfl) ?_
    · intro x _ _ p _ _
      exact .of_alike swapped.alike
    · intro x _ _ o here
      exact ⟨o, here, .refl x _ _⟩
    · exact LiveCounts.of_update (fun i k here => (h.jobs i k here).extends more) next
  | guest b =>
    cases taken
    refine h.moved (extends_refl _) rfl (.inr rfl) ?_ ?_ ?_ h.jobs
    · intro x _ _
      exact .refl x _ _
    · intro x _ _ o here
      exact ⟨o, here, .refl x _ _⟩
    · intro b'
      by_cases same : b' = b
      · subst same
        exact .inr (Function.update_self ..)
      · exact .inl (Function.update_of_ne same ..)
  | foreign content etag =>
    cases taken
    refine h.moved (extends_refl _) rfl (.inr rfl) ?_ ?_ (fun _ => .inl rfl) h.jobs
    · intro x _ _
      exact .refl x _ _
    · intro x running uses o here
      exact ⟨⟨content, etag⟩, rfl, careful x o running uses here⟩

theorem Start.inv (h : Start t) : Inv t where
  cycle x here := by
    rw [h.flush] at here
    cases here
  jobs j job here := by
    rw [h.compacting] at here
    cases here
  lock := .inl h.flush

/-- A flush goes on with its blocks, or it evicts them, or it copies them back. -/
inductive Goes (t : State C E) (x : Cycle C E) : Act D PackId E → State C E → Prop where
  | on {a : Act D PackId E} {t' : State C E} {y : Cycle C E} (flush : t'.flush = some y)
      (blocks : y.plan.snap.blocks = x.plan.snap.blocks) : Goes t x a t'
  | evicted {t' : State C E} (stage : x.stage = .evicting) (store : t'.store = t.store)
      (object : t'.object = t.object) : Goes t x (.flush .evict) t'
  | recovered {t' : State C E} {lost : List Nat}
      (blocks : ∀ p ∈ x.plan.snap.blocks, t'.blocks p.1 =
        if t.blocks p.1 = .syncing ∧ p.1 ∈ lost then .notPresent else .dirty) :
      Goes t x (.flush (.recover lost)) t'

theorem flushStep_goes {a : FlushAct E} (taken : t.flushStep x a = some t') :
    Goes t x (.flush a : Act D PackId E) t' := by
  obtain ⟨f, stage⟩ := x
  cases a with
  | plan a =>
    cases stage with
    | planning =>
      obtain ⟨⟨s, v⟩, planned, taken⟩ := Option.bind_eq_some_iff.mp taken
      obtain ⟨f', next, taken⟩ := Option.map_eq_some_iff.mp taken
      cases taken
      exact .on rfl (flushStep_blocks planned next)
    | _ => cases taken
  | append =>
    cases stage with
    | planning =>
      obtain ⟨-, taken⟩ := Option.ite_none_right_eq_some.mp taken
      split at taken
      · cases taken
        exact .on rfl rfl
      · cases taken
        exact .on rfl rfl
    | _ => cases taken
  | serialize | readEtag | storeEtag | fail =>
    cases stage <;> first | cases taken; exact .on rfl rfl | cases taken
  | put reply etag =>
    cases stage with
    | putting bytes expected attempts =>
      cases attempts with
      | zero => cases taken
      | succ attempts =>
        cases taken
        exact .on rfl rfl
    | _ => cases taken
  | evict =>
    cases stage with
    | evicting =>
      cases taken
      exact .evicted rfl rfl rfl
    | _ => cases taken
  | recover lost =>
    cases stage with
    | failed =>
      cases taken
      refine .recovered fun p mem => ?_
      exact if_pos (List.mem_map_of_mem mem)
    | _ => cases taken

theorem step_goes (running : t.flush = some x) (careful : Careful t a) (taken : step t a = some t') :
    Goes t x a t' := by
  cases a with
  | flushBegin g snap =>
    obtain ⟨⟨idle, -⟩, -⟩ := Option.ite_none_right_eq_some.mp taken
    rw [running] at idle
    cases idle
  | flush a =>
    obtain ⟨y, here, taken⟩ := Option.bind_eq_some_iff.mp taken
    cases running.symm.trans here
    exact flushStep_goes taken
  | attach | publishTag | compactList =>
    obtain ⟨-, taken⟩ := Option.ite_none_right_eq_some.mp taken
    cases taken
    exact .on running rfl
  | fence j reply etag =>
    obtain ⟨call, here, rfl⟩ := Option.map_eq_some_iff.mp taken
    have kept := (attachStep_keeps here careful).frame
    exact .on ((Prod.mk.inj (Prod.mk.inj kept).2).1.trans running) rfl
  | publish reply etag =>
    obtain ⟨call, here, rfl⟩ := Option.map_eq_some_iff.mp taken
    cases call <;> exact .on running rfl
  | compact j a =>
    obtain ⟨job, at_job, taken⟩ := Option.bind_eq_some_iff.mp taken
    obtain ⟨r, moved, taken⟩ := Option.map_eq_some_iff.mp taken
    cases taken
    exact .on running rfl
  | guest | foreign =>
    cases taken
    exact .on running rfl

/-- In every run whose steps are careful, a block of the flush that becomes absent is resolved
    by the manifest object to what the flush read, and a flush that ends after an error leaves
    all its blocks dirty. -/
theorem flush_keeps_packs_over_reattach {s : State C E} (start : Start s)
    (run : Reach step Careful s t) (careful : Careful t a) (taken : step t a = some t')
    (running : t.flush = some x) :
    (∀ p ∈ x.plan.snap.blocks, t'.blocks p.1 = .notPresent → ∃ o, t'.object = some o ∧
      resolveBlock x.plan.geometry t'.store o.content.manifest p.1 = some p.2) ∧
    (x.stage = .failed → t'.flush = none → ∀ p ∈ x.plan.snap.blocks, t'.blocks p.1 = .dirty) := by
  have inv : Inv t := run.invariant (I := Inv) start.inv fun _ _ _ => step_inv
  have inv' := step_inv inv careful taken
  cases step_goes running careful taken with
  | on flush blocks =>
      have states := (inv'.cycle _ flush).blocks
      rw [blocks] at states
      refine ⟨fun p mem gone => ?_, fun _ ended => ?_⟩
      · have state := states p mem
        simp [gone] at state
      · rw [flush] at ended
        cases ended
  | evicted stage store object =>
      have known := (inv.cycle x running).stage
      rw [stage] at known
      obtain ⟨-, o, here, resolves⟩ := known
      refine ⟨fun p mem _ => ⟨o, object.trans here, ?_⟩, fun failed => ?_⟩
      · rw [store]
        exact resolves p mem
      · rw [stage] at failed
        cases failed
  | recovered blocks =>
      have dirty : ∀ p ∈ x.plan.snap.blocks, t'.blocks p.1 = .dirty := by
        intro p mem
        rw [blocks p mem]
        exact if_neg fun ⟨syncing, lost⟩ => careful x running p mem syncing lost
      refine ⟨fun p mem gone => ?_, fun _ _ => dirty⟩
      rw [dirty p mem] at gone
      cases gone

/-- An export that has its manifest object read. -/
def opened : State (.plain 16) Nat where
  store := .empty
  object := some ⟨⟨.new, .none⟩, some 0⟩
  memory := ⟨.new, .none⟩
  etag := some 0
  held := .none
  flush := none
  publish := none
  attach _ := none
  compacting _ := none
  blocks _ := .dirty

theorem opened_start : Start opened := ⟨rfl, fun _ => rfl⟩

/-- A flush of block 0 up to its append. -/
def flushAppended : List (Act (BlockData 16) (List (PackBlock (BlockData 16))) Nat) :=
  [.flushBegin .gib4k (LiveCounts.oneBlock 0 1), .flush (.plan .read),
    .flush (.plan (.compute 3)), .flush (.plan (.upload 0)), .flush .append]

/-- The flush from there to its eviction. -/
def flushStored : List (Act (BlockData 16) (List (PackBlock (BlockData 16))) Nat) :=
  [.flush .serialize, .flush .readEtag, .flush (.put .ok (some 2)), .flush .storeEtag]

/-- An attach with a newer token up to its PUT. -/
def seizing : List (Act (BlockData 16) (List (PackBlock (BlockData 16))) Nat) :=
  [.attach 0 ⟨1, 0⟩, .fence 0 .ok none, .fence 0 .ok none, .fence 0 .ok none]

/-- The blocks of the flush that a step makes absent, and whether the object has them. -/
def absentBlocks (t t' : State (.plain 16) Nat) : List Bool :=
  match t.flush with
  | none => []
  | some x => (x.plan.snap.blocks.filter fun p => t'.blocks p.1 = .notPresent).map fun p =>
      (t'.object.bind fun o =>
        resolveBlock x.plan.geometry t'.store o.content.manifest p.1) = some p.2

private theorem append_undone :
    (exec step opened (seizing ++ [.foreign ⟨.new, .none⟩ (some 1)] ++ flushAppended ++
      List.replicate 4 (.fence 0 .ok none) ++ flushStored)).bind (fun t =>
        (step t (.flush .evict)).map fun t' => absentBlocks t t') = some [false] := by
  decide +kernel

/-- Another node moves the manifest while an attach is about to seize it. The attach reloads the
    manifest after the flush has appended its pack and before it serializes: the flush stores a
    manifest without its pack, under the ETag that was reloaded with it, and evicts. -/
theorem reload_undoes_append : ∃ (t t' : State (.plain 16) Nat) (x : Cycle (.plain 16) Nat),
    Reach step anyStep opened t ∧ t.flush = some x ∧ step t (.flush .evict) = some t' ∧
    ∃ p ∈ x.plan.snap.blocks, t'.blocks p.1 = .notPresent ∧ ¬∃ o, t'.object = some o ∧
      resolveBlock x.plan.geometry t'.store o.content.manifest p.1 = some p.2 := by
  obtain ⟨t, run, evicted⟩ := Option.bind_eq_some_iff.mp append_undone
  obtain ⟨t', taken, absent⟩ := Option.map_eq_some_iff.mp evicted
  cases running : t.flush with
  | none => simp [absentBlocks, running] at absent
  | some x =>
      simp only [absentBlocks, running] at absent
      obtain ⟨p, found, lost⟩ := List.map_eq_singleton_iff.mp absent
      have mem : p ∈ x.plan.snap.blocks.filter fun p => t'.blocks p.1 = .notPresent := by
        simp [found]
      obtain ⟨mem, gone⟩ := List.mem_filter.mp mem
      refine ⟨t, t', x, reach_exec run, running, taken, p, mem, of_decide_eq_true gone, ?_⟩
      rintro ⟨o, here, resolves⟩
      simp [here, resolves] at lost

/-- A test for careful steps: no manifest takes the place of another while the flush goes by it,
    and the flush finds no pack listed and some pack staged. -/
def calm (t : State (.plain 16) Nat) :
    Act (BlockData 16) (List (PackBlock (BlockData 16))) Nat → Bool
  | .flush (.plan (.compute _)) => t.flush.all fun x => x.plan.reading.all fun r =>
      (t.memory.manifest.chunkPackIds r.1).isEmpty
  | .flush .append => t.flush.all fun x => !x.plan.staged.isEmpty
  | .flush (.recover lost) => lost.isEmpty
  | .fence j _ _ =>
      match t.attach j, t.flush with
      | some (.seizePut _ _ _ _), some ⟨_, .appended⟩ => true
      | some (.seizePut _ _ _ _), _ | some (.reloading _ _ _), _ => false
      | _, _ => true
  | .foreign _ _ => false
  | _ => true

theorem careful_of_calm {t : State (.plain 16) Nat}
    {a : Act (BlockData 16) (List (PackBlock (BlockData 16))) Nat} (h : calm t a = true) :
    Careful t a := by
  cases a with
  | flush a =>
    cases a with
    | plan a =>
      cases a with
      | compute level =>
        intro x c m running reading _ listed
        simp only [calm, running, reading, Option.all_some, List.isEmpty_iff] at h
        simp [h] at listed
      | _ => trivial
    | append =>
      intro x running nothing
      simp [calm, running, nothing] at h
    | recover lost =>
      intro x _ p _ _
      simp only [calm, List.isEmpty_iff] at h
      simp [h]
    | _ => trivial
  | fence j reply etag =>
    intro call here
    simp only [calm, here] at h
    cases call with
    | seizePut tries my bytes expected =>
      intro _ x o running uses
      obtain ⟨f, stage⟩ := x
      cases stage with
      | stored | evicting => simp [running] at h
      | _ => cases uses
    | reloading tries my found => simp at h
    | _ => trivial
  | foreign content etag => cases h
  | _ => trivial

private theorem seized_meanwhile :
    (execWhile step (fun t a => calm t a) opened (flushAppended ++ seizing ++
      List.replicate 2 (.fence 0 .ok (some 1)) ++ flushStored)).bind (fun t =>
        (step t (.flush .evict)).map fun t' => absentBlocks t t') = some [true] := by
  decide +kernel

/-- An attach that seizes the volume between the append and the PUT stores the flush's pack with
    its token. -/
theorem flush_keeps_packs_over_seize : ∃ (t t' : State (.plain 16) Nat) (x : Cycle (.plain 16) Nat),
    Reach step Careful opened t ∧ t.flush = some x ∧ step t (.flush .evict) = some t' ∧ absentBlocks t t' = [true] ∧
    ∀ p ∈ x.plan.snap.blocks, t'.blocks p.1 = .notPresent → ∃ o, t'.object = some o ∧
      resolveBlock x.plan.geometry t'.store o.content.manifest p.1 = some p.2 := by
  obtain ⟨t, run, evicted⟩ := Option.bind_eq_some_iff.mp seized_meanwhile
  obtain ⟨t', taken, absent⟩ := Option.map_eq_some_iff.mp evicted
  have careful := (reach_execWhile run).weaken fun _ _ => careful_of_calm
  cases running : t.flush with
  | none => simp [absentBlocks, running] at absent
  | some x =>
      refine ⟨t, t', x, careful, running, taken, absent, ?_⟩
      have last : Careful t (.flush .evict) := trivial
      exact (flush_keeps_packs_over_reattach opened_start careful last taken running).1

end GlideFS.Router.Reattach
