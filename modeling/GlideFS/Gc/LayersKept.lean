import GlideFS.Gc.Layers

/-! # Layers of blessed images stay complete

A layer that a stored descriptor lists, or that a bless at work has come to, must not
be deleted. A collection that has listed the descriptors before a descriptor was put
does not see it; what keeps it from deleting the layer is the age of the mark. The
blesses that began before the mark are over when its grace period is, so the marks
to fear are those from before the bless, and those whose grace period ends while
the collection is at work.
-/

namespace GlideFS.Gc.Layers

open GlideFS.Lib GlideFS.Block.Keys

variable {encode : List Char → List Char} {limit r b : ℕ} {s t : State} {d : Digest}
  {run run' : Run} {bless : Bless}

/-- A descriptor put by a bless. -/
def State.Lists (s : State) (n : List Char) (layers : Finset Digest) : Prop :=
  n ∈ s.blessed ∧ s.images.lookup n = some layers

/-- A descriptor of a bless lists the layer, or a bless that can still make a call has come to it. -/
def State.Used (limit : ℕ) (s : State) (d : Digest) : Prop :=
  (∃ n layers, s.Lists n layers ∧ d ∈ layers) ∨
    ∃ b bless, s.blesses b = some bless ∧ s.now < bless.began + limit ∧ d ∈ bless.reached

/-- What a collection knows once it has listed the descriptors: it reads or has read each of them,
    or it was put since. -/
structure Listed (limit now : ℕ) (lists : List Char → Finset Digest → Prop) (run : Run) : Prop where
  time : run.listedAt ≤ now
  missed : ∀ d began, (d, began) ∈ run.missed → run.listedAt < began + limit
  seen : ∀ n layers, lists n layers →
    n ∈ run.stage.unread ∨ ∀ d ∈ layers, d ∈ run.stage.live ∨ ∃ began, (d, began) ∈ run.missed

structure RunInv (limit now : ℕ) (lists : List Char → Finset Digest → Prop) (run : Run) : Prop where
  positive : 0 < run.grace
  grace : limit ≤ run.grace
  listed : run.stage.listed → Listed limit now lists run

/-- What a bless that can still make a call rests on. -/
structure Rests (s : State) (bless : Bless) : Prop where
  done : ∀ d ∈ bless.done, s.Whole d
  upload : ∀ d up, bless.upload = some (d, up) → ∀ p ∈ up, (d, p) ∈ s.packs

structure Inv (encode : List Char → List Char) (limit : ℕ) (s : State) : Prop where
  stored : ∀ n layers, s.Lists n layers → ∀ d ∈ layers, s.Whole d
  blesses : ∀ b bless, s.blesses b = some bless → s.now < bless.began + limit → Rests s bless
  doomed : ∀ d, s.Doomed d → ¬s.Used limit d
  runs : ∀ r run, s.runs r = some run → RunInv limit s.now s.Lists run
  found : ∀ n ∈ s.blessed, n ≠ [] ∧ objectPath encode n = n

theorem Inv.free (h : Inv encode limit s) (there : s.blesses b = some bless)
    (inTime : s.now < bless.began + limit) (reached : d ∈ bless.reached) : ¬s.Doomed d :=
  fun doomed => h.doomed d doomed (.inr ⟨b, bless, there, inTime, reached⟩)

/-! ## Changes of a state -/

/-- A collection goes on without touching an object. -/
theorem Inv.setRun (h : Inv encode limit s) {run : Option Run}
    (kept : ∀ run', run = some run' → RunInv limit s.now s.Lists run' ∧
      ∀ d, run'.stage.target = some d → ¬s.Used limit d) : Inv encode limit (s.setRun r run) := by
  refine { h with blesses := ?_, doomed := ?_, runs := ?_ }
  · intro b bless there inTime
    exact { h.blesses b bless there inTime with }
  · rintro d ⟨r', run', there, target⟩
    rcases update_eq_some there with ⟨-, new⟩ | ⟨-, old⟩
    · exact (kept run' new).2 d target
    · exact h.doomed d ⟨r', run', old, target⟩
  · intro r' run' there
    rcases update_eq_some there with ⟨-, new⟩ | ⟨-, old⟩
    · exact (kept run' new).1
    · exact h.runs r' run' old

/-- Objects come and go, and no layer that is used loses any. -/
theorem Inv.objects (h : Inv encode limit s) {manifests : Manifests}
    {packs : Finset (Digest × PackId)}
    (kept : ∀ d p, s.Used limit d → (d, p) ∈ s.packs → (d, p) ∈ packs)
    (whole : ∀ d, s.Used limit d → s.Whole d →
      State.Whole { s with manifests := manifests, packs := packs } d) :
    Inv encode limit { s with manifests := manifests, packs := packs } := by
  refine { h with stored := ?_, blesses := ?_ }
  · intro n layers there d member
    exact whole d (.inl ⟨n, layers, there, member⟩) (h.stored n layers there d member)
  · intro b bless there inTime
    have before := h.blesses b bless there inTime
    have used {d : Digest} (reached : d ∈ bless.reached) : s.Used limit d :=
      .inr ⟨b, bless, there, inTime, reached⟩
    constructor
    · intro d done
      exact whole d (used (List.mem_append_left _ done)) (before.done d done)
    · intro d up uploading p mem
      exact kept d p (used (by simp [Bless.reached, uploading])) (before.upload d up uploading p mem)

/-- An object of a layer that is not used goes. -/
theorem Inv.erase (h : Inv encode limit s) (unused : ¬s.Used limit d) (o : Object) :
    Inv encode limit (s.erase d o) := by
  have other {d' : Digest} (used : s.Used limit d') : d' ≠ d := by
    rintro rfl
    exact unused used
  cases o with
  | manifest =>
    refine h.objects (fun d' p used there => there) ?_
    rintro d' used ⟨listed, stored, all⟩
    exact ⟨listed, (Finmap.lookup_erase_ne (other used)).trans stored, all⟩
  | pack q =>
    have kept (d' : Digest) (p : PackId) (used : s.Used limit d') (there : (d', p) ∈ s.packs) :
        (d', p) ∈ s.packs.erase (d, q) :=
      Finset.mem_erase.mpr ⟨fun same => other used (congrArg Prod.fst same), there⟩
    refine h.objects kept ?_
    rintro d' used ⟨listed, stored, all⟩
    exact ⟨listed, stored, fun p mem => kept d' p used (all p mem)⟩

theorem Inv.putPack (h : Inv encode limit s) (p : PackId) :
    Inv encode limit { s with packs := insert (d, p) s.packs } := by
  refine h.objects (fun d' q used there => Finset.mem_insert_of_mem there) ?_
  rintro d' used ⟨listed, stored, all⟩
  exact ⟨listed, stored, fun q mem => Finset.mem_insert_of_mem (all q mem)⟩

theorem whole_putManifest {up : Finset PackId} (there : ∀ p ∈ up, (d, p) ∈ s.packs) :
    State.Whole { s with manifests := s.manifests.insert d up } d :=
  ⟨up, Finmap.lookup_insert _, there⟩

theorem Inv.putManifest (h : Inv encode limit s) {up : Finset PackId}
    (there : ∀ p ∈ up, (d, p) ∈ s.packs) :
    Inv encode limit { s with manifests := s.manifests.insert d up } := by
  refine h.objects (fun d' q used there => there) ?_
  rintro d' used ⟨listed, stored, all⟩
  by_cases same : d' = d
  · rw [same]
    exact whole_putManifest there
  · exact ⟨listed, (Finmap.lookup_insert_of_ne _ same).trans stored, all⟩

/-- A bless goes on without touching an object. -/
theorem Inv.setBless (h : Inv encode limit s) {bless : Option Bless}
    (kept : ∀ bless', bless = some bless' → s.now < bless'.began + limit →
      Rests s bless' ∧ ∀ d ∈ bless'.reached, ¬s.Doomed d) :
    Inv encode limit (s.setBless b bless) := by
  refine { h with blesses := ?_, doomed := ?_ }
  · intro b' bless' there inTime
    have before : Rests s bless' := by
      rcases update_eq_some there with ⟨-, new⟩ | ⟨-, old⟩
      · exact (kept bless' new inTime).1
      · exact h.blesses b' bless' old inTime
    exact { before with }
  · rintro d doomed (listed | ⟨b', bless', there, inTime, reached⟩)
    · exact h.doomed d doomed (.inl listed)
    · rcases update_eq_some there with ⟨-, new⟩ | ⟨-, old⟩
      · exact (kept bless' new inTime).2 d reached doomed
      · exact h.free old inTime reached doomed

/-- The descriptor that is put, or one that was there. -/
theorem lists_putDescriptor {n : List Char} {layers : Finset Digest}
    (h : (s.putDescriptor encode bless).Lists n layers) :
    layers = bless.done.toFinset ∨ s.Lists n layers := by
  obtain ⟨there, stored⟩ := h
  by_cases same : n = objectPath encode bless.name
  · rw [same] at stored
    have new := (Finmap.lookup_insert s.images).symm.trans stored
    cases new
    exact .inl rfl
  · have stored := (Finmap.lookup_insert_of_ne s.images same).symm.trans stored
    exact .inr ⟨(Finset.mem_insert.mp there).resolve_left same, stored⟩

theorem Inv.putDescriptor (h : Inv encode limit s) (there : s.blesses b = some bless)
    (inTime : s.now < bless.began + limit) (found : Found encode bless.name) :
    Inv encode limit (s.putDescriptor encode bless) := by
  constructor
  · intro n layers listed d member
    rcases lists_putDescriptor listed with rfl | before
    · exact (h.blesses b bless there inTime).done d (List.mem_toFinset.mp member)
    · exact h.stored n layers before d member
  · intro b' bless' there inTime
    exact { h.blesses b' bless' there inTime with }
  · rintro d ⟨r, run, at_r, target⟩ used
    obtain ⟨run', before, rfl⟩ := Option.map_eq_some_iff.mp at_r
    have doomed : s.Doomed d := ⟨r, run', before, target⟩
    rcases used with ⟨n, layers, listed, member⟩ | working
    · rcases lists_putDescriptor listed with rfl | before
      · have done := List.mem_append_left (bless.upload.map Prod.fst).toList (List.mem_toFinset.mp member)
        exact h.free there inTime done doomed
      · exact h.doomed d doomed (.inl ⟨n, layers, before, member⟩)
    · exact h.doomed d doomed (.inr working)
  · intro r run at_r
    obtain ⟨run', before, rfl⟩ := Option.map_eq_some_iff.mp at_r
    have before := h.runs r run' before
    refine ⟨before.positive, before.grace, fun listed => ?_⟩
    have known := before.listed listed
    refine ⟨known.time, fun d began missed => ?_, fun n layers listed => ?_⟩
    · rcases List.mem_append.mp missed with new | old
      · obtain ⟨_, -, same⟩ := List.mem_map.mp new
        cases same
        exact lt_of_le_of_lt known.time inTime
      · exact known.missed d began old
    · rcases lists_putDescriptor listed with rfl | before
      · refine .inr fun d member => .inr ⟨bless.began, List.mem_append_left _ ?_⟩
        exact List.mem_map.mpr ⟨d, List.mem_toFinset.mp member, rfl⟩
      · refine (known.seen n layers before).imp_right fun seen d member => ?_
        exact (seen d member).imp_right fun ⟨began, old⟩ => ⟨began, List.mem_append_right _ old⟩
  · intro n there
    rcases Finset.mem_insert.mp there with rfl | before
    · exact found
    · exact h.found n before

theorem Inv.setFile (h : Inv encode limit s) (file : DeadLayers) :
    Inv encode limit { s with file := file } :=
  { h with blesses := fun b bless there inTime => { h.blesses b bless there inTime with } }

/-! ## What a collection may delete -/

/-- A layer that a collection deletes on a mark that is unused is not used. -/
theorem Inv.not_used (h : Inv encode limit s) (there : s.runs r = some run)
    (listed : run.stage.listed) (unread : run.stage.unread = ∅) (dead : d ∉ run.stage.live) {stamp : ℕ}
    (unused : Unused s run d stamp) : ¬s.Used limit d := by
  have kept := h.runs r run there
  have known := kept.listed listed
  have over_before := unused.over_at_listing
  have grace := kept.grace
  rintro (⟨n, layers, stored, member⟩ | ⟨b, bless, there, inTime, reached⟩)
  · rcases known.seen n layers stored with waiting | seen
    · simp [unread] at waiting
    · rcases seen d member with live | ⟨began, missed⟩
      · exact dead live
      · -- the bless would have begun before the mark and put its descriptor a grace period later
        have early := unused.put began missed
        have late := known.missed d began missed
        omega
  · have early := unused.at_work b bless there reached
    have time := known.time
    omega

/-! ## Steps -/

theorem Inv.blessStep (h : Inv encode limit s) {call : BlessCall}
    (there : s.blesses b = some bless) (inTime : s.now < bless.began + limit)
    (careful : Careful encode s (.bless b call))
    (taken : Layers.blessStep encode s b bless call = some t) : Inv encode limit t := by
  have kept := h.blesses b bless there inTime
  have free {d : Digest} (reached : d ∈ bless.reached) := h.free there inTime reached
  unfold Layers.blessStep at taken
  split at taken
  · -- `head_manifest`
    rename_i d rest idle todo
    obtain ⟨undoomed, whole⟩ := careful bless d rest there todo
    have reached (d' : Digest) (mem : d' ∈ bless.done ++ [d]) : ¬s.Doomed d' := by
      rcases List.mem_append.mp mem with before | new
      · exact free (List.mem_append_left _ before)
      · rw [List.mem_singleton.mp new]
        exact undoomed
    by_cases stored : d ∈ s.manifests
    · -- the layer is there and is not uploaded again
      rw [if_pos stored] at taken
      cases taken
      refine h.setBless fun bless' same _ => ?_
      cases same
      refine ⟨⟨fun d' done => ?_, by simp [idle]⟩, by simpa [Bless.reached, idle] using reached⟩
      rcases List.mem_append.mp done with before | new
      · exact kept.done d' before
      · rw [List.mem_singleton.mp new]
        exact whole stored
    · rw [if_neg stored] at taken
      cases taken
      refine h.setBless fun bless' same _ => ?_
      cases same
      refine ⟨⟨kept.done, fun d' up uploading p mem => ?_⟩, reached⟩
      cases uploading
      exact absurd mem (Finset.notMem_empty p)
  · -- a pack is put
    rename_i p d up uploading
    cases taken
    have stored := h.putPack (d := d) p
    refine stored.setBless fun bless' same _ => ?_
    cases same
    have before := stored.blesses b bless there inTime
    refine ⟨⟨before.done, fun d' up' now q mem => ?_⟩, fun d' reached => ?_⟩
    · cases now
      rcases Finset.mem_insert.mp mem with new | old
      · rw [new]
        exact Finset.mem_insert_self _ _
      · exact before.upload d up uploading q old
    · exact free (by simpa [Bless.reached, uploading] using reached)
  · -- the manifest is put
    rename_i d up uploading
    cases taken
    have all := kept.upload d up uploading
    refine (h.putManifest all).setBless fun bless' same _ => ?_
    cases same
    have before := (h.putManifest all).blesses b bless there inTime
    refine ⟨⟨fun d' done => ?_, nofun⟩, fun d' reached => ?_⟩
    · rcases List.mem_append.mp done with old | new
      · exact before.done d' old
      · rw [List.mem_singleton.mp new]
        exact whole_putManifest all
    · exact free (by simpa [Bless.reached, uploading] using reached)
  · cases taken
    exact (h.putDescriptor there inTime (careful bless there)).setBless nofun
  · cases taken

/-- The collection goes on after the descriptors have been read, with what it knows. -/
structure Run.GoesOn (run run' : Run) : Prop where
  grace : run'.grace = run.grace
  listedAt : run'.listedAt = run.listedAt
  missed : run'.missed = run.missed
  listed : run.stage.listed
  unread : run'.stage.unread = run.stage.unread
  live : run'.stage.live = run.stage.live

theorem Inv.goesOn (h : Inv encode limit s) (there : s.runs r = some run) (on : run.GoesOn run')
    (target : ∀ d, run'.stage.target = some d → run.stage.target = some d ∨ ¬s.Used limit d) :
    Inv encode limit (s.setRun r (some run')) := by
  refine h.setRun fun run'' same => ?_
  cases same
  have kept := h.runs r run there
  have known := kept.listed on.listed
  refine ⟨⟨on.grace ▸ kept.positive, on.grace ▸ kept.grace, fun _ => ⟨?_, ?_, ?_⟩⟩, fun d aimed => ?_⟩
  · rw [on.listedAt]
    exact known.time
  · rw [on.listedAt, on.missed]
    exact known.missed
  · rw [on.unread, on.live, on.missed]
    exact known.seen
  · rcases target d aimed with before | unused
    · exact h.doomed d ⟨r, run, there, before⟩
    · exact unused

theorem Run.take_goesOn {now : ℕ} {todo live : Finset Digest} (stage : run.stage = .reconcile todo live) :
    run.GoesOn (run.take now todo live d) := by
  unfold Run.take
  split <;> constructor <;> simp [stage, Stage.listed, Stage.unread, Stage.live]

/-- A layer the loop takes is left alone, or not used. -/
theorem Inv.take (h : Inv encode limit s) {todo live : Finset Digest} (there : s.runs r = some run)
    (stage : run.stage = .reconcile todo live) (careful : Careful encode s (.gc r (.take d))) :
    Inv encode limit (s.setRun r (some (run.take s.now todo live d))) := by
  refine h.goesOn there (Run.take_goesOn stage) fun d' target => ?_
  cases verdict : run.verdict s.now live d with
  | doom =>
    rw [Run.take, verdict] at target
    cases target
    -- the mark that makes the layer eligible is one the condition speaks about
    have eligible : d ∉ live ∧ isLayerEligible run.state run.grace s.now d = true := by
      unfold Run.verdict at verdict
      split at verdict
      · split at verdict <;> cases verdict
      · split at verdict
        · exact ⟨‹_›, ‹_›⟩
        · split at verdict <;> cases verdict
    obtain ⟨stamp, marked, -⟩ := eligible_stamp (h.runs r run there).positive eligible.2
    have unused := careful run there (by rw [stage]; exact verdict) stamp marked
    exact .inr (h.not_used there (by simp [stage, Stage.listed]) (by simp [stage, Stage.unread])
      (by simpa [stage, Stage.live] using eligible.1) unused)
  | revive | mark | skip =>
    rw [Run.take, verdict] at target
    cases target

theorem Inv.gcStep (h : Inv encode limit s) {call : GcCall} (there : s.runs r = some run)
    (careful : Careful encode s (.gc r call))
    (taken : Layers.gcStep encode s r run call = some t) : Inv encode limit t := by
  have kept := h.runs r run there
  have ends : Inv encode limit (s.setRun r none) := h.setRun nofun
  unfold Layers.gcStep at taken
  split at taken
  · -- the descriptors are listed
    cases taken
    refine h.setRun fun run' same => ?_
    cases same
    refine ⟨⟨kept.positive, kept.grace, fun _ => ⟨le_refl _, nofun,
      fun n layers stored => .inl (Finset.mem_filter.mpr ⟨?_, (h.found n stored.1).1⟩)⟩⟩, nofun⟩
    exact Finmap.mem_keys.mpr (Finmap.mem_of_lookup_eq_some stored.2)
  · -- a descriptor is read
    rename_i n todo live stage
    obtain ⟨member, taken⟩ := Option.ite_none_right_eq_some.mp taken
    cases taken
    have known := kept.listed (by simp [stage, Stage.listed])
    refine h.setRun fun run' same => ?_
    cases same
    refine ⟨⟨kept.positive, kept.grace, fun _ => ⟨known.time, known.missed,
      fun n' layers stored => ?_⟩⟩, nofun⟩
    by_cases same : n' = n
    · subst same
      refine .inr fun d member => .inl (Finset.mem_union_right _ ?_)
      rw [(h.found n' stored.1).2, stored.2]
      exact member
    · refine (known.seen n' layers stored).imp (fun waiting => ?_) fun seen d member => ?_
      · rw [stage] at waiting
        exact Finset.mem_erase.mpr ⟨same, waiting⟩
      · refine (seen d member).imp_left fun live => ?_
        rw [stage] at live
        exact Finset.mem_union_left _ live
  · obtain ⟨-, taken⟩ := Option.ite_none_right_eq_some.mp taken
    cases taken
    exact ends
  · -- the layers are listed
    rename_i todo live stage
    obtain ⟨empty, taken⟩ := Option.ite_none_right_eq_some.mp taken
    cases taken
    refine h.goesOn there ?_ nofun
    constructor <;> simp [stage, Stage.listed, Stage.unread, Stage.live, empty]
  · rename_i stage
    obtain ⟨-, taken⟩ := Option.ite_none_right_eq_some.mp taken
    cases taken
    exact h.take there stage careful
  · -- the objects of a layer are listed
    rename_i stage
    cases taken
    refine h.goesOn there ?_ fun d' target => .inl (by rw [stage]; exact target)
    constructor <;> simp [stage, Stage.listed, Stage.unread, Stage.live]
  · -- an object is deleted
    rename_i o gone ok d objects todo live stage
    obtain ⟨-, taken⟩ := Option.ite_none_right_eq_some.mp taken
    cases taken
    have unused := h.doomed d ⟨r, run, there, by rw [stage]; rfl⟩
    have went : Inv encode limit (s.setRun r
        (if ok then some { run with stage := .deleting d (objects.erase o) todo live } else none)) := by
      cases ok with
      | false => exact ends
      | true =>
        refine h.goesOn there ?_ fun d' target => .inl (by rw [stage]; exact target)
        constructor <;> simp [stage, Stage.listed, Stage.unread, Stage.live]
    cases gone with
    | false => exact went
    | true =>
      have gone := went.erase (d := d) unused o
      cases o <;> exact gone
  · rename_i stage
    obtain ⟨-, taken⟩ := Option.ite_none_right_eq_some.mp taken
    cases taken
    refine h.goesOn there ?_ nofun
    constructor <;> simp [stage, Stage.listed, Stage.unread, Stage.live]
  · obtain ⟨-, taken⟩ := Option.ite_none_right_eq_some.mp taken
    cases taken
    exact ends.setFile _
  · cases taken

theorem Inv.tick (h : Inv encode limit s) (n : ℕ) : Inv encode limit { s with now := s.now + n } := by
  have sooner {bless : Bless} (inTime : s.now + n < bless.began + limit) :
      s.now < bless.began + limit := lt_of_le_of_lt (Nat.le_add_right _ _) inTime
  refine { h with blesses := ?_, doomed := ?_, runs := ?_ }
  · intro b bless there inTime
    exact { h.blesses b bless there (sooner inTime) with }
  · rintro d doomed (listed | ⟨b, bless, there, inTime, reached⟩)
    · exact h.doomed d doomed (.inl listed)
    · exact h.free there (sooner inTime) reached doomed
  · intro r run there
    have before := h.runs r run there
    refine ⟨before.positive, before.grace, fun listed => ?_⟩
    have known := before.listed listed
    exact { known with time := known.time.trans (Nat.le_add_right _ _) }

theorem Inv.step (h : Inv encode limit s) {a : Act} (careful : Careful encode s a)
    (taken : Layers.step encode limit s a = some t) : Inv encode limit t := by
  cases a with
  | tick n =>
    cases taken
    exact h.tick n
  | setFile file =>
    cases taken
    exact h.setFile file
  | blessStart b name layers =>
    obtain ⟨-, taken⟩ := Option.ite_none_right_eq_some.mp taken
    cases taken
    refine h.setBless fun bless same _ => ?_
    cases same
    exact ⟨⟨nofun, nofun⟩, nofun⟩
  | bless b call =>
    simp only [Layers.step] at taken
    split at taken
    · rename_i bless there
      obtain ⟨inTime, taken⟩ := Option.ite_none_right_eq_some.mp taken
      exact h.blessStep there inTime careful taken
    · cases taken
  | blessStop b =>
    cases taken
    exact h.setBless nofun
  | gcStart r grace dryRun budget =>
    obtain ⟨⟨-, positive, long⟩, taken⟩ := Option.ite_none_right_eq_some.mp taken
    cases taken
    refine h.setRun fun run same => ?_
    cases same
    exact ⟨⟨positive, long, nofun⟩, nofun⟩
  | gc r call =>
    simp only [Layers.step] at taken
    split at taken
    · rename_i run there
      exact h.gcStep there careful taken
    · cases taken
  | gcAbort r =>
    cases taken
    exact h.setRun nofun

theorem inv_idle {manifests packs images file now} :
    Inv encode limit (idle manifests packs images file now) where
  stored n _ none := absurd none.1 (Finset.notMem_empty n)
  blesses := nofun
  doomed := by rintro d ⟨r, run, none, -⟩; cases none
  runs := nofun
  found n none := absurd none (Finset.notMem_empty n)

/-- In every run in which collections delete only unused layers and find every descriptor, and
    blesses keep away from layers that are being deleted or half deleted, the layers of blessed
    images are complete. -/
theorem blessed_layers_stay_complete {manifests packs images file now} {t : State}
    (run : Reach (step encode limit) (Careful encode) (idle manifests packs images file now) t) :
    t.Complete := by
  have inv := run.invariant (I := Inv encode limit) inv_idle
    fun _ _ _ h careful taken => h.step careful taken
  intro n there layers stored d member
  exact inv.stored n layers ⟨there, stored⟩ d member

/-! ## A layer that is found and deleted -/

/-- Layer 0 with its pack, which no descriptor lists and which was marked at time 0. -/
def orphaned : State := idle (Finmap.singleton 0 {0}) {(0, 0)} ∅ (fun _ => some (some 0)) 10

/-- A bless finds a layer that is marked, and a collection that has not seen its descriptor
    deletes the layer's pack. -/
theorem reused_layer_deleted :
    ∃ t, Reach (step id 5) anyStep orphaned t ∧ ¬t.Complete := by
  have ends : (exec (step id 5) orphaned [.blessStart 0 ['a'] [0], .bless 0 .head,
      .gcStart 0 5 false 1, .gc 0 .listImages, .gc 0 .listLayers, .gc 0 (.take 0), .gc 0 .listObjects,
      .gc 0 (.delete (.pack 0) true true), .bless 0 .putDescriptor]).any (fun t =>
        ['a'] ∈ t.blessed ∧ t.images.lookup ['a'] = some {0} ∧ t.manifests.lookup 0 = some {0} ∧
          t.packs = ∅) = true := by
    decide +kernel
  obtain ⟨t, run, seen⟩ := exists_of_any ends
  obtain ⟨blessed, image, manifest, packs⟩ := of_decide_eq_true seen
  refine ⟨t, reach_exec run, fun complete => ?_⟩
  obtain ⟨listed, stored, all⟩ := complete ['a'] blessed {0} image 0 (by simp)
  rw [manifest] at stored
  cases stored
  have pack := all 0 (by simp)
  simp [packs] at pack

/-- A collection marks the layer of a bless at work; the next one finds its descriptor. -/
theorem marked_layer_kept :
    ∃ t, Reach (step id 5) (Careful id) (idle ∅ ∅ ∅ (fun _ => none) 10) t ∧
      t.file 0 = some (some 10) ∧ t.Whole 0 := by
  obtain ⟨t, run, blessed, image, mark⟩ : ∃ t,
      Steps (step id 5) (Careful id) (idle ∅ ∅ ∅ (fun _ => none) 10)
        [.blessStart 0 ['a'] [0], .bless 0 .head, .bless 0 (.putPack 0), .gcStart 0 5 false 1,
          .gc 0 .listImages, .gc 0 .listLayers, .gc 0 (.take 0), .gc 0 .finish, .tick 3,
          .bless 0 .putManifest, .bless 0 .putDescriptor, .tick 9, .gcStart 0 5 false 1,
          .gc 0 .listImages, .gc 0 (.readImage ['a'] true), .gc 0 .listLayers, .gc 0 (.take 0)] t ∧
      ['a'] ∈ t.blessed ∧ t.images.lookup ['a'] = some {0} ∧ t.file 0 = some (some 10) := by
    refine ⟨_, ⟨trivial, _, rfl, ?_, _, rfl, trivial, _, rfl, trivial, _, rfl, trivial, _, rfl,
      trivial, _, rfl, ?_, _, rfl, trivial, _, rfl, trivial, _, rfl, trivial, _, rfl, ?_, _, rfl,
      trivial, _, rfl, trivial, _, rfl, trivial, _, rfl, trivial, _, rfl, trivial, _, rfl, ?_, _,
      rfl, rfl⟩, by decide, rfl, rfl⟩
    · rintro bless d rest ⟨⟩ ⟨⟩
      refine ⟨?_, fun stored => absurd stored (by decide)⟩
      rintro ⟨r, run, ⟨⟩, -⟩
    · rintro run ⟨⟩ doom
      exact absurd doom (by decide)
    · rintro bless ⟨⟩
      exact ⟨by decide, by decide⟩
    · rintro run ⟨⟩ doom
      exact absurd doom (by decide)
  have reached := reach_steps run
  exact ⟨t, reached, mark, blessed_layers_stay_complete reached ['a'] blessed {0} image 0 (by simp)⟩

end GlideFS.Gc.Layers
