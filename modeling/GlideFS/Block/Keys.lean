import GlideFS.Lib.Digits
import GlideFS.Lib.Listing
import Mathlib.Data.List.Nodup

/-! # The keys of a prefix

Manifests, the sidecars of bases, snapshots and packs of one prefix lie below its base path. The
sidecars of a base have the key of its manifest with a suffix, and the listing of the manifests
tells them apart by that suffix. Names may have dots of their own.
-/

namespace GlideFS.Block.Keys

open Lib

/-- The characters a name may have after its first. -/
def isNameChar (c : Char) : Bool := c.isAlphanum || c == '-' || c == '_' || c == '.'

def validateExportName (name : List Char) : Bool :=
  match name with
  | [] => false
  | first :: rest => name.length ≤ 128 && first.isAlphanum && rest.all isNameChar

structure Name where
  text : List Char
  valid : validateExportName text = true
deriving DecidableEq

/-- What is stored for a base, by the suffix of its key. -/
inductive BasePart where
  | manifest
  | bootSet
  | bootSetMeta
  | runspec
deriving DecidableEq

def BasePart.suffix : BasePart → List Char
  | .manifest => []
  | .bootSet => ".boot-set".toList
  | .bootSetMeta => ".boot-set.meta".toList
  | .runspec => ".runspec".toList

inductive StoredObject where
  | exportManifest (name : Name)
  | base (part : BasePart) (name : Name)
  | snapshot (name : Name) (sequence : UInt64)
  | pack (chunkIdx : UInt32) (packId : UInt64)
deriving DecidableEq

def manifestsDir : List Char := "manifests".toList

def basesDir : List Char := "bases".toList

def snapshotsDir : List Char := "snapshots".toList

def chunksDir : List Char := "chunks".toList

def chunkText (chunkIdx : UInt32) : List Char := padded 10 4 chunkIdx.toNat

def packFile (packId : UInt64) : List Char := padded 16 16 packId.toNat ++ ".pack".toList

def sequenceText (sequence : UInt64) : List Char := padded 10 20 sequence.toNat

def manifestS3Key (name : List Char) : List Char := manifestsDir ++ '/' :: name

def snapshotS3Key (name : List Char) (sequence : UInt64) : List Char :=
  snapshotsDir ++ '/' :: (name ++ '/' :: sequenceText sequence)

def chunkPackKey (chunkIdx : UInt32) (packId : UInt64) : List Char :=
  chunksDir ++ '/' :: (chunkText chunkIdx ++ '/' :: packFile packId)

/-- The key below the base path. -/
def StoredObject.key : StoredObject → List Char
  | .exportManifest name => manifestS3Key name.text
  | .base part name => manifestS3Key (basesDir ++ '/' :: (name.text ++ part.suffix))
  | .snapshot name sequence => snapshotS3Key name.text sequence
  | .pack chunkIdx packId => chunkPackKey chunkIdx packId

/-! ## The object store -/

-- `PathPart::from`, which writes out the characters a path cannot have
variable (encode : List Char → List Char)

/-- `ObjectPath::from`. -/
def objectPath (text : List Char) : List Char := render ((names text).map encode)

/-- Where an object lies. -/
def location (basePath : List Char) (o : StoredObject) : List Char :=
  objectPath encode (basePath ++ '/' :: o.key)

/-- `object_store.list(Some(&ObjectPath::from(dir)))`. -/
def list (stored : List (List Char)) (dir : List Char) : List (List Char) :=
  stored.filter fun key => (objectPath encode dir ++ ['/']).isPrefixOf key

def skippedSuffixes : List (List Char) :=
  [".hot-set".toList, ".boot-set".toList, ".boot-set.meta".toList, ".runspec".toList]

/-- The listing takes a key with this end for that of a sidecar. -/
def isSkipped (relative : List Char) : Bool := skippedSuffixes.any fun s => s.isSuffixOf relative

def listAllManifests (basePath : List Char) (stored : List (List Char)) : List (List Char) :=
  let prefixStr := basePath ++ '/' :: (manifestsDir ++ ['/'])
  (list encode stored prefixStr).filterMap fun path =>
    (path.dropPrefix? prefixStr).bind fun relative =>
      if isSkipped relative then none
      else if relative = [] then none
      else some relative

/-- What the object store's paths promise: a part of name characters stays as it is, unless it
    would be read as a step to a directory, and no part is lost or split. -/
structure PathParts : Prop where
  plain : ∀ part, (∀ c ∈ part, isNameChar c) → part ≠ ['.'] → part ≠ ['.', '.'] →
    encode part = part
  valid : ∀ part, part ≠ [] → '/' ∉ part → encode part ≠ [] ∧ '/' ∉ encode part

/-! ## Keys as paths -/

def StoredObject.parts : StoredObject → List (List Char)
  | .exportManifest name => [manifestsDir, name.text]
  | .base part name => [manifestsDir, basesDir, name.text ++ part.suffix]
  | .snapshot name sequence => [snapshotsDir, name.text, sequenceText sequence]
  | .pack chunkIdx packId => [chunksDir, chunkText chunkIdx, packFile packId]

theorem render_pair (a b : List Char) : render [a, b] = a ++ '/' :: b := by
  rw [render_cons (by simp), render_singleton]

theorem render_triple (a b c : List Char) : render [a, b, c] = a ++ '/' :: (b ++ '/' :: c) := by
  rw [render_cons (by simp), render_pair]

theorem render_parts (o : StoredObject) : render o.parts = o.key := by
  cases o with
  | exportManifest name => exact render_pair _ _
  | base part name => exact render_triple _ _ _
  | snapshot name sequence => exact render_triple _ _ _
  | pack chunkIdx packId => exact render_triple _ _ _

/-- A part that the object store keeps as it is. -/
structure Plain (part : List Char) : Prop where
  nonempty : part ≠ []
  chars : ∀ c ∈ part, isNameChar c
  first : part.head? ≠ some '.'

theorem isNameChar_ne_slash {c : Char} (h : isNameChar c = true) : c ≠ '/' := by
  rintro rfl
  exact absurd h (by decide)

theorem Plain.valid {part : List Char} (plain : Plain part) : part ≠ [] ∧ '/' ∉ part :=
  ⟨plain.nonempty, fun slash => isNameChar_ne_slash (plain.chars _ slash) rfl⟩

theorem Plain.kept (paths : PathParts encode) {part : List Char} (plain : Plain part) : encode part = part := by
  apply paths.plain part plain.chars
  · rintro rfl
    exact plain.first rfl
  · rintro rfl
    exact plain.first rfl

theorem Plain.append {part more : List Char} (plain : Plain part)
    (chars : ∀ c ∈ more, isNameChar c) : Plain (part ++ more) := by
  refine ⟨by simp [plain.nonempty], ?_, ?_⟩
  · intro c mem
    rcases List.mem_append.mp mem with mem | mem
    · exact plain.chars c mem
    · exact chars c mem
  · rw [List.head?_append_of_ne_nil _ plain.nonempty]
    exact plain.first

theorem Name.plain (name : Name) : Plain name.text := by
  obtain ⟨text, valid⟩ := name
  cases text with
  | nil => cases valid
  | cons first rest =>
    simp only [validateExportName, Bool.and_eq_true, decide_eq_true_eq, List.all_eq_true] at valid
    obtain ⟨⟨-, alnum⟩, others⟩ := valid
    refine ⟨by simp, ?_, ?_⟩
    · intro c mem
      rcases List.mem_cons.mp mem with rfl | mem
      · simp [isNameChar, alnum]
      · exact others c mem
    · intro dot
      injection dot with dot
      rw [dot] at alnum
      exact absurd alnum (by decide)

theorem padded_plain {b : ℕ} (some : 1 < b) (small : b ≤ 16) (width n : ℕ) :
    Plain (padded b width n) := by
  have digits : ∀ d < 16, isNameChar (Nat.digitChar d) ∧ Nat.digitChar d ≠ '.' := by decide
  refine ⟨padded_ne_nil some width n, ?_, ?_⟩
  · intro c mem
    obtain ⟨d, digit, rfl⟩ := padded_chars some mem
    exact (digits d (by omega)).1
  · intro dot
    obtain ⟨d, digit, same⟩ := padded_chars some (List.mem_of_mem_head? dot)
    exact (digits d (by omega)).2 same.symm

theorem suffix_chars (part : BasePart) : ∀ c ∈ part.suffix, isNameChar c := by
  cases part <;> exact List.all_eq_true.mp (by decide)

theorem manifestsDir_plain : Plain manifestsDir := ⟨by decide, List.all_eq_true.mp (by decide), by decide⟩

theorem parts_plain (o : StoredObject) : ∀ part ∈ o.parts, Plain part := by
  have manifests := manifestsDir_plain
  have bases : Plain basesDir := ⟨by decide, List.all_eq_true.mp (by decide), by decide⟩
  have snapshots : Plain snapshotsDir := ⟨by decide, List.all_eq_true.mp (by decide), by decide⟩
  have chunks : Plain chunksDir := ⟨by decide, List.all_eq_true.mp (by decide), by decide⟩
  intro part mem
  cases o with
  | exportManifest name =>
    rcases List.mem_pair.mp mem with rfl | rfl
    · exact manifests
    · exact name.plain
  | base kind name =>
    simp only [StoredObject.parts, List.mem_cons, List.not_mem_nil, or_false] at mem
    rcases mem with rfl | rfl | rfl
    · exact manifests
    · exact bases
    · exact name.plain.append (suffix_chars kind)
  | snapshot name sequence =>
    simp only [StoredObject.parts, List.mem_cons, List.not_mem_nil, or_false] at mem
    rcases mem with rfl | rfl | rfl
    · exact snapshots
    · exact name.plain
    · exact padded_plain (by decide) (by decide) _ _
  | pack chunkIdx packId =>
    simp only [StoredObject.parts, List.mem_cons, List.not_mem_nil, or_false] at mem
    rcases mem with rfl | rfl | rfl
    · exact chunks
    · exact padded_plain (by decide) (by decide) _ _
    · exact (padded_plain (by decide) (by decide) _ _).append
        (List.all_eq_true.mp (by decide))

theorem parts_valid (o : StoredObject) : ValidNames o.parts :=
  fun part mem => (parts_plain o part mem).valid

theorem parts_ne_nil (o : StoredObject) : o.parts ≠ [] := by
  cases o <;> simp [StoredObject.parts]

theorem names_key (o : StoredObject) : names o.key = o.parts := by
  rw [← render_parts, names_render (parts_valid o) (parts_ne_nil o)]

section

variable {encode} (paths : PathParts encode) {basePath : List Char} {x y o : StoredObject}

include paths

theorem location_eq :
    location encode basePath o = render ((names basePath).map encode ++ o.parts) := by
  have kept : o.parts.map encode = o.parts.map id :=
    List.map_congr_left fun part mem => (parts_plain o part mem).kept encode paths
  rw [location, objectPath, names_append, names_key, List.map_append, kept, List.map_id]

theorem location_parts_valid : ValidNames ((names basePath).map encode ++ o.parts) := by
  apply ValidNames.append _ (parts_valid o)
  intro n mem
  obtain ⟨m, listed, rfl⟩ := List.mem_map.mp mem
  obtain ⟨nonempty, single⟩ := validNames_names basePath m listed
  exact paths.valid m nonempty single

/-- The parts of the path an object lies at. -/
theorem splitOn_location :
    (location encode basePath o).splitOn '/' = (names basePath).map encode ++ o.parts := by
  rw [location_eq paths]
  exact splitOn_render (location_parts_valid paths) (by simp [parts_ne_nil])

theorem location_inj (same : location encode basePath x = location encode basePath y) :
    x.parts = y.parts := by
  have split := congrArg (List.splitOn '/') same
  rw [splitOn_location paths, splitOn_location paths] at split
  exact List.append_cancel_left split

end

/-- The name under which a manifest is listed. -/
def StoredObject.manifestName : StoredObject → Option (List Char)
  | .exportManifest name => some name.text
  | .base .manifest name => some (basesDir ++ '/' :: name.text)
  | _ => none

/-- A sidecar of a base is skipped. -/
theorem skipped_sidecar {part : BasePart} (sidecar : part ≠ .manifest) (front : List Char) :
    isSkipped (front ++ part.suffix) = true := by
  rw [isSkipped, List.any_eq_true]
  refine ⟨part.suffix, ?_, by simp⟩
  cases part with
  | manifest => exact absurd rfl sidecar
  | bootSet | bootSetMeta | runspec => decide

theorem suffix_last {p q : BasePart} (first : p ≠ .manifest) (second : q ≠ .manifest)
    {a b : List Char} (same : a ++ p.suffix = b ++ q.suffix) : p = q := by
  have ends (r : BasePart) (sidecar : r ≠ .manifest) (front : List Char) :
      (front ++ r.suffix).getLast? = r.suffix.getLast? := by
    apply List.getLast?_append_of_ne_nil
    cases r with
    | manifest => exact absurd rfl sidecar
    | bootSet | bootSetMeta | runspec => decide
  have last : p.suffix.getLast? = q.suffix.getLast? := by
    rw [← ends p first a, same, ends q second b]
  revert last
  cases p <;> cases q <;> decide

/-- A name with the suffix of one part of a base is that of no other part, unless the
    manifest is named as a sidecar. -/
theorem base_injective {p q : BasePart} {m n : Name}
    (first : p = .manifest → isSkipped (basesDir ++ '/' :: m.text) = false)
    (second : q = .manifest → isSkipped (basesDir ++ '/' :: n.text) = false)
    (same : m.text ++ p.suffix = n.text ++ q.suffix) : p = q ∧ m.text = n.text := by
  by_cases left : p = .manifest
  · by_cases right : q = .manifest
    · subst left right
      exact ⟨rfl, List.append_cancel_right same⟩
    · subst left
      have skipped := skipped_sidecar right (basesDir ++ '/' :: n.text)
      have whole : m.text = n.text ++ q.suffix := (List.append_nil m.text).symm.trans same
      have kept := first rfl
      rw [whole, ← List.cons_append, ← List.append_assoc, skipped] at kept
      cases kept
  · by_cases right : q = .manifest
    · subst right
      have skipped := skipped_sidecar left (basesDir ++ '/' :: m.text)
      have whole : n.text = m.text ++ p.suffix := (List.append_nil n.text).symm.trans same.symm
      have kept := second rfl
      rw [whole, ← List.cons_append, ← List.append_assoc, skipped] at kept
      cases kept
    · have part := suffix_last left right same
      subst part
      exact ⟨rfl, List.append_cancel_right same⟩

theorem Name.eq {m n : Name} (same : m.text = n.text) : m = n := by
  cases m
  cases n
  cases same
  rfl

theorem sequenceText_injective {s t : UInt64} (same : sequenceText s = sequenceText t) : s = t :=
  UInt64.toNat_inj.mp (padded_injective (by decide) (by decide) same)

theorem chunkText_injective {c d : UInt32} (same : chunkText c = chunkText d) : c = d :=
  UInt32.toNat_inj.mp (padded_injective (by decide) (by decide) same)

theorem packFile_injective {i j : UInt64} (same : packFile i = packFile j) : i = j :=
  UInt64.toNat_inj.mp (padded_injective (by decide) (by decide) (List.append_cancel_right same))

/-- Objects with the same path are the same, unless a base's manifest is named as a sidecar. -/
theorem parts_injective {x y : StoredObject}
    (first : ∀ rel, x.manifestName = some rel → isSkipped rel = false)
    (second : ∀ rel, y.manifestName = some rel → isSkipped rel = false)
    (same : x.parts = y.parts) : x = y := by
  -- the first parts tell manifests, snapshots and packs apart, their number exports and bases
  have notSnapshots : manifestsDir ≠ snapshotsDir := by decide
  have notChunks : manifestsDir ≠ chunksDir := by decide
  have others : snapshotsDir ≠ chunksDir := by decide
  cases x with
  | exportManifest m =>
    cases y with
    | exportManifest n =>
      obtain ⟨-, same⟩ := List.cons.inj same
      rw [Name.eq (List.cons.inj same).1]
    | base => simp only [StoredObject.parts, List.cons.injEq, reduceCtorEq, and_false] at same
    | snapshot => exact absurd (List.cons.inj same).1 notSnapshots
    | pack => exact absurd (List.cons.inj same).1 notChunks
  | base p m =>
    cases y with
    | exportManifest =>
      simp only [StoredObject.parts, List.cons.injEq, reduceCtorEq, and_false] at same
    | base q n =>
      obtain ⟨-, same⟩ := List.cons.inj same
      obtain ⟨-, same⟩ := List.cons.inj same
      obtain ⟨rfl, name⟩ := base_injective (fun manifest => first _ (manifest ▸ rfl))
        (fun manifest => second _ (manifest ▸ rfl)) (List.cons.inj same).1
      rw [Name.eq name]
    | snapshot => exact absurd (List.cons.inj same).1 notSnapshots
    | pack => exact absurd (List.cons.inj same).1 notChunks
  | snapshot m s =>
    cases y with
    | exportManifest | base => exact absurd (List.cons.inj same).1 notSnapshots.symm
    | snapshot n t =>
      obtain ⟨-, same⟩ := List.cons.inj same
      obtain ⟨name, same⟩ := List.cons.inj same
      rw [Name.eq name, sequenceText_injective (List.cons.inj same).1]
    | pack => exact absurd (List.cons.inj same).1 others
  | pack c i =>
    cases y with
    | exportManifest | base => exact absurd (List.cons.inj same).1 notChunks.symm
    | snapshot => exact absurd (List.cons.inj same).1 others.symm
    | pack d j =>
      obtain ⟨-, same⟩ := List.cons.inj same
      obtain ⟨chunk, same⟩ := List.cons.inj same
      rw [chunkText_injective chunk, packFile_injective (List.cons.inj same).1]

/-! ## The listing -/

/-- The base path is written as the object store writes it. -/
def Spelt (basePath : List Char) : Prop := basePath ≠ [] ∧ objectPath encode basePath = basePath

section

variable {encode} (paths : PathParts encode) {basePath rel : List Char} {o : StoredObject}

include paths

omit paths in
theorem names_ne_nil (spelt : Spelt encode basePath) : (names basePath).map encode ≠ [] := by
  intro none
  have empty := spelt.2
  rw [objectPath, none] at empty
  exact spelt.1 empty.symm

theorem location_spelt (spelt : Spelt encode basePath) :
    location encode basePath o = basePath ++ '/' :: o.key := by
  rw [location_eq paths, render_append (names_ne_nil spelt) (parts_ne_nil o), render_parts, ← objectPath, spelt.2]

/-- Only a base path as the object store writes it is found at the front of a location. -/
theorem location_eq_iff :
    location encode basePath o = basePath ++ '/' :: (manifestsDir ++ '/' :: rel) ↔
      Spelt encode basePath ∧ o.key = manifestS3Key rel := by
  constructor
  · intro found
    have split := congrArg (List.splitOn '/') found
    have single : manifestsDir.splitOn '/' = [manifestsDir] := by decide
    rw [splitOn_location paths, List.splitOn_append_cons_self, List.splitOn_append_cons_self,
      single] at split
    -- no part of a location is empty, so no part of the base path is
    have canonical : Canonical basePath := by
      intro n mem
      have there : n ∈ (names basePath).map encode ++ o.parts := by
        rw [split]
        exact List.mem_append_left _ mem
      exact (location_parts_valid paths n there).1
    have all : names basePath = basePath.splitOn '/' := by
      apply List.filter_eq_self.mpr
      intro n mem
      simpa using canonical n mem
    rw [all] at split
    obtain ⟨kept, parts⟩ := List.append_inj split (List.length_map _)
    refine ⟨⟨?_, ?_⟩, ?_⟩
    · rintro rfl
      exact canonical [] (by simp) rfl
    · rw [objectPath, all, kept, render, List.intercalate_splitOn]
    · rw [← render_parts, parts, List.singleton_append,
        render_cons (List.splitOn_ne_nil '/' rel), render, List.intercalate_splitOn, manifestS3Key]
  · rintro ⟨spelt, key⟩
    rw [location_spelt paths spelt, key, manifestS3Key]

omit paths in
theorem manifestS3Key_inj {a b : List Char} : manifestS3Key a = manifestS3Key b ↔ a = b :=
  (append_sep_inj (by decide) (by decide)).trans (and_iff_right rfl)

omit paths in
/-- A manifest lies under its name, and what else lies below `manifests/` is skipped. -/
theorem manifestName_eq_iff (kept : isSkipped rel = false) :
    o.key = manifestS3Key rel ↔ o.manifestName = some rel := by
  cases o with
  | exportManifest name =>
    exact manifestS3Key_inj.trans (Option.some_inj).symm
  | base part name =>
    by_cases manifest : part = .manifest
    · subst manifest
      have key : (StoredObject.base .manifest name).key =
          manifestS3Key (basesDir ++ '/' :: (name.text ++ [])) := rfl
      rw [key, List.append_nil, manifestS3Key_inj]
      exact Option.some_inj.symm
    · have none : (StoredObject.base part name).manifestName = none := by
        cases part with
        | manifest => exact absurd rfl manifest
        | bootSet | bootSetMeta | runspec => rfl
      rw [none]
      refine iff_of_false ?_ nofun
      intro same
      have relative := manifestS3Key_inj.mp same.symm
      rw [relative, ← List.cons_append, ← List.append_assoc, skipped_sidecar manifest] at kept
      cases kept
  | snapshot name sequence =>
    refine iff_of_false ?_ nofun
    intro same
    exact absurd ((append_sep_inj (by decide) (by decide)).mp same).1 (by decide)
  | pack chunkIdx packId =>
    refine iff_of_false ?_ nofun
    intro same
    exact absurd ((append_sep_inj (by decide) (by decide)).mp same).1 (by decide)

/-- The directory that is listed. -/
theorem objectPath_manifests (spelt : Spelt encode basePath) :
    objectPath encode (basePath ++ '/' :: (manifestsDir ++ ['/'])) ++ ['/'] =
      basePath ++ '/' :: (manifestsDir ++ ['/']) := by
  have dir : (names (manifestsDir ++ ['/'])).map encode = [manifestsDir] := by
    have alone : names (manifestsDir ++ ['/']) = [manifestsDir] := by decide
    rw [alone, List.map_singleton, manifestsDir_plain.kept encode paths]
  rw [objectPath, names_append, List.map_append, dir, render_concat _ (names_ne_nil spelt),
    ← objectPath, spelt.2, List.append_assoc, List.cons_append]

variable {stored : List (List Char)}

theorem mem_listAllManifests (spelt : Spelt encode basePath) (kept : isSkipped rel = false)
    (some : rel ≠ []) (there : basePath ++ '/' :: (manifestsDir ++ '/' :: rel) ∈ stored) :
    rel ∈ listAllManifests encode basePath stored := by
  have whole : basePath ++ '/' :: (manifestsDir ++ '/' :: rel) =
      basePath ++ '/' :: (manifestsDir ++ ['/']) ++ rel := by simp
  rw [whole] at there
  rw [listAllManifests, list, objectPath_manifests paths spelt]
  generalize basePath ++ '/' :: (manifestsDir ++ ['/']) = dir at there
  simp only [List.mem_filterMap, List.mem_filter, Option.bind_eq_some_iff, dropPrefix_eq_some]
  exact ⟨dir ++ rel, ⟨there, by simp⟩, rel, rfl, by simp [kept, some]⟩

omit paths in
/-- What is listed was stored, and does not look like a sidecar. -/
theorem stored_of_listed (listed : rel ∈ listAllManifests encode basePath stored) :
    isSkipped rel = false ∧ basePath ++ '/' :: (manifestsDir ++ '/' :: rel) ∈ stored := by
  have whole : basePath ++ '/' :: (manifestsDir ++ '/' :: rel) =
      basePath ++ '/' :: (manifestsDir ++ ['/']) ++ rel := by simp
  simp only [listAllManifests, list, List.mem_filterMap, List.mem_filter, Option.bind_eq_some_iff,
    dropPrefix_eq_some] at listed
  obtain ⟨path, ⟨there, -⟩, relative, rfl, kept⟩ := listed
  split at kept
  · cases kept
  · rename_i other
    split at kept
    · cases kept
    · cases kept
      exact ⟨by simpa using other, whole ▸ there⟩

omit paths in
theorem listAllManifests_nodup (nodup : stored.Nodup) :
    (listAllManifests encode basePath stored).Nodup := by
  apply List.Nodup.filterMap _ (nodup.filter _)
  intro a b rel gives same
  simp only [Option.mem_def, Option.bind_eq_some_iff, dropPrefix_eq_some] at gives same
  obtain ⟨r, rfl, gives⟩ := gives
  obtain ⟨r', rfl, same⟩ := same
  have kept {r : List Char} (h : (if isSkipped r = true then none else if r = [] then none
      else some r) = some rel) : r = rel := by
    split at h
    · cases h
    · split at h
      · cases h
      · exact Option.some.inj h
  rw [kept gives, kept same]

omit paths in
theorem manifestName_ne_nil (manifest : o.manifestName = some rel) : rel ≠ [] := by
  cases o with
  | exportManifest name =>
    cases manifest
    exact name.plain.nonempty
  | base part name =>
    cases part with
    | manifest =>
      cases manifest
      simp
    | bootSet | bootSetMeta | runspec => cases manifest
  | snapshot | pack => cases manifest

end

/-- What a prefix holds: one object at each of the locations of its objects. -/
structure Stores (basePath : List Char) (objects : List StoredObject)
    (stored : List (List Char)) : Prop where
  nodup : stored.Nodup
  mem : ∀ key, key ∈ stored ↔ ∃ o ∈ objects, location encode basePath o = key

/-- No two objects share a key, and the listing gives the names of the manifests. -/
structure Apart (basePath : List Char) (objects : List StoredObject)
    (stored : List (List Char)) : Prop where
  distinct : ∀ x ∈ objects, ∀ y ∈ objects, location encode basePath x = location encode basePath y →
    x = y
  nodup : (listAllManifests encode basePath stored).Nodup
  listed : ∀ rel, rel ∈ listAllManifests encode basePath stored ↔
    ∃ o ∈ objects, o.manifestName = some rel

/-- The objects of a prefix have keys of their own and its manifests are listed exactly if no
    manifest is named as a sidecar and, where there is a manifest, the base path is written as the
    object store writes it. -/
theorem keys_apart (paths : PathParts encode) (basePath : List Char) (objects : List StoredObject)
    (stored : List (List Char)) (holds : Stores encode basePath objects stored) :
    Apart encode basePath objects stored ↔
      ∀ o ∈ objects, ∀ rel, o.manifestName = some rel →
        isSkipped rel = false ∧ Spelt encode basePath := by
  constructor
  · intro apart o here rel manifest
    obtain ⟨kept, there⟩ := stored_of_listed ((apart.listed rel).mpr ⟨o, here, manifest⟩)
    obtain ⟨_, _, found⟩ := (holds.mem _).mp there
    exact ⟨kept, ((location_eq_iff paths).mp found).1⟩
  · intro kept
    refine ⟨?_, listAllManifests_nodup holds.nodup, ?_⟩
    · intro x hx y hy same
      exact parts_injective (fun rel m => (kept x hx rel m).1) (fun rel m => (kept y hy rel m).1)
        (location_inj paths same)
    · intro rel
      constructor
      · intro listed
        obtain ⟨other, there⟩ := stored_of_listed listed
        obtain ⟨o, here, found⟩ := (holds.mem _).mp there
        have key := ((location_eq_iff paths).mp found).2
        exact ⟨o, here, (manifestName_eq_iff other).mp key⟩
      · rintro ⟨o, here, manifest⟩
        obtain ⟨other, spelt⟩ := kept o here rel manifest
        have key := (manifestName_eq_iff other).mpr manifest
        apply mem_listAllManifests paths spelt other (manifestName_ne_nil manifest)
        exact (holds.mem _).mpr ⟨o, here, (location_eq_iff paths).mpr ⟨spelt, key⟩⟩

/-- A path in which every part stays as it is. -/
theorem pathParts_id : PathParts id where
  plain := fun _ _ _ _ => rfl
  valid := fun _ some single => ⟨some, single⟩

def vm1 : Name := ⟨['v', 'm', '1'], rfl⟩

def ubuntu : Name := ⟨"ubuntu-22.04".toList, rfl⟩

def poolPath : List Char := "db/exports/pool".toList

def poolObjects : List StoredObject :=
  [.exportManifest vm1, .base .manifest ubuntu, .base .bootSet ubuntu]

theorem pool_apart :
    Apart id poolPath poolObjects (poolObjects.map (location id poolPath)) := by
  apply (keys_apart id pathParts_id poolPath poolObjects _ ⟨by decide, by simp⟩).mpr
  have spelt : Spelt id poolPath := ⟨by decide, by decide⟩
  have kept : ∀ o ∈ poolObjects, o.manifestName.all (isSkipped · == false) := by decide
  intro o here rel manifest
  have other := kept o here
  rw [manifest] at other
  exact ⟨by simpa using other, spelt⟩

/-- A base with the name of another base's boot set. -/
def bootSetName : Name := ⟨"ubuntu-22.04.boot-set".toList, rfl⟩

theorem base_named_as_boot_set :
    location id poolPath (.base .manifest bootSetName) =
        location id poolPath (.base .bootSet ubuntu) ∧
      listAllManifests id poolPath [location id poolPath (.base .manifest bootSetName)] = [] := by
  decide

end GlideFS.Block.Keys
