import GlideFS.Block.Keys
import GlideFS.Lib.SortedMap
import GlideFS.Router.Manifests

/-! # The purge of an export

A purge takes an export out of memory and then deletes its manifest, its snapshots, the index
entries of its snapshots and last its definition. Where the data of an export lies is known from
the export in memory or, once it is gone, from the definition that is still stored. The calls to
S3 may fail one by one, and a purge that failed may be sent again.
-/

namespace GlideFS.Router.Purge

open Lib Block.Keys

structure ExportConfig where
  s3Prefix : Option (List Char)
deriving DecidableEq

/-- `s3_prefix()`, the pool of an export. -/
def ExportConfig.pool (name : Name) (config : ExportConfig) : List Char :=
  config.s3Prefix.getD name.text

inductive Object where
  /-- The JSON of a definition. -/
  | definition (config : ExportConfig)
  | bytes
deriving DecidableEq

abbrev Bucket := SortedMap (List Char) Object

/-- A write, and whether the call returned `Ok`. -/
def call (reply : Reply) (write : Bucket → Bucket) (b : Bucket) : Bucket × Bool :=
  match reply with
  | .ok => (write b, true)
  | .failed => (b, false)
  | .applied => (write b, false)

/-! ## Where the objects lie -/

def exportsDir : List Char := "exports".toList

def indexDir : List Char := "index".toList

def exportJson : List Char := "export.json".toList

def jsonSuffix : List Char := ".json".toList

-- `PathPart::from`, and the `db_path` of the router
variable (encode : List Char → List Char) (dbPath : List Char)

/-- The base path of a content store. -/
def basePath (pool : List Char) : List Char := dbPath ++ '/' :: (exportsDir ++ '/' :: pool)

def exportJsonPath (name : Name) : List Char :=
  objectPath encode (dbPath ++ '/' :: (exportsDir ++ '/' :: (name.text ++ '/' :: exportJson)))

def snapshotId (volume : Name) (sequence : UInt64) : List Char :=
  volume.text ++ '@' :: Nat.toDigits 10 sequence.toNat

def snapshotIndexPath (id : List Char) : List Char :=
  objectPath encode (dbPath ++ '/' :: (indexDir ++ '/' :: (snapshotsDir ++ '/' :: (id ++ jsonSuffix))))

def manifestPath (pool : List Char) (name : Name) : List Char :=
  location encode (basePath dbPath pool) (.exportManifest name)

def snapshotPath (pool : List Char) (name : Name) (sequence : UInt64) : List Char :=
  location encode (basePath dbPath pool) (.snapshot name sequence)

/-- The directory `delete_all_snapshots` lists. -/
def snapshotsFront (pool : List Char) (name : Name) : List Char :=
  basePath dbPath pool ++ '/' :: (snapshotsDir ++ '/' :: (name.text ++ ['/']))

/-! ## The purge -/

/-- How the calls of a purge end. -/
structure Replies where
  /-- `load_export` gets an answer. -/
  load : Bool
  manifest : Reply
  /-- The circuit breaker lets `delete_all_snapshots` through. -/
  circuit : Bool
  /-- The listing of the snapshots comes to this key, in spite of its errors. -/
  listed : List Char → Bool
  snapshot : List Char → Reply
  /-- The listing of the index fails after so many keys. -/
  indexError : Option ℕ
  index : List Char → Reply
  definition : Reply

def deleteManifest (r : Replies) (pool : List Char) (name : Name) (b : Bucket) : Bucket × Bool :=
  call r.manifest (·.erase (manifestPath encode dbPath pool name)) b

/-- Errors of the listing and of the deletions are logged, and the next key is taken. -/
def deleteAllSnapshots (r : Replies) (pool : List Char) (name : Name) (b : Bucket) : Bucket × Bool :=
  if r.circuit then
    ((list encode b.keys (snapshotsFront dbPath pool name)).foldl (fun b key =>
      if r.listed key then (call (r.snapshot key) (·.erase key) b).1 else b) b, true)
  else (b, false)

/-- `list_with_offset`; the keys of a bucket are listed in ascending order. -/
def listWithOffset (b : Bucket) (root offset : List Char) : List (List Char) :=
  b.keys.filter fun key => (root ++ ['/']).isPrefixOf key && offset < key

/-- The keys up to the first that does not start with `front`; `none` for an error before it. -/
def scan (front : List Char) : Option ℕ → List (List Char) → Option (List (List Char))
  | some 0, _ => none
  | _, [] => some []
  | errorAfter, key :: rest =>
      if front.isPrefixOf key then (scan front (errorAfter.map (· - 1)) rest).map (key :: ·)
      else some []

/-- The deletions one after another, up to the first that fails. -/
def deleteEach (replies : List Char → Reply) : List (List Char) → Bucket → Bucket × Bool
  | [], b => (b, true)
  | key :: rest, b =>
      match call (replies key) (·.erase key) b with
      | (b, true) => deleteEach replies rest b
      | (b, false) => (b, false)

def indexRoot : List Char := objectPath encode (dbPath ++ '/' :: (indexDir ++ '/' :: snapshotsDir))

/-- How the paths of the index entries of an export begin. -/
def indexFront (name : Name) : List Char := indexRoot encode dbPath ++ '/' :: (name.text ++ ['@'])

def deleteSnapshotIndexEntries (r : Replies) (name : Name) (b : Bucket) : Bucket × Bool :=
  let front := indexFront encode dbPath name
  let offset := objectPath encode front
  match scan front r.indexError (listWithOffset b (indexRoot encode dbPath) offset) with
  | none => (b, false)
  | some found => deleteEach r.index found b

def deleteExportDefinition (r : Replies) (name : Name) (b : Bucket) : Bucket × Bool :=
  call r.definition (·.erase (exportJsonPath encode dbPath name)) b

def purgeS3State (r : Replies) (pool : List Char) (name : Name) (b : Bucket) : Bucket × Bool :=
  let (b, manifest) := deleteManifest encode dbPath r pool name b
  let (b, snapshots) := deleteAllSnapshots encode dbPath r pool name b
  let (b, index) := deleteSnapshotIndexEntries encode dbPath r name b
  -- the definition is kept for the next purge if anything failed
  if manifest && snapshots && index then deleteExportDefinition encode dbPath r name b
  else (b, false)

/-- An object in a pool or beside the pools. -/
inductive Stored where
  | inPool (pool : List Char) (o : StoredObject)
  | indexEntry (name : Name) (sequence : UInt64)
  | definition (name : Name)
deriving DecidableEq

def Stored.path : Stored → List Char
  | .inPool pool o => location encode (basePath dbPath pool) o
  | .indexEntry name sequence => snapshotIndexPath encode dbPath (snapshotId name sequence)
  | .definition name => exportJsonPath encode dbPath name

/-- The export an object belongs to; packs and bases belong to the whole pool. -/
def Stored.owner : Stored → Option Name
  | .inPool _ (.exportManifest name) | .inPool _ (.snapshot name _) => some name
  | .inPool _ _ => none
  | .indexEntry name _ | .definition name => some name

/-- S3, and the export if it is in memory. `used` and `others` are history: the pools in which the
    export was created, and what was stored for others. -/
structure State where
  s3 : Bucket
  attached : Option ExportConfig
  used : List (List Char)
  others : List Stored

/-- `remove_export` with `purge`, and whether it returned `Ok`. -/
def removeExport (r : Replies) (name : Name) (s : State) : State × Bool :=
  match s.attached with
  | some config =>
      let (b, ok) := purgeS3State encode dbPath r (config.pool name) name s.s3
      ({ s with s3 := b, attached := none }, ok)
  | none =>
      if r.load then
        match s.s3.get (exportJsonPath encode dbPath name) with
        | some (.definition config) =>
            let (b, ok) := purgeS3State encode dbPath r (config.pool name) name s.s3
            ({ s with s3 := b }, ok)
        -- no definition could be read from it
        | some .bytes => (s, false)
        | none =>
            let (b, ok) := deleteSnapshotIndexEntries encode dbPath r name s.s3
            ({ s with s3 := b }, ok)
      else (s, false)

/-! ## Histories of one name -/

inductive Act where
  /-- `create_export` without a manifest to fork from. -/
  | create (config : ExportConfig)
  /-- `create_export` from a manifest, which stores the new export's own first. -/
  | fork (config : ExportConfig) (put : Reply)
  /-- A sync, a flush or a seizure stores the manifest. -/
  | putManifest (put : Reply)
  | save (put : Reply)
  /-- `cleanup_failed_create`, a removal without purge, or the end of the process. -/
  | detach
  /-- `snapshot_export`; the index entry is written for a stored snapshot only. -/
  | snapshot (sequence : UInt64) (put index : Reply)
  | purge (r : Replies)
  /-- Something is stored for another export, or deleted. -/
  | other (o : Stored) (object : Option Object)

def step (name : Name) (s : State) : Act → Option State
  | .create config =>
      if s.attached.isNone then
        some { s with attached := some config, used := config.pool name :: s.used }
      else none
  | .fork config put =>
      if s.attached.isNone then
        let path := manifestPath encode dbPath (config.pool name) name
        let (b, ok) := call put (·.insert path .bytes) s.s3
        some { s with
          s3 := b
          attached := if ok then some config else none
          used := config.pool name :: s.used }
      else none
  | .putManifest put => s.attached.map fun config =>
      let path := manifestPath encode dbPath (config.pool name) name
      { s with s3 := (call put (·.insert path .bytes) s.s3).1 }
  | .save put => s.attached.map fun config =>
      let path := exportJsonPath encode dbPath name
      { s with s3 := (call put (·.insert path (.definition config)) s.s3).1 }
  | .detach => some { s with attached := none }
  | .snapshot sequence put index => s.attached.map fun config =>
      let path := snapshotPath encode dbPath (config.pool name) name sequence
      let entry := snapshotIndexPath encode dbPath (snapshotId name sequence)
      let (b, ok) := call put (·.insert path .bytes) s.s3
      { s with s3 := if ok then (call index (·.insert entry .bytes) b).1 else b }
  | .purge r => some (removeExport encode dbPath r name s).1
  | .other o object =>
      if o.owner = some name then none
      else some { s with
        s3 := match object with
          | some object => s.s3.insert (o.path encode dbPath) object
          | none => s.s3.erase (o.path encode dbPath)
        others := o :: s.others }

def initial : State := ⟨.empty, none, [], []⟩

/-! ## What a purge deletes -/

section

variable {reply : Reply} {b b' : Bucket} {key path : List Char}

theorem call_ok {write : Bucket → Bucket} (ok : call reply write b = (b', true)) :
    b' = write b := by
  cases reply <;> cases ok
  rfl

theorem mem_call_erase :
    key ∈ (call reply (·.erase path) b).1.keys ↔ key ∈ b.keys ∧ ¬(key = path ∧ reply ≠ .failed) := by
  cases reply with
  | failed => simp [call]
  | ok | applied => simp [call]

/-- A call of `delete_all_snapshots` deletes the key. -/
def Replies.Drops (r : Replies) (key : List Char) : Prop :=
  r.listed key = true ∧ r.snapshot key ≠ .failed

theorem mem_foldl_drops (r : Replies) (listing : List (List Char)) :
    key ∈ (listing.foldl (fun b key =>
        if r.listed key then (call (r.snapshot key) (·.erase key) b).1 else b) b).keys ↔
      key ∈ b.keys ∧ ¬(key ∈ listing ∧ r.Drops key) := by
  induction listing generalizing b with
  | nil => simp
  | cons first rest ih =>
    rw [List.foldl_cons, ih]
    split
    · rename_i listed
      rw [mem_call_erase, List.mem_cons, and_assoc]
      apply and_congr_right
      intro _
      constructor
      · rintro ⟨kept, later⟩ ⟨rfl | mem, drops⟩
        · exact kept ⟨rfl, drops.2⟩
        · exact later ⟨mem, drops⟩
      · intro kept
        refine ⟨?_, fun drops => kept ⟨.inr drops.1, drops.2⟩⟩
        rintro ⟨rfl, effective⟩
        exact kept ⟨.inl rfl, listed, effective⟩
    · rename_i unlisted
      rw [List.mem_cons]
      apply and_congr_right
      intro _
      refine not_congr ⟨fun drops => ⟨.inr drops.1, drops.2⟩, ?_⟩
      rintro ⟨rfl | mem, drops⟩
      · exact absurd drops.1 unlisted
      · exact ⟨mem, drops⟩

theorem deleteEach_ok {replies : List Char → Reply} {found : List (List Char)}
    (ok : deleteEach replies found b = (b', true)) :
    key ∈ b'.keys ↔ key ∈ b.keys ∧ key ∉ found := by
  induction found generalizing b with
  | nil =>
    cases ok
    simp
  | cons first rest ih =>
    unfold deleteEach at ok
    split at ok
    · rename_i done
      rw [ih ok, call_ok done]
      simp [and_assoc]
    · cases ok

theorem scan_ok {front : List Char} {errorAfter : Option ℕ} {listing found : List (List Char)}
    (ok : scan front errorAfter listing = some found) :
    found = listing.takeWhile front.isPrefixOf := by
  fun_induction scan front errorAfter listing generalizing found with
  | case1 => cases ok
  | case2 =>
    cases ok
    rfl
  | case3 errorAfter first rest _ starts ih =>
    obtain ⟨more, later, rfl⟩ := Option.map_eq_some_iff.mp ok
    rw [List.takeWhile_cons_of_pos starts, ih later]
  | case4 errorAfter first rest _ other =>
    cases ok
    rw [List.takeWhile_cons_of_neg other]

/-- In an ascending listing from a text on, its continuations come first. -/
theorem mem_takeWhile_front {front : List Char} {listing : List (List Char)}
    (sorted : listing.Pairwise (· < ·)) (since : ∀ x ∈ listing, front < x) :
    key ∈ listing.takeWhile front.isPrefixOf ↔ key ∈ listing ∧ front <+: key := by
  induction listing with
  | nil => simp
  | cons first rest ih =>
    obtain ⟨above, sorted⟩ := List.pairwise_cons.mp sorted
    have later := ih sorted fun x mem => since x (List.mem_cons_of_mem _ mem)
    by_cases starts : front.isPrefixOf first = true
    · rw [List.takeWhile_cons_of_pos starts, List.mem_cons, List.mem_cons, later]
      have first_starts : front <+: first := by simpa using starts
      constructor
      · rintro (rfl | mem)
        · exact ⟨.inl rfl, first_starts⟩
        · exact ⟨.inr mem.1, mem.2⟩
      · rintro ⟨rfl | mem, continues⟩
        · exact .inl rfl
        · exact .inr ⟨mem, continues⟩
    · rw [List.takeWhile_cons_of_neg starts]
      refine iff_of_false List.not_mem_nil ?_
      rintro ⟨mem, more, rfl⟩
      have after : front < first := since first List.mem_cons_self
      apply starts
      rw [List.isPrefixOf_iff_prefix]
      rcases List.mem_cons.mp mem with same | mem
      · exact ⟨more, same⟩
      · exact prefix_of_between (not_lt_of_gt after) (not_lt_of_gt (above _ mem))

end

/-! ## Paths below `db_path` -/

/-- What the object store's paths promise, for parts with an `@` too. -/
structure Paths : Prop extends PathParts encode where
  atSign : ∀ part, (∀ c ∈ part, isNameChar c ∨ c = '@') → part ≠ ['.'] → part ≠ ['.', '.'] →
    encode part = part

/-- The path of the database stays as it is when a path is made of it again. -/
def Stable : Prop := ∀ part ∈ names dbPath, encode (encode part) = encode part

/-- The path of the database. -/
def root : List (List Char) := (names dbPath).map encode

section

variable {encode dbPath} {name : Name} {pool key : List Char} {sequence : UInt64} {o : StoredObject}

theorem exportsDir_plain : Plain exportsDir := ⟨by decide, List.all_eq_true.mp (by decide), by decide⟩

theorem indexDir_plain : Plain indexDir := ⟨by decide, List.all_eq_true.mp (by decide), by decide⟩

theorem snapshotsDir_plain : Plain snapshotsDir := ⟨by decide, List.all_eq_true.mp (by decide), by decide⟩

theorem exportJson_plain : Plain exportJson := ⟨by decide, List.all_eq_true.mp (by decide), by decide⟩

/-- A part of the index: the name of an export, an `@` and what follows. -/
structure Indexed (part : List Char) : Prop where
  nonempty : part ≠ []
  chars : ∀ c ∈ part, isNameChar c ∨ c = '@'
  first : part.head? ≠ some '.'

theorem Indexed.valid {part : List Char} (indexed : Indexed part) : part ≠ [] ∧ '/' ∉ part := by
  refine ⟨indexed.nonempty, fun slash => ?_⟩
  rcases indexed.chars _ slash with plain | other
  · exact isNameChar_ne_slash plain rfl
  · exact absurd other (by decide)

theorem Indexed.kept (paths : Paths encode) {part : List Char} (indexed : Indexed part) :
    encode part = part := by
  apply paths.atSign part indexed.chars
  · rintro rfl
    exact indexed.first rfl
  · rintro rfl
    exact indexed.first rfl

theorem indexed_of_plain {part : List Char} (plain : Plain part) : Indexed part :=
  ⟨plain.nonempty, fun c mem => .inl (plain.chars c mem), plain.first⟩

theorem indexed_at (name : Name) {rest : List Char} (chars : ∀ c ∈ rest, isNameChar c) :
    Indexed (name.text ++ '@' :: rest) := by
  refine ⟨by simp, ?_, ?_⟩
  · intro c mem
    simp only [List.mem_append, List.mem_cons] at mem
    rcases mem with mem | rfl | mem
    · exact .inl (name.plain.chars c mem)
    · exact .inr rfl
    · exact .inl (chars c mem)
  · rw [List.head?_append_of_ne_nil _ name.plain.nonempty]
    exact name.plain.first

theorem root_valid (paths : Paths encode) : ValidNames (root encode dbPath) := by
  intro part mem
  obtain ⟨n, listed, rfl⟩ := List.mem_map.mp mem
  obtain ⟨nonempty, single⟩ := validNames_names dbPath n listed
  exact paths.valid n nonempty single

theorem map_indexed (paths : Paths encode) {parts : List (List Char)}
    (each : ∀ part ∈ parts, Indexed part) : parts.map encode = parts := by
  rw [List.map_congr_left fun part mem => (each part mem).kept paths, List.map_id']

theorem validNames_indexed {parts : List (List Char)} (each : ∀ part ∈ parts, Indexed part) :
    ValidNames parts :=
  fun part mem => (each part mem).valid

theorem objectPath_below (paths : Paths encode) {front : List Char} {parts : List (List Char)}
    (some : parts ≠ []) (each : ∀ part ∈ parts, Indexed part) :
    objectPath encode (front ++ '/' :: render parts) = render ((names front).map encode ++ parts) := by
  rw [objectPath, names_append, names_render (validNames_indexed each) some,
    List.map_append, map_indexed paths each]

/-- The path of an entry of the index. -/
def indexParts (name : Name) (sequence : UInt64) : List (List Char) :=
  [indexDir, snapshotsDir, snapshotId name sequence ++ jsonSuffix]

theorem indexed_id (name : Name) (sequence : UInt64) :
    Indexed (snapshotId name sequence ++ jsonSuffix) := by
  rw [snapshotId, List.append_assoc, List.cons_append]
  apply indexed_at
  intro c mem
  rcases List.mem_append.mp mem with mem | mem
  · obtain ⟨d, digit, rfl⟩ := toDigits_chars (by decide) mem
    have digits : ∀ d < 10, isNameChar (Nat.digitChar d) := by decide
    exact digits d digit
  · have chars : ∀ c ∈ jsonSuffix, isNameChar c := List.all_eq_true.mp (by decide)
    exact chars c mem

theorem indexParts_indexed : ∀ part ∈ indexParts name sequence, Indexed part := by
  simp [indexParts, indexed_of_plain, indexDir_plain, snapshotsDir_plain, indexed_id]

theorem dir_indexed : ∀ part ∈ [indexDir, snapshotsDir], Indexed part := by
  simp [indexed_of_plain, indexDir_plain, snapshotsDir_plain]

theorem front_indexed (name : Name) :
    ∀ part ∈ [indexDir, snapshotsDir, name.text ++ ['@']], Indexed part := by
  simp [indexed_of_plain, indexDir_plain, snapshotsDir_plain, indexed_at]

theorem definition_indexed (name : Name) :
    ∀ part ∈ [exportsDir, name.text, exportJson], Indexed part := by
  simp [indexed_of_plain, exportsDir_plain, name.plain, exportJson_plain]

theorem snapshots_indexed (name : Name) : ∀ part ∈ [snapshotsDir, name.text], Indexed part := by
  simp [indexed_of_plain, snapshotsDir_plain, name.plain]

theorem snapshotIndexPath_eq (paths : Paths encode) :
    snapshotIndexPath encode dbPath (snapshotId name sequence) =
      render (root encode dbPath ++ indexParts name sequence) := by
  rw [snapshotIndexPath, ← render_triple]
  exact objectPath_below paths (List.cons_ne_nil _ _) indexParts_indexed

theorem exportJsonPath_eq (paths : Paths encode) :
    exportJsonPath encode dbPath name =
      render (root encode dbPath ++ [exportsDir, name.text, exportJson]) := by
  rw [exportJsonPath, ← render_triple exportsDir]
  exact objectPath_below paths (by simp) (definition_indexed name)

theorem indexRoot_eq (paths : Paths encode) :
    indexRoot encode dbPath = render (root encode dbPath ++ [indexDir, snapshotsDir]) := by
  rw [indexRoot, ← render_pair indexDir]
  exact objectPath_below paths (by simp) dir_indexed

/-- The parts of a pool below the path of the database. -/
def poolParts (encode : List Char → List Char) (pool : List Char) : List (List Char) :=
  exportsDir :: (names pool).map encode

theorem names_basePath (paths : Paths encode) :
    (names (basePath dbPath pool)).map encode = root encode dbPath ++ poolParts encode pool := by
  have alone : names exportsDir = [exportsDir] := by decide
  rw [basePath, names_append, names_append, alone, List.map_append, List.map_append,
    List.map_singleton, exportsDir_plain.kept encode paths.toPathParts]
  rfl

theorem location_pool (paths : Paths encode) :
    location encode (basePath dbPath pool) o =
      render (root encode dbPath ++ (poolParts encode pool ++ o.parts)) := by
  rw [location_eq paths.toPathParts, names_basePath paths, List.append_assoc]

theorem snapshotsFront_eq (paths : Paths encode) :
    objectPath encode (snapshotsFront dbPath pool name) =
      render (root encode dbPath ++ (poolParts encode pool ++ [snapshotsDir, name.text])) := by
  have text : snapshotsDir ++ '/' :: (name.text ++ ['/']) =
      render [snapshotsDir, name.text] ++ '/' :: [] := by
    rw [render_pair]
    simp
  have none : names [] = [] := by decide
  rw [snapshotsFront, text, objectPath, names_append, names_append,
    names_render (validNames_indexed (snapshots_indexed name)) (by simp), none, List.append_nil,
    List.map_append, names_basePath paths, List.append_assoc, map_indexed paths (snapshots_indexed name)]

theorem indexFront_eq (paths : Paths encode) :
    indexFront encode dbPath name =
      render (root encode dbPath ++ [indexDir, snapshotsDir, name.text ++ ['@']]) := by
  have split : root encode dbPath ++ [indexDir, snapshotsDir, name.text ++ ['@']] =
      root encode dbPath ++ [indexDir, snapshotsDir] ++ [name.text ++ ['@']] := by simp
  rw [indexFront, indexRoot_eq paths, split, render_concat _ (by simp)]

/-! ## What lies where -/

theorem objectPath_indexFront (paths : Paths encode) (stable : Stable encode dbPath) :
    objectPath encode (indexFront encode dbPath name) = indexFront encode dbPath name := by
  have again : (root encode dbPath).map encode = root encode dbPath := by
    rw [root, List.map_map]
    exact List.map_congr_left stable
  rw [indexFront_eq paths, objectPath,
    names_render ((root_valid paths).append (validNames_indexed (front_indexed name))) (by simp),
    List.map_append, again, map_indexed paths (front_indexed name)]

/-- A path that starts like an index entry lies in the directory of the index. -/
theorem below_index (paths : Paths encode) {parts : List (List Char)}
    (valid : ValidNames parts)
    (starts : indexFront encode dbPath name <+: render (root encode dbPath ++ parts)) :
    [indexDir, snapshotsDir] <+: parts := by
  have dir : ValidNames (root encode dbPath ++ [indexDir, snapshotsDir]) :=
    (root_valid paths).append (validNames_indexed dir_indexed)
  have text : (render (root encode dbPath ++ [indexDir, snapshotsDir]) ++ ['/']).isPrefixOf
      (render (root encode dbPath ++ parts)) = true := by
    rw [List.isPrefixOf_iff_prefix, ← indexRoot_eq paths]
    refine List.IsPrefix.trans ?_ starts
    exact ⟨name.text ++ ['@'], by simp [indexFront]⟩
  have below := below_of_text dir ((root_valid paths).append valid) (by simp) text
  exact (List.prefix_append_right_inj _).mp below.1

theorem poolParts_valid (paths : Paths encode) : ValidNames (poolParts encode pool) := by
  intro part mem
  rcases List.mem_cons.mp mem with rfl | mem
  · exact exportsDir_plain.valid
  · obtain ⟨n, listed, rfl⟩ := List.mem_map.mp mem
    obtain ⟨nonempty, single⟩ := validNames_names pool n listed
    exact paths.valid n nonempty single

/-- What lies in a pool is not in the index. -/
theorem pool_not_indexed (paths : Paths encode) :
    ¬indexFront encode dbPath name <+: location encode (basePath dbPath pool) o := by
  rw [location_pool paths]
  intro starts
  have below := below_index paths ((poolParts_valid paths).append (parts_valid o)) starts
  exact absurd (List.cons_prefix_cons.mp below).1 (by decide)

theorem definition_not_indexed (paths : Paths encode) {other : Name} :
    ¬indexFront encode dbPath name <+: exportJsonPath encode dbPath other := by
  rw [exportJsonPath_eq paths]
  intro starts
  have below := below_index paths (validNames_indexed (definition_indexed other)) starts
  exact absurd (List.cons_prefix_cons.mp below).1 (by decide)

theorem at_notMem (name : Name) : '@' ∉ name.text := by
  intro mem
  exact absurd (name.plain.chars _ mem) (by decide)

theorem snapshotIndexPath_text (paths : Paths encode) (name : Name) (sequence : UInt64) :
    snapshotIndexPath encode dbPath (snapshotId name sequence) = indexRoot encode dbPath ++
      '/' :: (name.text ++ '@' :: (Nat.toDigits 10 sequence.toNat ++ jsonSuffix)) := by
  have split : root encode dbPath ++ indexParts name sequence =
      root encode dbPath ++ [indexDir, snapshotsDir] ++
        [snapshotId name sequence ++ jsonSuffix] := by simp [indexParts]
  rw [snapshotIndexPath_eq paths, split, render_concat _ (by simp), ← indexRoot_eq paths]
  simp [snapshotId]

/-- The index entries that start with the name of an export and an `@` are its own. -/
theorem owner_of_indexFront (paths : Paths encode) {other : Name}
    (starts : indexFront encode dbPath name <+:
      snapshotIndexPath encode dbPath (snapshotId other sequence)) : name = other := by
  rw [snapshotIndexPath_text paths, indexFront, List.prefix_append_right_inj,
    List.cons_prefix_cons] at starts
  obtain ⟨rest, whole⟩ := starts.2
  rw [List.append_assoc, List.singleton_append] at whole
  exact Name.eq ((append_sep_inj (at_notMem name) (at_notMem other)).mp whole).1

/-- The path of an object below that of the database. -/
def Stored.parts (encode : List Char → List Char) : Stored → List (List Char)
  | .inPool pool o => poolParts encode pool ++ o.parts
  | .indexEntry name sequence => indexParts name sequence
  | .definition name => [exportsDir, name.text, exportJson]

theorem Stored.path_eq (paths : Paths encode) (o : Stored) :
    o.path encode dbPath = render (root encode dbPath ++ o.parts encode) := by
  cases o with
  | inPool pool o => exact location_pool paths
  | indexEntry name sequence => exact snapshotIndexPath_eq paths
  | definition name => exact exportJsonPath_eq paths

theorem Stored.parts_valid (paths : Paths encode) (o : Stored) : ValidNames (o.parts encode) := by
  cases o with
  | inPool pool o => exact (poolParts_valid paths).append (Block.Keys.parts_valid o)
  | indexEntry name sequence => exact validNames_indexed indexParts_indexed
  | definition name => exact validNames_indexed (definition_indexed name)

/-- Objects at one path have the same parts. -/
theorem parts_of_path (paths : Paths encode) {x y : Stored}
    (same : x.path encode dbPath = y.path encode dbPath) : x.parts encode = y.parts encode := by
  rw [x.path_eq paths, y.path_eq paths] at same
  exact List.append_cancel_left (render_injective ((root_valid paths).append (x.parts_valid paths))
    ((root_valid paths).append (y.parts_valid paths)) same)

/-- The manifest and the snapshots of an export are not its definition. -/
theorem manifest_ne_definition (paths : Paths encode) :
    manifestPath encode dbPath pool name ≠ exportJsonPath encode dbPath name := by
  intro same
  have parts : poolParts encode pool ++ [manifestsDir, name.text] =
      [exportsDir, name.text, exportJson] :=
    parts_of_path paths (x := .inPool pool (.exportManifest name)) (y := .definition name) same
  -- with no part for the pool, the export would have to be named as both
  cases listed : (names pool).map encode with
  | nil =>
    simp only [poolParts, listed, List.cons_append, List.nil_append, List.cons.injEq, and_true,
      true_and] at parts
    exact absurd (parts.1.trans parts.2) (by decide)
  | cons first rest =>
    have lengths := congrArg List.length parts
    simp [poolParts, listed] at lengths

theorem snapshot_ne_definition (paths : Paths encode) :
    snapshotPath encode dbPath pool name sequence ≠ exportJsonPath encode dbPath name := by
  intro same
  have lengths := congrArg List.length (parts_of_path paths
    (x := .inPool pool (.snapshot name sequence)) (y := .definition name) same)
  simp [Stored.parts, poolParts, StoredObject.parts] at lengths

end

/-! ## Complete purges -/

/-- The pool a purge works on. -/
def State.target (name : Name) (s : State) : Option (List Char) :=
  match s.attached with
  | some config => some (config.pool name)
  | none =>
      match s.s3.get (exportJsonPath encode dbPath name) with
      | some (.definition config) => some (config.pool name)
      | _ => none

/-- The key is that of a snapshot directory's file. -/
def InSnapshots (pool : List Char) (name : Name) (key : List Char) : Prop :=
  objectPath encode (snapshotsFront dbPath pool name) ++ ['/'] <+: key

/-- An index entry of the export, by its key. -/
def InIndex (name : Name) (key : List Char) : Prop :=
  indexFront encode dbPath name <+: key ∧ indexFront encode dbPath name < key

section

variable {encode dbPath} {r : Replies} {name : Name} {pool key : List Char} {b b' : Bucket}

theorem mem_listWithOffset {dir offset : List Char} :
    key ∈ listWithOffset b dir offset ↔ key ∈ b.keys ∧ dir ++ ['/'] <+: key ∧ offset < key := by
  simp [listWithOffset, List.mem_filter]

theorem deleteSnapshotIndexEntries_ok (paths : Paths encode) (stable : Stable encode dbPath)
    (ok : deleteSnapshotIndexEntries encode dbPath r name b = (b', true)) :
    key ∈ b'.keys ↔ key ∈ b.keys ∧ ¬InIndex encode dbPath name key := by
  simp only [deleteSnapshotIndexEntries, objectPath_indexFront paths stable] at ok
  split at ok
  · cases ok
  · rename_i found scanned
    have sorted : (listWithOffset b (indexRoot encode dbPath)
        (indexFront encode dbPath name)).Pairwise (· < ·) := b.sorted.filter _
    rw [deleteEach_ok ok, scan_ok scanned,
      mem_takeWhile_front sorted fun x listed => (mem_listWithOffset.mp listed).2.2,
      mem_listWithOffset]
    apply and_congr_right
    intro there
    apply not_congr
    constructor
    · rintro ⟨⟨-, -, after⟩, starts⟩
      exact ⟨starts, after⟩
    · rintro ⟨starts, after⟩
      refine ⟨⟨there, List.IsPrefix.trans ?_ starts, after⟩, starts⟩
      exact ⟨name.text ++ ['@'], by simp [indexFront]⟩

theorem deleteAllSnapshots_ok
    (ok : deleteAllSnapshots encode dbPath r pool name b = (b', true)) :
    key ∈ b'.keys ↔ key ∈ b.keys ∧ ¬(InSnapshots encode dbPath pool name key ∧ r.Drops key) := by
  unfold deleteAllSnapshots at ok
  split at ok
  · cases ok
    rw [mem_foldl_drops]
    apply and_congr_right
    intro there
    simp only [list, List.mem_filter, List.isPrefixOf_iff_prefix, InSnapshots, there, true_and]
  · cases ok

/-- A purge that is done has deleted the manifest, the snapshots it could, the index entries and
    the definition. -/
theorem purgeS3State_ok (paths : Paths encode) (stable : Stable encode dbPath)
    (ok : purgeS3State encode dbPath r pool name b = (b', true)) :
    key ∈ b'.keys ↔ key ∈ b.keys ∧ ¬(key = exportJsonPath encode dbPath name ∨
      InIndex encode dbPath name key ∨ key = manifestPath encode dbPath pool name ∨
      InSnapshots encode dbPath pool name key ∧ r.Drops key) := by
  unfold purgeS3State at ok
  split at ok
  rename_i b₁ manifest first
  split at ok
  rename_i b₂ snapshots second
  split at ok
  rename_i b₃ index third
  split at ok
  · rename_i all
    simp only [Bool.and_eq_true] at all
    obtain ⟨⟨rfl, rfl⟩, rfl⟩ := all
    rw [call_ok ok, SortedMap.mem_keys_erase, deleteSnapshotIndexEntries_ok paths stable third,
      deleteAllSnapshots_ok second, call_ok first, SortedMap.mem_keys_erase]
    tauto
  · cases ok

end

/-- A purge in this state deletes the key, if it is done. -/
def Deletes (r : Replies) (name : Name) (s : State) (key : List Char) : Prop :=
  key = exportJsonPath encode dbPath name ∨ InIndex encode dbPath name key ∨
    ∃ pool, s.target encode dbPath name = some pool ∧
      (key = manifestPath encode dbPath pool name ∨
        InSnapshots encode dbPath pool name key ∧ r.Drops key)

theorem removeExport_ok {encode dbPath} (paths : Paths encode) (stable : Stable encode dbPath)
    {r : Replies} {name : Name} {s t : State}
    (ok : removeExport encode dbPath r name s = (t, true)) (key : List Char) :
    key ∈ t.s3.keys ↔ key ∈ s.s3.keys ∧ ¬Deletes encode dbPath r name s key := by
  unfold removeExport at ok
  unfold Deletes State.target
  cases attached : s.attached with
  | some config =>
    simp only [attached, Prod.mk.injEq] at ok
    obtain ⟨rfl, done⟩ := ok
    rw [purgeS3State_ok paths stable (Prod.ext rfl done)]
    simp
  | none =>
    simp only [attached] at ok
    split at ok
    · split at ok
      · rename_i config stored
        simp only [Prod.mk.injEq] at ok
        obtain ⟨rfl, done⟩ := ok
        rw [purgeS3State_ok paths stable (Prod.ext rfl done)]
        simp [stored]
      · cases ok
      · rename_i absent
        simp only [Prod.mk.injEq] at ok
        obtain ⟨rfl, done⟩ := ok
        rw [deleteSnapshotIndexEntries_ok paths stable (Prod.ext rfl done)]
        have none := SortedMap.get_eq_none.mp absent
        simp only [absent, reduceCtorEq, false_and, exists_false, or_false]
        apply and_congr_right
        intro there
        refine not_congr ⟨.inr, ?_⟩
        rintro (rfl | entry)
        · exact absurd there none
        · exact entry
    · cases ok

/-- The manifest or a snapshot of the export in a pool it used. -/
def State.Own (name : Name) (s : State) (key : List Char) : Prop :=
  ∃ pool ∈ s.used, key = manifestPath encode dbPath pool name ∨
    ∃ sequence, key = snapshotPath encode dbPath pool name sequence

/-- Nothing of the export is left after the purge, and everything of the others is. -/
structure Complete (name : Name) (s t : State) : Prop where
  own : ∀ key, s.Own encode dbPath name key → key ∉ t.s3.keys
  index : ∀ sequence, snapshotIndexPath encode dbPath (snapshotId name sequence) ∉ t.s3.keys
  definition : exportJsonPath encode dbPath name ∉ t.s3.keys
  others : ∀ o ∈ s.others, o.owner ≠ some name → o.path encode dbPath ∈ s.s3.keys →
    o.path encode dbPath ∈ t.s3.keys

/-- The manifest and the snapshots of the export lie in the pool of the export in memory or, if it
    is gone, of its definition, and no call of `delete_all_snapshots` fails for one of them. -/
def Found (r : Replies) (name : Name) (s : State) : Prop :=
  ∀ key, s.Own encode dbPath name key → key ∈ s.s3.keys →
    ∃ pool, s.target encode dbPath name = some pool ∧
      (key = manifestPath encode dbPath pool name ∨
        InSnapshots encode dbPath pool name key ∧ r.Drops key)

/-- No object of another export lies where the purge deletes. -/
def Apart (name : Name) (s : State) : Prop :=
  ∀ o ∈ s.others, o.owner ≠ some name →
    o.path encode dbPath ≠ exportJsonPath encode dbPath name ∧
    ∀ pool, s.target encode dbPath name = some pool →
      o.path encode dbPath ≠ manifestPath encode dbPath pool name ∧
      ¬InSnapshots encode dbPath pool name (o.path encode dbPath)

section

variable {encode dbPath} {name : Name}

theorem index_entry_inIndex (paths : Paths encode) (sequence : UInt64) :
    InIndex encode dbPath name (snapshotIndexPath encode dbPath (snapshotId name sequence)) := by
  have whole : snapshotIndexPath encode dbPath (snapshotId name sequence) =
      indexFront encode dbPath name ++ (Nat.toDigits 10 sequence.toNat ++ jsonSuffix) := by
    rw [snapshotIndexPath_text paths]
    simp [indexFront]
  rw [whole]
  have more : Nat.toDigits 10 sequence.toNat ++ jsonSuffix ≠ [] := by
    simp
  exact ⟨List.prefix_append _ _, lt_append _ more⟩

theorem not_inIndex (paths : Paths encode) {o : Stored} (other : o.owner ≠ some name) :
    ¬InIndex encode dbPath name (o.path encode dbPath) := by
  rintro ⟨starts, -⟩
  cases o with
  | inPool pool o => exact pool_not_indexed paths starts
  | indexEntry n sequence =>
    exact other (congrArg some (owner_of_indexFront paths starts).symm)
  | definition n => exact definition_not_indexed paths starts

end

/-- A purge that returns `Ok` is complete exactly if it finds all there is of the export. -/
theorem purge_complete (paths : Paths encode) (stable : Stable encode dbPath) (r : Replies)
    (name : Name) (s t : State) (apart : Apart encode dbPath name s)
    (ok : removeExport encode dbPath r name s = (t, true)) :
    Complete encode dbPath name s t ↔ Found encode dbPath r name s := by
  have kept := removeExport_ok paths stable ok
  constructor
  · intro complete key own there
    have gone := mt (kept key).mpr (complete.own key own)
    rw [not_and, not_not] at gone
    rcases gone there with rfl | indexed | found
    · obtain ⟨pool, -, same | ⟨sequence, same⟩⟩ := own
      · exact absurd same.symm (manifest_ne_definition paths)
      · exact absurd same.symm (snapshot_ne_definition paths)
    · obtain ⟨pool, -, rfl | ⟨sequence, rfl⟩⟩ := own
      · exact absurd indexed.1 (pool_not_indexed paths)
      · exact absurd indexed.1 (pool_not_indexed paths)
    · exact found
  · intro found
    refine ⟨?_, ?_, ?_, ?_⟩
    · intro key own left
      obtain ⟨there, kept⟩ := (kept key).mp left
      exact kept (.inr (.inr (found key own there)))
    · intro sequence left
      exact ((kept _).mp left).2 (.inr (.inl (index_entry_inIndex paths sequence)))
    · intro left
      exact ((kept _).mp left).2 (.inl rfl)
    · intro o mem other there
      obtain ⟨definition, pools⟩ := apart o mem other
      refine (kept _).mpr ⟨there, ?_⟩
      rintro (same | indexed | ⟨pool, target, same | ⟨inside, -⟩⟩)
      · exact definition same
      · exact not_inIndex paths other indexed
      · exact (pools pool target).1 same
      · exact (pools pool target).2 inside

section

variable {encode dbPath} {name : Name} {s : State} {pool : List Char}

theorem snapshot_inSnapshots (paths : Paths encode) (sequence : UInt64) :
    InSnapshots encode dbPath pool name (snapshotPath encode dbPath pool name sequence) := by
  have split : root encode dbPath ++
        (poolParts encode pool ++ (StoredObject.snapshot name sequence).parts) =
      root encode dbPath ++ (poolParts encode pool ++ [snapshotsDir, name.text]) ++
        [sequenceText sequence] := by simp [StoredObject.parts]
  rw [InSnapshots, snapshotsFront_eq paths, snapshotPath, location_pool paths, split,
    render_concat _ (by simp [poolParts])]
  exact ⟨sequenceText sequence, by simp⟩

/-- An export that used one pool is found there. -/
theorem found_of_pool (paths : Paths encode) {r : Replies}
    (target : s.target encode dbPath name = some pool) (home : ∀ p ∈ s.used, p = pool)
    (drops : ∀ key ∈ s.s3.keys, r.Drops key) : Found encode dbPath r name s := by
  rintro key ⟨p, used, own⟩ there
  obtain rfl := home p used
  refine ⟨p, target, ?_⟩
  rcases own with same | ⟨sequence, rfl⟩
  · exact .inl same
  · exact .inr ⟨snapshot_inSnapshots paths sequence, drops _ there⟩

/-- The pool has a name of one part. -/
def Single (pool : List Char) : Prop := ∃ part, names pool = [part]

/-- An object in the directory of the snapshots, by its parts. -/
theorem below_snapshots (paths : Paths encode) {o : Stored}
    (inside : InSnapshots encode dbPath pool name (o.path encode dbPath)) :
    poolParts encode pool ++ [snapshotsDir, name.text] <+: o.parts encode := by
  have dir : ValidNames (root encode dbPath ++ (poolParts encode pool ++ [snapshotsDir, name.text])) :=
    (root_valid paths).append
      ((poolParts_valid paths).append (validNames_indexed (snapshots_indexed name)))
  rw [InSnapshots, snapshotsFront_eq paths, o.path_eq paths, ← List.isPrefixOf_iff_prefix] at inside
  have below := below_of_text dir ((root_valid paths).append (o.parts_valid paths))
    (by simp [poolParts]) inside
  exact (List.prefix_append_right_inj _).mp below.1

theorem manifest_eq_inPool (paths : Paths encode) {p : List Char} {o : StoredObject}
    (first : Single pool) (second : Single p)
    (same : (Stored.inPool p o).path encode dbPath = manifestPath encode dbPath pool name) :
    o = .exportManifest name := by
  obtain ⟨q, single⟩ := first
  obtain ⟨q', single'⟩ := second
  have parts := parts_of_path paths (y := .inPool pool (.exportManifest name)) same
  simp only [Stored.parts, poolParts, single, single', List.map_singleton, List.cons_append,
    List.nil_append, List.cons.injEq, true_and] at parts
  cases o with
  | exportManifest n =>
    simp only [StoredObject.parts, List.cons.injEq, and_true, true_and] at parts
    rw [Name.eq parts.2]
  | base | snapshot | pack => simp [StoredObject.parts] at parts

theorem snapshots_inPool (paths : Paths encode) {p : List Char} {o : StoredObject}
    (first : Single pool) (second : Single p)
    (inside : InSnapshots encode dbPath pool name ((Stored.inPool p o).path encode dbPath)) :
    ∃ sequence, o = .snapshot name sequence := by
  obtain ⟨q, single⟩ := first
  obtain ⟨q', single'⟩ := second
  have below := below_snapshots paths inside
  simp only [Stored.parts, poolParts, single, single', List.map_singleton, List.cons_append,
    List.nil_append, List.cons_prefix_cons, true_and] at below
  obtain ⟨-, below⟩ := below
  cases o with
  | snapshot n sequence =>
    simp only [StoredObject.parts, List.cons_prefix_cons, List.nil_prefix, and_true,
      true_and] at below
    exact ⟨sequence, by rw [Name.eq below]⟩
  | exportManifest | base | pack =>
    exact absurd (List.cons_prefix_cons.mp below).1 (by decide)

/-- The objects of the others lie apart if the pools have names of one part. -/
theorem apart_of_single (paths : Paths encode)
    (pools : ∀ pool, s.target encode dbPath name = some pool → Single pool)
    (others : ∀ pool o, .inPool pool o ∈ s.others → Single pool) : Apart encode dbPath name s := by
  intro o mem other
  cases o with
  | inPool p o =>
    have single := others p o mem
    refine ⟨?_, fun pool target => ⟨?_, ?_⟩⟩
    · intro same
      obtain ⟨q, single⟩ := single
      have lengths := congrArg List.length (parts_of_path paths (y := .definition name) same)
      cases o <;> simp [Stored.parts, poolParts, single, StoredObject.parts] at lengths
    · intro same
      obtain rfl := manifest_eq_inPool paths (pools pool target) single same
      exact other rfl
    · intro inside
      obtain ⟨sequence, rfl⟩ := snapshots_inPool paths (pools pool target) single inside
      exact other rfl
  | indexEntry n sequence =>
    have apart : indexDir ≠ exportsDir := by decide
    refine ⟨?_, fun pool target => ⟨?_, ?_⟩⟩
    · intro same
      have parts := parts_of_path paths (y := .definition name) same
      exact apart (List.cons.inj parts).1
    · intro same
      have parts := parts_of_path paths (y := .inPool pool (.exportManifest name)) same
      exact apart (List.cons.inj parts).1
    · intro inside
      exact apart (List.cons_prefix_cons.mp (below_snapshots paths inside)).1.symm
  | definition n =>
    refine ⟨?_, fun pool target => ⟨?_, ?_⟩⟩
    · intro same
      have parts := parts_of_path paths (y := .definition name) same
      simp only [Stored.parts, List.cons.injEq, and_true, true_and] at parts
      exact other (congrArg some (Name.eq parts))
    · intro same
      obtain ⟨q, single⟩ := pools pool target
      have lengths := congrArg List.length
        (parts_of_path paths (y := .inPool pool (.exportManifest name)) same)
      simp [Stored.parts, poolParts, single, StoredObject.parts] at lengths
    · intro inside
      obtain ⟨q, single⟩ := pools pool target
      have lengths := (below_snapshots paths inside).length_le
      simp [Stored.parts, poolParts, single] at lengths

end

/-- A database below one name. -/
def db : List Char := ['d', 'b']

def noPrefix : ExportConfig := ⟨none⟩

def allOk : Replies where
  load := true
  manifest := .ok
  circuit := true
  listed _ := true
  snapshot _ := .ok
  indexError := none
  index _ := .ok
  definition := .ok

/-- An export is created and saved, and a snapshot is taken of it. -/
def snapshotted : List Act :=
  [.create noPrefix, .save .ok, .putManifest .ok, .snapshot 1 .ok .ok]

theorem paths_id : Paths id where
  toPathParts := pathParts_id
  atSign := fun _ _ _ _ => rfl

def vm2 : Name := ⟨['v', 'm', '2'], rfl⟩

/-- The deletion of the manifest fails. -/
def manifestKept : Replies := { allOk with manifest := .failed }

def vm2Manifest : Stored := .inPool vm2.text (.exportManifest vm2)

/-- Another export is in a pool of its own. The first purge fails, and the second is told by the
    definition where to look. -/
theorem second_purge_complete :
    ∃ s t, exec (step id db vm1) initial
        (.other vm2Manifest (some .bytes) :: snapshotted ++ [.purge manifestKept]) = some s ∧
      removeExport id db allOk vm1 s = (t, true) ∧ Complete id db vm1 s t := by
  have ends : (exec (step id db vm1) initial
      (.other vm2Manifest (some .bytes) :: snapshotted ++ [.purge manifestKept])).any (fun s =>
        (removeExport id db allOk vm1 s).2 && decide (s.target id db vm1 = some vm1.text ∧
          s.used = [vm1.text] ∧ s.others = [vm2Manifest])) = true := by decide +kernel
  obtain ⟨s, run, rest⟩ := exists_of_any ends
  rw [Bool.and_eq_true, decide_eq_true_eq] at rest
  obtain ⟨ok, target, used, others⟩ := rest
  have single : Single vm1.text ∧ Single vm2.text := ⟨⟨_, rfl⟩, ⟨_, rfl⟩⟩
  have apart : Apart id db vm1 s := by
    apply apart_of_single paths_id
    · intro pool found
      rw [target] at found
      cases found
      exact single.1
    · intro pool o mem
      rw [others, List.mem_singleton] at mem
      cases mem
      exact single.2
  refine ⟨s, _, run, Prod.ext rfl ok, ?_⟩
  apply (purge_complete id db paths_id (fun _ _ => rfl) allOk vm1 s _ apart (Prod.ext rfl ok)).mpr
  apply found_of_pool paths_id target
  · simp [used]
  · intro key there
    exact ⟨rfl, nofun⟩

/-- The deletion of a snapshot fails. -/
def snapshotKept : Replies := { allOk with snapshot := fun _ => .failed }

theorem exists_purged {history : List Act} {r : Replies} {path : List Char}
    (ends : (exec (step id db vm1) initial history).any (fun s =>
      (removeExport id db r vm1 s).2 && (path ∈ (removeExport id db r vm1 s).1.s3.keys)) = true) :
    ∃ s t, exec (step id db vm1) initial history = some s ∧
      removeExport id db r vm1 s = (t, true) ∧ path ∈ t.s3.keys := by
  obtain ⟨s, run, rest⟩ := exists_of_any ends
  rw [Bool.and_eq_true, decide_eq_true_eq] at rest
  exact ⟨s, _, run, Prod.ext rfl rest.1, rest.2⟩

/-- A purge that could not delete a snapshot returns `Ok`. So does the second purge of an export
    whose definition could not be saved, after the first could not delete its manifest. -/
theorem incomplete_purges :
    (∃ s t, exec (step id db vm1) initial snapshotted = some s ∧
      removeExport id db snapshotKept vm1 s = (t, true) ∧
      snapshotPath id db vm1.text vm1 1 ∈ t.s3.keys) ∧
    (∃ s t, exec (step id db vm1) initial [.create noPrefix, .save .failed, .putManifest .ok,
        .purge manifestKept] = some s ∧
      removeExport id db allOk vm1 s = (t, true) ∧
      manifestPath id db vm1.text vm1 ∈ t.s3.keys) :=
  ⟨exists_purged (by decide +kernel), exists_purged (by decide +kernel)⟩

end GlideFS.Router.Purge
