import GlideFS.Lib.Paths

/-! # Extracting the layers of an image

`extract_merged_rootfs` goes through the entries of all layers, bottom layer first.
An entry that is no marker is left to the tar crate. A whiteout removes the path it
names, an opaque marker everything in its directory; both paths are the entry's
name joined onto the root, so they lead wherever `..` and the links that are there
lead them.
-/

namespace GlideFS.Oci

open Lib

abbrev FileName := List Char

/-! ## Names of entries -/

/-- `trim_start_matches("./")`. -/
def trimDotSlash : List Char → List Char
  | '.' :: '/' :: rest => trimDotSlash rest
  | name => name

def normalise (name : List Char) : List Char := (trimDotSlash name).dropWhile (· = '/')

/-- `rsplit_once('/')`, with an empty directory where there is none. -/
def splitName (norm : List Char) : List Char × List Char :=
  let file := (norm.reverse.takeWhile (· ≠ '/')).reverse
  ((norm.take (norm.length - file.length)).dropLast, file)

def component : List Char → Component FileName
  | [] | ['.'] => .current
  | ['.', '.'] => .parent
  | n => .name n

def components (path : List Char) : List (Component FileName) := (path.splitOn '/').map component

def opaqueMarker : List Char := ['.', 'w', 'h', '.', '.', 'w', 'h', '.', '.', 'o', 'p', 'q']

/-- The rest of a name that begins with `.wh.`. -/
def whiteoutName : List Char → Option (List Char)
  | '.' :: 'w' :: 'h' :: '.' :: base => some base
  | _ => none

inductive EntryKind where
  | skipped
  | opaqueDir (dir : List (Component FileName))
  | whiteout (target : List (Component FileName))
  | unpacked
  deriving DecidableEq

/-- What an entry is, by its name. -/
def entryKind (name : List Char) : EntryKind :=
  let norm := normalise name
  if norm.isEmpty then .skipped
  else
    let (dir, file) := splitName norm
    if file = opaqueMarker then .opaqueDir (components dir)
    else
      match whiteoutName file with
      | some base => .whiteout (components dir ++ [component base])
      | none => .unpacked

/-! ## Extraction -/

section Extraction

variable {β Entry : Type}

/-- What the code outside does: the tar crate's `unpack_in`, the order in which a directory is
    listed, and what calls that remove files fail to remove. -/
structure Host (β Entry : Type) where
  unpackIn : Entry → Files FileName β → Files FileName β
  listing : Files FileName β → List FileName → List FileName
  stays : Files FileName β → List FileName → Bool

/-- The limit of the kernel. -/
def maxSymlinks : Nat := 40

/-- The directory to extract to: a path and where it really is. The path does not lead through the
    directory itself. -/
structure RootDir (fs : Files FileName β) where
  start : List FileName
  path : List (Component FileName)
  real : List FileName
  resolves : resolve fs true maxSymlinks start path = some real
  stable : ∀ later : Files FileName β, (∀ p, ¬real <+: p → later p = fs p) → ¬IsLink later real →
    ∀ d, resolve later true maxSymlinks start path = some d → d = real

/-- `remove_any`: a directory with all that is in it, or a single file or link. -/
def removeAny (host : Host β Entry) (start : List FileName) (path : List (Component FileName))
    (fs : Files FileName β) : Files FileName β :=
  match resolve fs false maxSymlinks start path with
  | none => fs
  | some target =>
      if isDir fs target then prune fs target (host.stays fs) else unlink fs target (host.stays fs)

/-- The markers an opaque directory stands for: each name it lists is removed by its path. -/
def clearDir (host : Host β Entry) (start : List FileName) (path : List (Component FileName))
    (fs : Files FileName β) : Files FileName β :=
  match resolve fs true maxSymlinks start path with
  | none => fs
  | some dir =>
      if isDir fs dir then
        (host.listing fs dir).foldl (fun fs n => removeAny host start (path ++ [.name n]) fs) fs
      else fs

def extractEntry (host : Host β Entry) (start : List FileName) (path : List (Component FileName))
    (fs : Files FileName β) (e : List Char × Entry) : Files FileName β :=
  match entryKind e.1 with
  | .skipped => fs
  | .opaqueDir dir => clearDir host start (path ++ dir) fs
  | .whiteout target => removeAny host start (path ++ target) fs
  | .unpacked => host.unpackIn e.2 fs

/-- The entries of each layer, up to one that cannot be read. -/
def extractMergedRootfs (host : Host β Entry) (start : List FileName) (path : List (Component FileName))
    (layers : List (List (List Char × Entry))) (fs : Files FileName β) : Files FileName β :=
  layers.foldl (fun fs layer => layer.foldl (extractEntry host start path) fs) fs

/-! ## What markers lead to -/

/-- The path of a whiteout, or the directory of an opaque marker, leads to nothing or to a
    location inside. -/
def MarkerInside (real start : List FileName) (path : List (Component FileName))
    (fs : Files FileName β) (name : List Char) : Prop :=
  match entryKind name with
  | .skipped | .unpacked => True
  | .opaqueDir dir => ∀ d, resolve fs true maxSymlinks start (path ++ dir) = some d → real <+: d
  | .whiteout target => ∀ t, resolve fs false maxSymlinks start (path ++ target) = some t → real <+: t

/-- The path of a marker below the root. -/
def EntryKind.path : EntryKind → List (Component FileName)
  | .opaqueDir dir => dir
  | .whiteout target => target
  | .skipped | .unpacked => []

/-- The part of it that is resolved to a directory. -/
def EntryKind.dirs : EntryKind → List (Component FileName)
  | .whiteout target => target.dropLast
  | kind => kind.path

/-- A location on the way of a marker of the layers. -/
def OnTheWay (real : List FileName) (entries : List (List Char × Entry)) (p : List FileName) : Prop :=
  ∃ e ∈ entries, ∃ q, q <+: (entryKind e.1).dirs ∧ p = real ++ namesOn q

/-- No marker goes up, and no directory on the way of one is a link before, or is made one by
    unpacking an entry. -/
structure Plain (host : Host β Entry) (real : List FileName) (fs : Files FileName β)
    (entries : List (List Char × Entry)) : Prop where
  up : ∀ e ∈ entries, .parent ∉ (entryKind e.1).path
  before : ∀ p, OnTheWay real entries p → ¬IsLink fs p
  made : ∀ p, OnTheWay real entries p → ∀ e ∈ entries, ∀ fs,
    IsLink (host.unpackIn e.2 fs) p → IsLink fs p

variable {host : Host β Entry} {real start : List FileName} {path : List (Component FileName)}
  {fs : Files FileName β}

theorem shrunk_removeAny : Shrunk fs (removeAny host start path fs) := by
  rw [removeAny]
  split
  · exact .refl fs
  · split
    · exact shrunk_prune _ _ _
    · exact shrunk_unlink _ _ _

variable {p : List FileName} {e : List Char × Entry}

/-- Nothing outside is removed if the path leads inside. -/
theorem removeAny_outside
    (inside : ∀ t, resolve fs false maxSymlinks start path = some t → real <+: t)
    (outside : ¬real <+: p) : removeAny host start path fs p = fs p := by
  rw [removeAny]
  cases there : resolve fs false maxSymlinks start path with
  | none => rfl
  | some target =>
    dsimp only
    split
    · exact prune_outside (inside target there) outside
    · exact unlink_outside (inside target there) outside

/-- What is removed on the way takes nothing but files away, so the later names of the directory
    lead inside as well. -/
theorem removeNames_outside
    (inside : ∀ d, resolve fs true maxSymlinks start path = some d → real <+: d)
    (outside : ¬real <+: p) (names : List FileName) {less : Files FileName β}
    (shrunk : Shrunk fs less) :
    names.foldl (fun fs n => removeAny host start (path ++ [.name n]) fs) less p = less p := by
  induction names generalizing less with
  | nil => rfl
  | cons n names ih =>
    rw [List.foldl_cons, ih (shrunk.trans shrunk_removeAny)]
    refine removeAny_outside (fun t there => ?_) outside
    obtain ⟨d, dir, rfl⟩ := resolve_name there
    exact (inside d (resolve_of_shrunk shrunk dir)).trans (List.prefix_append d [n])

theorem clearDir_outside
    (inside : ∀ d, resolve fs true maxSymlinks start path = some d → real <+: d)
    (outside : ¬real <+: p) : clearDir host start path fs p = fs p := by
  rw [clearDir]
  cases resolve fs true maxSymlinks start path with
  | none => rfl
  | some dir =>
    dsimp only
    split
    · exact removeNames_outside inside outside _ (.refl fs)
    · rfl

theorem extractEntry_outside (confined : ∀ e fs p, ¬real <+: p → host.unpackIn e fs p = fs p)
    (inside : MarkerInside real start path fs e.1) (outside : ¬real <+: p) :
    extractEntry host start path fs e p = fs p := by
  rw [extractEntry]
  rw [MarkerInside] at inside
  cases kind : entryKind e.1 with
  | skipped => rfl
  | opaqueDir dir =>
    rw [kind] at inside
    exact clearDir_outside inside outside
  | whiteout target =>
    rw [kind] at inside
    exact removeAny_outside inside outside
  | unpacked => exact confined e.2 fs p outside

theorem shrunk_clearDir : Shrunk fs (clearDir host start path fs) := by
  rw [clearDir]
  split
  · exact .refl fs
  · split
    · generalize host.listing fs _ = listed
      suffices all : ∀ less, Shrunk fs less → Shrunk fs
          (listed.foldl (fun fs n => removeAny host start (path ++ [.name n]) fs) less) from
        all fs (.refl fs)
      induction listed with
      | nil => exact fun less shrunk => shrunk
      | cons n listed ih => exact fun less shrunk => ih _ (shrunk.trans shrunk_removeAny)
    · exact .refl fs

/-- An entry makes no link but by being unpacked. -/
theorem extractEntry_link (made : ∀ fs, IsLink (host.unpackIn e.2 fs) p → IsLink fs p)
    (link : IsLink (extractEntry host start path fs e) p) : IsLink fs p := by
  rw [extractEntry] at link
  cases kind : entryKind e.1 with
  | skipped =>
    rw [kind] at link
    exact link
  | opaqueDir dir =>
    rw [kind] at link
    exact shrunk_clearDir.isLink link
  | whiteout target =>
    rw [kind] at link
    exact shrunk_removeAny.isLink link
  | unpacked =>
    rw [kind] at link
    exact made fs link

/-- A path that does not go up leads inside when no directory on its way is a link. -/
theorem leads_inside (root : ∀ d, resolve fs true maxSymlinks start path = some d → d = real)
    (follow : Bool) {rest : List (Component FileName)} (up : .parent ∉ rest) (more : rest ≠ [])
    (plain : ∀ q, q <+: (if follow then rest else rest.dropLast) → ¬IsLink fs (real ++ namesOn q))
    {t : List FileName} (there : resolve fs follow maxSymlinks start (path ++ rest) = some t) :
    real <+: t := by
  obtain ⟨d, first, n, last⟩ := resolve_append more there
  cases root d first
  exact resolve_below up plain last

theorem marker_path (name : List Char) :
    entryKind name = .skipped ∨ entryKind name = .unpacked ∨ (entryKind name).path ≠ [] := by
  unfold entryKind
  dsimp only
  split
  · exact .inl rfl
  · refine .inr ?_
    split
    · exact .inr (by simp [EntryKind.path, components, List.splitOn_ne_nil])
    · split
      · exact .inr (by simp [EntryKind.path])
      · exact .inl rfl

theorem markerInside_of_plain {entries : List (List Char × Entry)} (listed : e ∈ entries)
    (up : .parent ∉ (entryKind e.1).path) (plain : ∀ p, OnTheWay real entries p → ¬IsLink fs p)
    (root : ∀ d, resolve fs true maxSymlinks start path = some d → d = real) :
    MarkerInside real start path fs e.1 := by
  have way (q : List (Component FileName)) (first : q <+: (entryKind e.1).dirs) :
      ¬IsLink fs (real ++ namesOn q) := plain _ ⟨e, listed, q, first, rfl⟩
  have more := marker_path e.1
  unfold MarkerInside
  cases kind : entryKind e.1 with
  | skipped | unpacked => trivial
  | opaqueDir dir =>
    rw [kind] at up way more
    have more : dir ≠ [] := by simpa [EntryKind.path] using more
    exact fun d there => leads_inside root true up more way there
  | whiteout target =>
    rw [kind] at up way more
    have more : target ≠ [] := by simpa [EntryKind.path] using more
    exact fun t there => leads_inside root false up more way there

/-- **Extraction stays inside.** Layers whose markers do not go up and lead through no link leave
    everything outside the root as it is. -/
theorem extraction_stays_inside {fs : Files FileName β} (root : RootDir fs) (host : Host β Entry)
    (confined : ∀ e fs p, ¬root.real <+: p → host.unpackIn e fs p = fs p)
    (layers : List (List (List Char × Entry))) (plain : Plain host root.real fs layers.flatten)
    (p : List FileName) (outside : ¬root.real <+: p) :
    extractMergedRootfs host root.start root.path layers fs p = fs p := by
  rw [extractMergedRootfs, ← List.foldl_flatten]
  -- what was extracted so far has changed nothing outside, and has put no link on the way
  suffices all : ∀ entries ⊆ layers.flatten, ∀ later : Files FileName β,
      (∀ p, ¬root.real <+: p → later p = fs p) →
      (∀ p, OnTheWay root.real layers.flatten p → ¬IsLink later p) →
      entries.foldl (extractEntry host root.start root.path) later p = fs p from
    all _ (List.Subset.refl _) fs (fun _ _ => rfl) plain.before
  intro entries
  induction entries with
  | nil => exact fun _ later same _ => same p outside
  | cons e rest ih =>
    intro listed later same unlinked
    have here : e ∈ layers.flatten := listed List.mem_cons_self
    have unlinkedRoot : ¬IsLink later root.real :=
      unlinked _ ⟨e, here, [], List.nil_prefix, by simp [namesOn]⟩
    have inside := markerInside_of_plain here (plain.up e here) unlinked
      (root.stable later same unlinkedRoot)
    refine ih (fun _ mem => listed (List.mem_cons_of_mem e mem)) _ (fun p out => ?_)
      fun p way link => ?_
    · rw [extractEntry_outside confined inside out]
      exact same p out
    · exact unlinked p way (extractEntry_link (plain.made p way e here) link)

end Extraction

/-! ## A whiteout that leads out -/

/-- A directory `r` and a file `v` beside it. -/
private def besideRoot : Files FileName Unit := fun p =>
  if p = [] ∨ p = [['r']] then some .dir else if p = [['v']] ∨ p = [['r'], ['a']] then some (.file ()) else none

private def besideRootDir : RootDir besideRoot where
  start := []
  path := [.name ['r']]
  real := [['r']]
  resolves := by decide
  stable later _ unlinked d there := by
    change walk later true _ [] [.name ['r']] = some d at there
    rw [walk, List.nil_append] at there
    cases here : later [['r']] with
    | none => simp [here] at there
    | some node =>
      cases node with
      | dir | file content => simpa [here, walk, eq_comm] using there
      | link absolute target => exact absurd ⟨absolute, target, here⟩ unlinked

/-- A host whose calls to remove files succeed, and an `unpack_in` that does nothing. -/
private def plainHost : Host Unit Unit := ⟨fun _ fs => fs, fun _ _ => [], fun _ _ => false⟩

/-- A layer with the one entry `../.wh.v` removes the file beside the root. -/
theorem whiteout_above_root_removes :
    ∃ (fs : Files FileName Unit) (root : RootDir fs) (host : Host Unit Unit)
      (layers : List (List (List Char × Unit))) (p : List FileName),
      (∀ e fs p, ¬root.real <+: p → host.unpackIn e fs p = fs p) ∧ ¬root.real <+: p ∧
        extractMergedRootfs host root.start root.path layers fs p ≠ fs p := by
  refine ⟨besideRoot, besideRootDir, plainHost, [[(['.', '.', '/', '.', 'w', 'h', '.', 'v'], ())]], [['v']],
    fun _ _ _ _ => rfl, by decide, ?_⟩
  decide +kernel

/-- A layer with the one entry `.wh.a`. -/
private def whiteoutInRoot : List (List (List Char × Unit)) := [[(['.', 'w', 'h', '.', 'a'], ())]]

theorem whiteout_in_root_stays_inside :
    Plain plainHost besideRootDir.real besideRoot whiteoutInRoot.flatten ∧
      extractMergedRootfs plainHost besideRootDir.start besideRootDir.path whiteoutInRoot besideRoot
        [['r'], ['a']] = none ∧
      extractMergedRootfs plainHost besideRootDir.start besideRootDir.path whiteoutInRoot besideRoot
        [['v']] = besideRoot [['v']] := by
  have unlinked (p : List FileName) : ¬IsLink besideRoot p := by
    rintro ⟨absolute, target, here⟩
    unfold besideRoot at here
    split at here
    · cases here
    · split at here <;> cases here
  have plain : Plain plainHost besideRootDir.real besideRoot whiteoutInRoot.flatten := by
    refine ⟨?_, fun p _ => unlinked p, fun _ _ _ _ _ link => link⟩
    decide +kernel
  exact ⟨plain, by decide +kernel, extraction_stays_inside besideRootDir plainHost
    (fun _ _ _ _ => rfl) whiteoutInRoot plain _ (by decide)⟩

end GlideFS.Oci
