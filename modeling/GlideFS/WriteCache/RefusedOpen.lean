import GlideFS.WriteCache.Reopen

/-! # Opening a cache that another process has open

One process has the cache of an export open; others call `WriteCache::open` on the
same files. An opening opens the data file, loads the metadata, replays the log,
writes the entries to `wal.tmp`, renames it over the log and only then, in
`Wal::open`, looks whether the lockfile names a live process. The owner appends to
the file it opened, which may have lost its name by then; so may the data file of
the opening, when the owner rotates.

Log files are numbered; number 0 is the one the owner appends to, and its entries
are those of the owner's cache.
-/

namespace GlideFS.WriteCache.RefusedOpen

open Block Lib Cache

variable {Hash PackId : Type} [DecidableEq Hash] [DecidableEq PackId] {g : Geometry}
  {C : Codec (BlockData g.blockSize) Hash PackId}

inductive OpenResult (n : Nat) where
  | locked
  | io
  /-- The files as `open` found them. -/
  | opened (d : Disk n)

/-- How far an opening is: what it loaded, the entries it replayed, its `wal.tmp`. -/
inductive OpenStage (n : Nat) where
  | begun
  | dataOpened
  | loaded (m : Metadata)
  | replaying (m : Metadata) (file pos : Nat) (entries : List WalEntry)
  | replayed (m : Metadata) (entries : List WalEntry)
  | created (m : Metadata) (entries : List WalEntry) (file : Nat)
  | written (m : Metadata) (entries : List WalEntry) (file : Nat)
  | renamed (m : Metadata) (entries : List WalEntry)
  | returned (r : OpenResult n)

/-- The file an opening writes its entries to. -/
def OpenStage.tmpFile {n : Nat} : OpenStage n → Option Nat
  | .created _ _ file | .written _ _ file => some file
  | _ => none

/-- The opening has the data file open. -/
def OpenStage.hasData {n : Nat} : OpenStage n → Bool
  | .begun | .returned _ => false
  | _ => true

/-- The owner, the log files by number, what the names `wal` and `wal.tmp` stand for, the
    lockfile and the openings of other processes. After the crash `owner` is the state the
    owner left. -/
structure Site (g : Geometry) (C : Codec (BlockData g.blockSize) Hash PackId) where
  owner : Cache g C
  alive : Bool
  ownerPid : Nat
  files : Nat → List WalEntry
  nextFile : Nat
  wal : Nat
  tmp : Option Nat
  lockPid : Option Nat
  /-- The process that holds the `flock`. -/
  flock : Option Nat
  openings : Nat → Option (Nat × OpenStage g.blockSize)
  /-- The data files of openings that the owner does not write to, or no longer. -/
  handles : Nat → Option (DataFile g.blockSize)

inductive SiteAct where
  | owner (a : Act)
  | crash
  /-- Another process calls `open`. -/
  | beginOpen (id pid : Nat)
  | continueOpen (id : Nat)
  /-- `Wal::open` fails with another error than that of the lock; so may the second call. -/
  | failLog (id : Nat) (again : Bool)
  | killOpener (id : Nat)

/-- The active file is renamed and another one takes its place. -/
def replacesActive : Act → Bool
  | .rotate .ok => true
  | _ => false

namespace Site

def log (s : Site g C) (file : Nat) : List WalEntry :=
  if file = 0 then s.owner.wal else s.files file

/-- `process_alive`, of the processes that matter. -/
def processAlive (s : Site g C) (pid : Nat) : Bool := s.alive && pid = s.ownerPid

def setOpening (s : Site g C) (id pid : Nat) (stage : OpenStage g.blockSize) : Site g C :=
  { s with openings := Function.update s.openings id (some (pid, stage)) }

/-- The data file an opening has open. -/
def dataFile (s : Site g C) (id : Nat) : DataFile g.blockSize := (s.handles id).getD s.owner.active

/-- What an opening process loaded and replayed, with the data file it opened. -/
def view (s : Site g C) (id : Nat) (m : Metadata) (entries : List WalEntry) : Disk g.blockSize :=
  { s.owner.crash with active := s.dataFile id, metadata := some m, wal := entries }

/-- What an opening finds that reads what the owner left. -/
def left (s : Site g C) : Disk g.blockSize :=
  { s.owner.crash with metadata := some s.owner.loaded, wal := s.owner.crash.walEntries }

/-- `Wal::open`, by a process that is neither the owner nor its child. -/
def lockWal (s : Site g C) (pid : Nat) (d : Disk g.blockSize) : Site g C × OpenResult g.blockSize :=
  match s.lockPid with
  | some holder =>
      if s.processAlive holder then (s, .locked)
      else if s.flock.isSome then (s, .locked)
      else ({ s with lockPid := some pid, flock := some pid }, .opened d)
  | none =>
      if s.flock.isSome then (s, .locked)
      else ({ s with lockPid := some pid, flock := some pid }, .opened d)

/-- The next step of an opening. -/
def continueOpen (s : Site g C) (id pid : Nat) : OpenStage g.blockSize → Option (Site g C)
  -- the file under the name, or a new one
  | .begun => some ({ s with
      handles := Function.update s.handles id
        (if s.owner.activeName = ActiveName.active then none else some .sparse) }.setOpening id pid
          .dataOpened)
  | .dataOpened => some (s.setOpening id pid (.loaded s.owner.loaded))
  | .loaded m => some (s.setOpening id pid (.replaying m s.wal 0 []))
  | .replaying m file pos entries =>
      match (s.log file)[pos]? with
      | some e => some (s.setOpening id pid (.replaying m file (pos + 1)
          (if walMinSeq m < e.sequence then entries ++ [e] else entries)))
      | none => some (s.setOpening id pid (.replayed m entries))
  -- `File::create`
  | .replayed m entries =>
      match s.tmp with
      | some file => some ({ s with files := Function.update s.files file [] }.setOpening id pid
          (.created m entries file))
      | none => some ({ s with
          files := Function.update s.files s.nextFile []
          nextFile := s.nextFile + 1
          tmp := some s.nextFile }.setOpening id pid (.created m entries s.nextFile))
  -- `write_all` from the start of the file
  | .created m entries file => some ({ s with
      files := Function.update s.files file
        (entries ++ (s.files file).drop entries.length) }.setOpening id pid
          (.written m entries file))
  | .written m entries _ =>
      match s.tmp with
      | some file => some ({ s with wal := file, tmp := none }.setOpening id pid
          (.renamed m entries))
      | none => some (s.setOpening id pid (.returned .io))
  | .renamed m entries =>
      let (t, r) := s.lockWal pid (s.view id m entries)
      some (t.setOpening id pid (.returned r))
  | .returned _ => none

/-- The log is removed, and `Wal::open` is called again. -/
def failLog (s : Site g C) (id pid : Nat) (again : Bool) :
    OpenStage g.blockSize → Option (Site g C)
  | .renamed m entries =>
      let s := { s with
        files := Function.update s.files s.nextFile []
        nextFile := s.nextFile + 1
        wal := s.nextFile }
      if again then some (s.setOpening id pid (.returned .io))
      else
        let (t, r) := s.lockWal pid (s.view id m entries)
        some (t.setOpening id pid (.returned r))
  | _ => none

/-- The entries an open would replay now. -/
def found (s : Site g C) : List WalEntry :=
  (s.log s.wal).filter fun e => walMinSeq s.owner.loaded < e.sequence

end Site

def step (s : Site g C) : SiteAct → Option (Site g C)
  | .owner a =>
      if s.alive then (a.step s.owner).map fun owner => { s with
        owner
        handles := if replacesActive a then fun id => some (s.dataFile id) else s.handles }
      else none
  | .crash =>
      if s.alive then
        some { s with
          alive := false
          flock := if s.flock = some s.ownerPid then none else s.flock }
      else none
  | .beginOpen id pid =>
      if (s.openings id).isNone ∧ pid ≠ s.ownerPid then some (s.setOpening id pid .begun) else none
  | .continueOpen id => do
      let (pid, stage) ← s.openings id
      s.continueOpen id pid stage
  | .failLog id again => do
      let (pid, stage) ← s.openings id
      s.failLog id pid again stage
  -- killed before `open` returns
  | .killOpener id => do
      let (_, stage) ← s.openings id
      match stage with
      | .returned _ => none
      | _ => some { s with openings := Function.update s.openings id none }

/-- The owner just opened the cache on the files of `d`. -/
structure Start (s : Site g C) : Prop where
  owner : ∃ (d : Disk g.blockSize) (v : Volume C), s.owner = openCache d v.store v.manifest
  alive : s.alive = true
  wal : s.wal = 0
  tmp : s.tmp = none
  nextFile : 0 < s.nextFile
  openings : ∀ id, s.openings id = none

/-! ## The condition -/

/-- What the opening has read so far is what the files hold when the owner is gone. -/
def OpenStage.Current (s : Site g C) : OpenStage g.blockSize → Prop
  | .begun | .dataOpened | .returned _ => True
  | .loaded m => m = s.owner.loaded
  | .replaying m file pos entries => m = s.owner.loaded ∧
      (s.log file).filter (fun e => walMinSeq s.owner.loaded < e.sequence) =
        s.owner.crash.walEntries ∧
      entries = ((s.log file).take pos).filter fun e => walMinSeq s.owner.loaded < e.sequence
  | .replayed m entries | .created m entries _ | .written m entries _ | .renamed m entries =>
      m = s.owner.loaded ∧ entries = s.owner.crash.walEntries

/-- The owner crashes where its own log is enough and still what the name `wal` leads to, and
    no opening has read something else or opened another data file; openings do not share
    `wal.tmp` and do not create the data file; while the owner lives the lockfile names it, and
    a log is not removed twice, nor after the crash if there is something in it. -/
def SiteAct.Harmless (s : Site g C) : SiteAct → Prop
  | .owner a => a.Recoverable s.owner
  | .crash => s.owner.Placed ∧ s.found = s.owner.crash.walEntries ∧
      ∀ id pid stage, s.openings id = some (pid, stage) → stage.Current s ∧
        (stage.hasData → s.dataFile id = s.owner.crash.active)
  | .continueOpen id => ∀ pid stage, s.openings id = some (pid, stage) →
      match stage with
      | .begun => s.alive → s.owner.activeName = .active
      | .replayed _ _ => ∀ id' pid' stage', id' ≠ id → s.openings id' = some (pid', stage') →
          stage'.tmpFile = none
      | .renamed _ _ => s.alive → s.lockPid = some s.ownerPid
      | _ => True
  | .failLog _ again =>
      (s.alive → again = false ∧ s.lockPid = some s.ownerPid) ∧
        (¬s.alive → s.owner.crash.walEntries = [])
  | _ => True

/-! ## The invariant -/

/-- What holds of an opening at any time. -/
def OpenStage.Fits (s : Site g C) : OpenStage g.blockSize → Prop
  | .replaying _ file _ _ => file < s.nextFile ∧ s.tmp ≠ some file
  | .created _ _ file => s.tmp = some file ∧ s.files file = []
  | .written _ entries file => s.tmp = some file ∧ s.files file = entries
  | _ => True

/-- What holds of an opening while the owner lives, and once it is gone. -/
structure OpenInv (s : Site g C) (id : Nat) (stage : OpenStage g.blockSize) : Prop where
  fits : stage.Fits s
  refused : s.alive → ∀ r, stage = .returned r → r = .locked
  current : ¬s.alive → stage.Current s
  opened : ¬s.alive → ∀ d, stage = .returned (.opened d) → d = s.left
  data : ¬s.alive → stage.hasData → s.dataFile id = s.owner.crash.active

structure Inv (s : Site g C) : Prop where
  crash : CrashInv s.owner
  nextFile : 0 < s.nextFile
  wal : s.wal < s.nextFile
  tmp : ∀ file, s.tmp = some file → 0 < file ∧ file ≠ s.wal ∧ file < s.nextFile
  openings : ∀ id pid stage, s.openings id = some (pid, stage) → OpenInv s id stage
  alone : ∀ id pid stage id' pid' stage', s.openings id = some (pid, stage) →
    s.openings id' = some (pid', stage') → stage.tmpFile ≠ none → stage'.tmpFile ≠ none → id = id'
  placed : ¬s.alive → s.owner.Placed
  found : ¬s.alive → s.found = s.owner.crash.walEntries

variable {s t : Site g C}

theorem Start.inv (start : Start s) : Inv s where
  crash := by
    obtain ⟨d, v, opened⟩ := start.owner
    exact opened ▸ openCache_crashInv d v
  nextFile := start.nextFile
  wal := start.wal ▸ start.nextFile
  tmp := by simp [start.tmp]
  openings := by simp [start.openings]
  alone := by simp [start.openings]
  placed := by simp [start.alive]
  found := by simp [start.alive]

variable {id pid : Nat} {stage : OpenStage g.blockSize}

/-- An opening of the next state is the one that moved, or was there before. -/
theorem openings_setOpening {id' pid' : Nat} {stage' : OpenStage g.blockSize}
    (h : (s.setOpening id pid stage).openings id' = some (pid', stage')) :
    id' = id ∧ stage' = stage ∨ id' ≠ id ∧ s.openings id' = some (pid', stage') := by
  by_cases same : id' = id
  · subst same
    cases (Function.update_self ..).symm.trans h
    exact .inl ⟨rfl, rfl⟩
  · exact .inr ⟨same, (Function.update_of_ne same ..).symm.trans h⟩

/-- An opening that has not returned. -/
theorem OpenInv.going (going : ∀ r, stage ≠ .returned r) (fits : stage.Fits s)
    (current : ¬s.alive → stage.Current s)
    (data : ¬s.alive → stage.hasData → s.dataFile id = s.owner.crash.active) :
    OpenInv s id stage :=
  ⟨fits, fun _ r same => (going r same).elim, current, fun _ _ same => (going _ same).elim, data⟩

theorem OpenInv.begun : OpenInv s id .begun := .going nofun trivial (fun _ => trivial) nofun

/-- An opening moves on without touching `wal.tmp`. -/
theorem Inv.advance (I : Inv s) (noFile : stage.tmpFile = none) (new : OpenInv s id stage) :
    Inv (s.setOpening id pid stage) := by
  refine { I with openings := ?_, alone := ?_ }
  · intro id' pid' stage' at_id
    rcases openings_setOpening at_id with ⟨rfl, rfl⟩ | ⟨-, before⟩
    · exact { new with }
    · exact { I.openings id' pid' stage' before with }
  · intro a pa sa b pb sb at_a at_b tmp_a tmp_b
    rcases openings_setOpening at_a with ⟨-, rfl⟩ | ⟨-, before_a⟩
    · exact (tmp_a noFile).elim
    · rcases openings_setOpening at_b with ⟨-, rfl⟩ | ⟨-, before_b⟩
      · exact (tmp_b noFile).elim
      · exact I.alone a pa sa b pb sb before_a before_b tmp_a tmp_b

section

variable {wal nextFile : Nat} {files : Nat → List WalEntry} {tmp : Option Nat}

/-- Log files change, but not those that an opening replays or writes. -/
theorem OpenInv.refile (h : OpenInv s id stage) (grows : s.nextFile ≤ nextFile)
    (kept : ∀ file, file < s.nextFile → s.tmp ≠ some file → files file = s.files file ∧ tmp ≠ some file)
    (held : stage.tmpFile ≠ none → ∀ file, s.tmp = some file →
      tmp = some file ∧ files file = s.files file) :
    OpenInv { s with files, nextFile, wal, tmp } id stage := by
  have fits := h.fits
  cases stage with
  | replaying m file pos entries =>
    obtain ⟨same, unnamed⟩ := kept file fits.1 fits.2
    have log : Site.log { s with files, nextFile, wal, tmp } file = s.log file := by
      simp only [Site.log, same]
    exact .going nofun ⟨fits.1.trans_le grows, unnamed⟩ (fun dead =>
      ⟨(h.current dead).1, log ▸ (h.current dead).2.1, log ▸ (h.current dead).2.2⟩) h.data
  | created m entries file | written m entries file =>
    obtain ⟨named, same⟩ := held nofun file fits.1
    exact .going nofun ⟨named, same.trans fits.2⟩ h.current h.data
  | begun | dataOpened | loaded | replayed | renamed | returned => exact { h with }

/-- An opening moves on and touches `wal.tmp`, which no other opening uses. -/
theorem Inv.retarget (I : Inv s)
    (others : ∀ id' pid' stage', id' ≠ id → s.openings id' = some (pid', stage') → stage'.tmpFile = none)
    (grows : s.nextFile ≤ nextFile) (below : wal < nextFile)
    (apart : ∀ file, tmp = some file → 0 < file ∧ file ≠ wal ∧ file < nextFile)
    (kept : ∀ file, file < s.nextFile → s.tmp ≠ some file → files file = s.files file ∧ tmp ≠ some file)
    (found : ¬s.alive → Site.found { s with files, nextFile, wal, tmp } = s.owner.crash.walEntries)
    (new : OpenInv { s with files, nextFile, wal, tmp } id stage) :
    Inv (Site.setOpening { s with files, nextFile, wal, tmp } id pid stage) := by
  refine { I with
    nextFile := I.nextFile.trans_le grows, wal := below, tmp := apart, found := found
    openings := ?_, alone := ?_ }
  · intro id' pid' stage' at_id
    rcases openings_setOpening at_id with ⟨rfl, rfl⟩ | ⟨other, before⟩
    · exact { new with }
    · have refiled : OpenInv { s with files, nextFile, wal, tmp } id' stage' :=
        (I.openings id' pid' stage' before).refile grows kept
          fun holds => absurd (others id' pid' stage' other before) holds
      exact { refiled with }
  · intro a pa sa b pb sb at_a at_b tmp_a tmp_b
    rcases openings_setOpening at_a with ⟨rfl, -⟩ | ⟨other, before⟩
    · rcases openings_setOpening at_b with ⟨rfl, -⟩ | ⟨other, before⟩
      · rfl
      · exact (tmp_b (others b pb sb other before)).elim
    · exact (tmp_a (others a pa sa other before)).elim

end

/-- The log under a name other than `wal.tmp` is not written to. -/
theorem found_of_update {file : Nat} {entries : List WalEntry} (other : file ≠ s.wal) :
    Site.found { s with files := Function.update s.files file entries } = s.found := by
  simp only [Site.found, Site.log, Function.update_of_ne other.symm]

/-- Replay of the entries that were replayed. -/
theorem walEntries_left (s : Site g C) : s.left.walEntries = s.owner.crash.walEntries :=
  Disk.walEntries_rewritten rfl rfl

theorem Inv.setLock (I : Inv s) (lockPid flock : Option Nat) : Inv { s with lockPid, flock } :=
  { I with openings := fun id pid stage at_id => { I.openings id pid stage at_id with } }

/-- `Wal::open` refuses while the lockfile names the owner, and afterwards accepts at most
    what was read. -/
theorem lockWal_cases (s : Site g C) (pid : Nat) (d : Disk g.blockSize) :
    s.lockWal pid d = (s, .locked) ∨
      (s.alive → s.lockPid ≠ some s.ownerPid) ∧
        s.lockWal pid d = ({ s with lockPid := some pid, flock := some pid }, .opened d) := by
  unfold Site.lockWal
  split
  · rename_i holder named
    split
    · exact .inl rfl
    · rename_i gone
      split
      · exact .inl rfl
      · refine .inr ⟨fun live same => gone ?_, rfl⟩
        cases named.symm.trans same
        simp [Site.processAlive, live]
  · rename_i unnamed
    split
    · exact .inl rfl
    · exact .inr ⟨fun _ same => by simp [unnamed] at same, rfl⟩

theorem view_eq_left {m : Metadata} {entries : List WalEntry}
    (read : m = s.owner.loaded ∧ entries = s.owner.crash.walEntries)
    (data : s.dataFile id = s.owner.crash.active) : s.view id m entries = s.left := by
  obtain ⟨rfl, rfl⟩ := read
  simp only [Site.view, Site.left, data]

/-- The lock check comes to a refusal, or the owner is gone. -/
theorem Inv.lockWal (I : Inv s) {d : Disk g.blockSize}
    (named : s.alive → s.lockPid = some s.ownerPid) (read : ¬s.alive → d = s.left) :
    Inv ((s.lockWal pid d).1.setOpening id pid (.returned (s.lockWal pid d).2)) := by
  rcases lockWal_cases s pid d with locked | ⟨free, opened⟩
  · rw [locked]
    exact I.advance rfl ⟨trivial, fun _ r same => by cases same; rfl, fun _ => trivial, nofun, nofun⟩
  · rw [opened]
    have dead : ¬s.alive = true := fun live => free live (named live)
    refine (I.setLock _ _).advance rfl
      ⟨trivial, fun live => absurd live dead, fun _ => trivial, fun _ d' same => ?_, nofun⟩
    cases same
    exact read dead

theorem Inv.setHandle (I : Inv s) (begun : s.openings id = some (pid, .begun))
    (handle : Option (DataFile g.blockSize)) :
    Inv { s with handles := Function.update s.handles id handle } := by
  refine { I with openings := fun id' pid' stage at_id => ?_ }
  have old := I.openings id' pid' stage at_id
  by_cases same : id' = id
  · subst same
    cases begun.symm.trans at_id
    exact .begun
  · refine { old with data := ?_ }
    simp only [Site.dataFile, Function.update_of_ne same]
    exact old.data

/-- The name `wal` leads to a new, empty file. -/
theorem Inv.removeLog (I : Inv s) (empty : ¬s.alive → s.owner.crash.walEntries = []) :
    Inv { s with
      files := Function.update s.files s.nextFile []
      nextFile := s.nextFile + 1
      wal := s.nextFile } := by
  have kept (file : Nat) (below : file < s.nextFile) :
      Function.update s.files s.nextFile [] file = s.files file := Function.update_of_ne below.ne ..
  refine { I with
    nextFile := Nat.succ_pos _, wal := Nat.lt_succ_self _
    tmp := fun file named => ?_, openings := fun id pid stage at_id => ?_, found := fun dead => ?_ }
  · obtain ⟨pos, -, below⟩ := I.tmp file named
    exact ⟨pos, below.ne, below.trans (Nat.lt_succ_self _)⟩
  · exact (I.openings id pid stage at_id).refile (Nat.le_succ _)
      (fun file below unnamed => ⟨kept file below, unnamed⟩)
      fun _ file named => ⟨named, kept file (I.tmp file named).2.2⟩
  · simp [Site.found, Site.log, I.nextFile.ne', empty dead]

theorem Inv.continueOpen (I : Inv s) (at_id : s.openings id = some (pid, stage))
    (harmless : (SiteAct.continueOpen id).Harmless s) (h : s.continueOpen id pid stage = some t) :
    Inv t := by
  have old := I.openings id pid stage at_id
  -- a holder of `wal.tmp` is the only one
  have others : stage.tmpFile ≠ none → ∀ id' pid' stage', id' ≠ id →
      s.openings id' = some (pid', stage') → stage'.tmpFile = none := by
    intro holds id' pid' stage' other at_id'
    by_contra holds'
    exact other (I.alone id' pid' stage' id pid stage at_id' at_id holds' holds)
  cases stage with
  | begun =>
    cases h
    refine (I.setHandle at_id _).advance rfl (.going nofun trivial (fun _ => trivial) fun _ _ => ?_)
    simp only [Site.dataFile, Function.update_self, Cache.crash]
    by_cases kept : s.owner.activeName = ActiveName.active <;> simp [kept]
  | dataOpened =>
    cases h
    exact I.advance rfl (.going nofun trivial (fun _ => rfl) old.data)
  | loaded m =>
    cases h
    refine I.advance rfl (.going nofun ⟨I.wal, fun same => (I.tmp s.wal same).2.1 rfl⟩ ?_ old.data)
    exact fun dead => ⟨old.current dead, I.found dead, by simp⟩
  | replaying m file pos entries =>
    simp only [Site.continueOpen] at h
    split at h
    · rename_i e at_pos
      cases h
      refine I.advance rfl (.going nofun old.fits (fun dead => ?_) old.data)
      obtain ⟨same, whole, read⟩ := old.current dead
      refine ⟨same, whole, ?_⟩
      rw [List.take_add_one, at_pos, List.filter_append, ← read, same]
      by_cases later : walMinSeq s.owner.loaded < e.sequence <;> simp [later]
    · rename_i past
      cases h
      refine I.advance rfl (.going nofun trivial (fun dead => ?_) old.data)
      obtain ⟨same, whole, read⟩ := old.current dead
      refine ⟨same, ?_⟩
      rw [read, List.take_of_length_le (List.getElem?_eq_none_iff.mp past), whole]
  | replayed m entries =>
    have others := harmless pid _ at_id
    simp only [Site.continueOpen] at h
    split at h
    · rename_i file named
      cases h
      obtain ⟨pos, other, below⟩ := I.tmp file named
      refine I.retarget others le_rfl I.wal I.tmp ?_
        (fun dead => (found_of_update other).trans (I.found dead))
        (.going nofun ⟨named, Function.update_self ..⟩ old.current old.data)
      intro file' _ unnamed
      have differs : file' ≠ file := fun same => unnamed (same ▸ named)
      exact ⟨Function.update_of_ne differs .., unnamed⟩
    · cases h
      refine I.retarget others (Nat.le_succ _) (I.wal.trans (Nat.lt_succ_self _)) ?_ ?_
        (fun dead => (found_of_update I.wal.ne').trans (I.found dead))
        (.going nofun ⟨rfl, Function.update_self ..⟩ old.current old.data)
      · rintro _ ⟨⟩
        exact ⟨I.nextFile, I.wal.ne', Nat.lt_succ_self _⟩
      · intro file' below _
        refine ⟨Function.update_of_ne below.ne .., fun same => ?_⟩
        cases same
        exact below.ne rfl
  | created m entries file =>
    cases h
    obtain ⟨named, empty⟩ := old.fits
    refine I.retarget (others nofun) le_rfl I.wal I.tmp ?_
      (fun dead => (found_of_update (I.tmp file named).2.1).trans (I.found dead))
      (.going nofun ⟨named, by simp [empty]⟩ old.current old.data)
    intro file' _ unnamed
    have differs : file' ≠ file := fun same => unnamed (same ▸ named)
    exact ⟨Function.update_of_ne differs .., unnamed⟩
  | written m entries file =>
    obtain ⟨named, whole⟩ := old.fits
    simp only [Site.continueOpen, named] at h
    cases h
    obtain ⟨pos, -, below⟩ := I.tmp file named
    refine I.retarget (others nofun) le_rfl below nofun (fun _ _ _ => ⟨rfl, nofun⟩) (fun dead => ?_)
      (.going nofun trivial old.current old.data)
    simp only [Site.found, Site.log, if_neg pos.ne', whole, (old.current dead).2]
    exact walEntries_left s
  | renamed m entries =>
    cases h
    exact I.lockWal (harmless pid _ at_id) fun dead => view_eq_left (old.current dead) (old.data dead rfl)
  | returned r => cases h

theorem Inv.failLog (I : Inv s) {again : Bool} (at_id : s.openings id = some (pid, stage))
    (harmless : (SiteAct.failLog id again).Harmless s) (h : s.failLog id pid again stage = some t) :
    Inv t := by
  have old := I.openings id pid stage at_id
  cases stage with
  | renamed m entries =>
    have emptied := I.removeLog harmless.2
    simp only [Site.failLog] at h
    split at h
    · rename_i twice
      cases h
      have dead : ¬s.alive = true := by
        intro live
        simp [(harmless.1 live).1] at twice
      exact emptied.advance rfl ⟨trivial, fun live => absurd live dead, fun _ => trivial, nofun, nofun⟩
    · cases h
      exact emptied.lockWal (fun live => (harmless.1 live).2) fun dead =>
        view_eq_left (old.current dead) (old.data dead rfl)
  | _ => cases h

theorem step_inv (I : Inv s) {a : SiteAct} (harmless : a.Harmless s) (h : step s a = some t) :
    Inv t := by
  cases a with
  | owner a =>
    simp only [step] at h
    split at h
    · rename_i live
      obtain ⟨owner, taken, rfl⟩ := Option.map_eq_some_iff.mp h
      have gone {P : Prop} (dead : ¬s.alive = true) : P := absurd live dead
      refine { I with
        crash := step_crashInv I.crash harmless taken
        openings := fun id pid stage at_id => ?_
        placed := gone, found := gone }
      have old := I.openings id pid stage at_id
      exact ⟨old.fits, old.refused, gone, gone, gone⟩
    · cases h
  | crash =>
    simp only [step] at h
    split at h
    · rename_i live
      cases h
      obtain ⟨placed, found, current⟩ := harmless
      refine { I with
        openings := fun id pid stage at_id => ?_
        placed := fun _ => placed, found := fun _ => found }
      have old := I.openings id pid stage at_id
      obtain ⟨read, data⟩ := current id pid stage at_id
      refine ⟨old.fits, nofun, fun _ => read, fun _ d same => ?_, fun _ => data⟩
      cases old.refused live _ same
    · cases h
  | beginOpen id pid =>
    simp only [step] at h
    split at h
    · cases h
      exact I.advance rfl .begun
    · cases h
  | continueOpen id =>
    obtain ⟨⟨pid, stage⟩, at_id, h⟩ := Option.bind_eq_some_iff.mp h
    exact I.continueOpen at_id harmless h
  | failLog id again =>
    obtain ⟨⟨pid, stage⟩, at_id, h⟩ := Option.bind_eq_some_iff.mp h
    exact I.failLog at_id harmless h
  | killOpener id =>
    obtain ⟨⟨pid, stage⟩, -, h⟩ := Option.bind_eq_some_iff.mp h
    have killed : t = { s with openings := Function.update s.openings id none } := by
      cases stage <;> cases h <;> rfl
    have left : ∀ {id' p}, t.openings id' = some p → s.openings id' = some p := by
      rw [killed]
      intro id' p at_id'
      by_cases same : id' = id
      · subst same
        simp at at_id'
      · exact (Function.update_of_ne same ..).symm.trans at_id'
    subst killed
    exact
      { I with
        openings := fun id' pid' stage' at_id' => { I.openings id' pid' stage' (left at_id') with }
        alone := fun a pa sa b pb sb at_a at_b => I.alone a pa sa b pb sb (left at_a) (left at_b) }

/-! ## Openings while the owner lives and after its crash -/

/-- In every run of harmless steps: an open that returns while the owner lives returns Locked,
    and one that succeeds after its crash has every block whose last acknowledged content S3
    does not have, DIRTY and with that content. -/
theorem refused_opens_harm_nothing (start : Start s)
    (run : Reach step (fun s a => a.Harmless s) s t) {r : OpenResult g.blockSize}
    (returned : t.openings id = some (pid, .returned r)) :
    (t.alive → r = .locked) ∧ ∀ d, r = .opened d → ∀ b, g.InRange b →
      t.owner.acked b ≠ t.owner.content t.owner.durable b → d.Holds g b (t.owner.acked b) := by
  have inv : Inv t := Reach.invariant (I := Inv) start.inv
    (fun _ _ _ I harmless taken => step_inv I harmless taken) run
  have kept := inv.openings id pid _ returned
  refine ⟨fun live => kept.refused live r rfl, ?_⟩
  rintro d rfl b range unsaved
  have dead : ¬t.alive := fun live => by cases kept.refused live _ rfl
  cases kept.opened dead d rfl
  have holds : t.owner.crash.Holds g b (t.owner.acked b) :=
    (inv.crash.recovers_block range unsaved).mpr (inv.placed dead b range unsaved)
  exact holds.congr rfl (walEntries_left t) rfl rfl

/-- Process 1 has just opened a new cache. -/
def newSite : Site oneBlockDevice (.plain 16) where
  owner := newCache
  alive := true
  ownerPid := 1
  files := fun _ => []
  nextFile := 1
  wal := 0
  tmp := none
  lockPid := some 1
  flock := some 1
  openings := fun _ => none
  handles := fun _ => none

theorem newSite_start : Start newSite :=
  ⟨⟨.new, .new, rfl⟩, rfl, rfl, rfl, Nat.zero_lt_one, fun _ => rfl⟩

/-- A whole `open` on a log of `n` entries, by process `pid`. -/
def wholeOpen (id pid n : Nat) : List SiteAct :=
  .beginOpen id pid :: List.replicate (n + 8) (.continueOpen id)

/-- What an open returned, if it did. -/
def Site.result (s : Site g C) (id : Nat) : Option (OpenResult g.blockSize) :=
  (s.openings id).bind fun p => match p.2 with
    | .returned r => some r
    | _ => none

/-- The files an open that succeeded found. -/
def Site.openedDisk (s : Site g C) (id : Nat) : Option (Disk g.blockSize) :=
  (s.result id).bind fun r => match r with
    | .opened d => some d
    | _ => none

theorem openings_of_openedDisk {d : Disk g.blockSize} (h : s.openedDisk id = some d) :
    ∃ pid, s.openings id = some (pid, .returned (.opened d)) := by
  obtain ⟨r, result, opened⟩ := Option.bind_eq_some_iff.mp h
  obtain ⟨⟨pid, stage⟩, at_id, returned⟩ := Option.bind_eq_some_iff.mp result
  refine ⟨pid, ?_⟩
  cases stage <;> cases returned
  cases r <;> cases opened
  exact at_id

/-- No opening but `id` is at work, and a live owner is named in the lockfile and has its data
    file under the name. -/
def Site.Quiet (s : Site g C) (id : Nat) : Prop :=
  (∀ id' pid stage, id' ≠ id → s.openings id' = some (pid, stage) → ∃ r, stage = .returned r) ∧
    (s.alive → s.lockPid = some s.ownerPid ∧ s.owner.activeName = ActiveName.active)

theorem Site.Quiet.harmless (quiet : s.Quiet id) : (SiteAct.continueOpen id).Harmless s := by
  intro pid stage _
  cases stage with
  | replayed =>
    intro id' pid' stage' other at_id'
    obtain ⟨r, rfl⟩ := quiet.1 id' pid' stage' other at_id'
    rfl
  | begun => exact fun live => (quiet.2 live).2
  | renamed => exact fun live => (quiet.2 live).1
  | dataOpened | loaded | replaying | created | written | returned => trivial

theorem Site.Quiet.setOpening (quiet : s.Quiet id) : (s.setOpening id pid stage).Quiet id := by
  refine ⟨fun id' pid' stage' other at_id' => ?_, quiet.2⟩
  rcases openings_setOpening at_id' with ⟨same, -⟩ | ⟨-, before⟩
  · exact (other same).elim
  · exact quiet.1 id' pid' stage' other before

theorem Site.Quiet.continueOpen (quiet : s.Quiet id) (h : s.continueOpen id pid stage = some t) :
    t.Quiet id := by
  unfold Site.continueOpen at h
  split at h
  case h_8 m entries =>
    rcases lockWal_cases s pid (s.view id m entries) with locked | ⟨free, opened⟩
    · rw [locked] at h
      cases h
      exact quiet.setOpening
    · rw [opened] at h
      cases h
      have quiet : ({ s with lockPid := some pid, flock := some pid } : Site g C).Quiet id :=
        ⟨quiet.1, fun live => (free live (quiet.2 live).1).elim⟩
      exact quiet.setOpening
  all_goals
    repeat' split at h
    all_goals cases h
    all_goals exact Site.Quiet.setOpening quiet

/-- The steps of the only opening at work are harmless. -/
theorem steps_continueOpen {n : Nat} (quiet : s.Quiet id)
    (h : exec step s (List.replicate n (.continueOpen id)) = some t) :
    Steps step (fun s a => a.Harmless s) s (List.replicate n (.continueOpen id)) t ∧ t.Quiet id := by
  induction n generalizing s with
  | zero =>
    cases h
    exact ⟨rfl, quiet⟩
  | succ n ih =>
    obtain ⟨u, taken, rest⟩ := Option.bind_eq_some_iff.mp h
    obtain ⟨⟨pid, stage⟩, -, continued⟩ := Option.bind_eq_some_iff.mp taken
    obtain ⟨more, quiet'⟩ := ih (quiet.continueOpen continued) rest
    exact ⟨⟨quiet.harmless, u, taken, more⟩, quiet'⟩

/-- A whole open is harmless when no other opening is at work, and once it has returned,
    none is. -/
theorem steps_wholeOpen {n : Nat} (quiet : ∀ id, s.Quiet id)
    (h : exec step s (wholeOpen id pid n) = some t) (done : (t.result id).isSome) :
    Steps step (fun s a => a.Harmless s) s (wholeOpen id pid n) t ∧ ∀ id, t.Quiet id := by
  obtain ⟨u, begun, rest⟩ := Option.bind_eq_some_iff.mp h
  have harmless : (SiteAct.beginOpen id pid).Harmless s := trivial
  have quiet' : u.Quiet id := by
    simp only [step] at begun
    split at begun
    · cases begun
      exact (quiet id).setOpening
    · cases begun
  obtain ⟨more, quiet'⟩ := steps_continueOpen quiet' rest
  refine ⟨⟨harmless, u, begun, more⟩, fun id' => ⟨?_, quiet'.2⟩⟩
  intro a pa stage _ at_a
  by_cases same : a = id
  · subst same
    simp only [Site.result, at_a, Option.bind_some] at done
    cases stage with
    | returned r => exact ⟨r, rfl⟩
    | begun | dataOpened | loaded | replaying | replayed | created | written | renamed => cases done
  · exact quiet'.1 a pa stage same at_a

private theorem write_then_refused_open :
    (step newSite (.owner (.write 0 [1]))).bind (fun s =>
      (exec step s (wholeOpen 0 2 1)).bind fun t =>
        (step t .crash).bind fun u =>
          (exec step u (wholeOpen 1 3 1)).bind fun w =>
            (w.openedDisk 1).map fun _ =>
              (s.owner.activeName = ActiveName.active ∧ t.found = t.owner.crash.walEntries ∧ t.owner.flushingPath.isNone ∧
                (t.result 0).isSome ∧ w.owner.acked 0 ≠ w.owner.content w.owner.durable 0 : Bool)) =
      some true := by
  decide +kernel

/-- A write, an open that is refused, a crash: the next open finds the write. -/
theorem write_before_refused_open_recovered : ∃ (t : Site oneBlockDevice (.plain 16))
    (pid : Nat) (d : Disk 16),
      Steps step (fun s a => a.Harmless s) newSite
        (.owner (.write 0 [1]) :: wholeOpen 0 2 1 ++ .crash :: wholeOpen 1 3 1) t ∧
      t.openings 1 = some (pid, .returned (.opened d)) ∧
      t.owner.acked 0 ≠ t.owner.content t.owner.durable 0 ∧
      d.Holds oneBlockDevice 0 (t.owner.acked 0) := by
  obtain ⟨s, written, rest⟩ := Option.bind_eq_some_iff.mp write_then_refused_open
  obtain ⟨t, refused, rest⟩ := Option.bind_eq_some_iff.mp rest
  obtain ⟨u, crashed, rest⟩ := Option.bind_eq_some_iff.mp rest
  obtain ⟨w, reopened, rest⟩ := Option.bind_eq_some_iff.mp rest
  obtain ⟨d, opened, result⟩ := Option.map_eq_some_iff.mp rest
  obtain ⟨named, found, unflushed, done, unsaved⟩ := of_decide_eq_true result
  obtain ⟨pid, at_id⟩ := openings_of_openedDisk opened
  -- no opening is at work before the refused one, and none at the crash
  have harmless : (SiteAct.owner (.write 0 [1])).Harmless newSite := first_write_recoverable
  have quiet : ∀ id, s.Quiet id := by
    simp only [step, newSite, ↓reduceIte, Option.map_eq_some_iff] at written
    obtain ⟨owner, -, rfl⟩ := written
    exact fun id => ⟨nofun, fun _ => ⟨rfl, named⟩⟩
  obtain ⟨refusal, quiet⟩ := steps_wholeOpen quiet refused done
  have crash : SiteAct.crash.Harmless t := by
    refine ⟨fun b _ _ f flushing => ?_, found, fun id pid stage at_id => ?_⟩
    · simp [flushing] at unflushed
    · obtain ⟨r, rfl⟩ := (quiet (id + 1)).1 id pid stage (by omega) at_id
      exact ⟨trivial, nofun⟩
  have quiet : ∀ id, u.Quiet id := by
    simp only [step] at crashed
    split at crashed
    · cases crashed
      exact fun id => ⟨(quiet id).1, nofun⟩
    · cases crashed
  have done : (w.result 1).isSome := by
    obtain ⟨r, result, -⟩ := Option.bind_eq_some_iff.mp opened
    simp [result]
  have run : Steps step (fun s a => a.Harmless s) newSite
      (.owner (.write 0 [1]) :: wholeOpen 0 2 1 ++ .crash :: wholeOpen 1 3 1) w :=
    ⟨harmless, s, written,
      steps_append refusal ⟨crash, u, crashed, (steps_wholeOpen quiet reopened done).1⟩⟩
  exact ⟨w, pid, d, run, at_id, unsaved,
    (refused_opens_harm_nothing newSite_start (reach_steps run) at_id).2 d rfl 0 (by decide) unsaved⟩

private theorem refused_open_then_write :
    (exec step newSite (wholeOpen 0 2 0 ++ [.owner (.write 0 [1]), .crash] ++ wholeOpen 1 3 0)).bind
      (fun t => (t.openedDisk 1).map fun d =>
        (d.openStates oneBlockDevice 0,
          decide (t.owner.acked 0 = t.owner.content t.owner.durable 0))) =
      some (.notPresent, false) := by
  decide +kernel

/-- An open that is refused, a write of the owner, its crash: the next open finds no trace of
    the write. -/
theorem write_after_refused_open_lost : ∃ (t : Site oneBlockDevice (.plain 16)) (id pid : Nat)
    (d : Disk 16), Reach step anyStep newSite t ∧
      t.openings id = some (pid, .returned (.opened d)) ∧
      t.owner.acked 0 ≠ t.owner.content t.owner.durable 0 ∧
      ¬d.Holds oneBlockDevice 0 (t.owner.acked 0) := by
  obtain ⟨t, run, rest⟩ := Option.bind_eq_some_iff.mp refused_open_then_write
  obtain ⟨d, opened, result⟩ := Option.map_eq_some_iff.mp rest
  simp only [Prod.mk.injEq, decide_eq_false_iff_not] at result
  obtain ⟨pid, at_id⟩ := openings_of_openedDisk opened
  refine ⟨t, 1, pid, d, reach_exec run, at_id, result.2, fun holds => ?_⟩
  cases result.1.symm.trans holds.1

end GlideFS.WriteCache.RefusedOpen
