import GlideFS.Block.BlockMap
import GlideFS.Lib.Ranges

/-! # The packed sparse state map

States of blocks take two bits each, four to a byte, in pages that are allocated when a block in
them first gets a state. The map is the array of the states: no call changes another entry. The
calls run one after the other, so a `compare_exchange` finds the byte its loop has just read and
each loop ends in its first turn.
-/

namespace GlideFS.Block

open Lib

def SparseBlockState.code : SparseBlockState → UInt8
  | notPresent => 0
  | clean => 1
  | dirty => 2
  | syncing => 3

inductive DirtyTransition where
  | alreadyDirty
  | fromCleanOrNotPresent
  | fromSyncing
deriving DecidableEq

def entriesPerByte : Nat := 4

def statePageBytes : Nat := 4096

def statePageEntries : Nat := statePageBytes * entriesPerByte

def statePageBits : Nat := 14

/-- The bytes of a page; a new page is zeros. -/
abbrev StatePage := Nat → UInt8

structure SparseStateMap where
  directory : Nat → Option StatePage
  numPages : Nat
  numEntries : Nat

namespace SparseStateMap

def new (numEntries : Nat) : SparseStateMap where
  directory := fun _ => none
  numPages := (numEntries + statePageEntries - 1) / statePageEntries
  numEntries := numEntries

/-! ## Entries of a byte -/

/-- The entry at a shift of the byte. -/
def entry (v shift : UInt8) : UInt8 := v >>> shift &&& 3

/-- The byte with the entry at a shift replaced. -/
def withEntry (v shift state : UInt8) : UInt8 := v &&& ~~~(3 <<< shift) ||| state <<< shift

def shiftOf (slot : Nat) : UInt8 := UInt8.ofNat (slot % entriesPerByte * 2)

/-- `split_index`: the page, the byte in it and the shift in the byte. -/
def splitIndex (idx : Nat) : Nat × Nat × UInt8 :=
  (idx >>> statePageBits, (idx &&& (statePageEntries - 1)) / entriesPerByte, shiftOf idx)

variable (m : SparseStateMap)

def ensurePage (page : Nat) : SparseStateMap × StatePage :=
  match m.directory page with
  | some data => (m, data)
  | none => ({ m with directory := Function.update m.directory page (some fun _ => 0) }, fun _ => 0)

def setByte (page byte : Nat) (data : StatePage) (v : UInt8) : SparseStateMap :=
  { m with directory := Function.update m.directory page (some (Function.update data byte v)) }

/-! ## The calls -/

def get (idx : Nat) : UInt8 :=
  let (page, byte, shift) := splitIndex idx
  match m.directory page with
  | some data => entry (data byte) shift
  | none => SparseBlockState.notPresent.code

def trySetPresent (idx : Nat) : Bool × SparseStateMap :=
  let (page, byte, shift) := splitIndex idx
  let (m, data) := m.ensurePage page
  if entry (data byte) shift ≠ SparseBlockState.notPresent.code then (false, m)
  else (true, m.setByte page byte data (withEntry (data byte) shift SparseBlockState.clean.code))

/-- The loop of `cas` on the byte. -/
def casByte (page byte : Nat) (shift : UInt8) (data : StatePage) (expected new : UInt8) :
    Except UInt8 UInt8 × SparseStateMap :=
  let current := entry (data byte) shift
  if current ≠ expected then (.error current, m)
  else (.ok expected, m.setByte page byte data (withEntry (data byte) shift new))

def cas (idx : Nat) (expected new : UInt8) : Except UInt8 UInt8 × SparseStateMap :=
  let (page, byte, shift) := splitIndex idx
  match m.directory page with
  | some data => m.casByte page byte shift data expected new
  | none =>
      if expected ≠ SparseBlockState.notPresent.code then
        (.error SparseBlockState.notPresent.code, m)
      else if new = SparseBlockState.notPresent.code then
        (.ok SparseBlockState.notPresent.code, m)
      else
        let (m, data) := m.ensurePage page
        m.casByte page byte shift data expected new

/-- A turn of `transition_to_dirty`; without a result the loop takes another turn. -/
def transitionToDirty (idx : Nat) : Option DirtyTransition × SparseStateMap :=
  let current := m.get idx
  if current = SparseBlockState.dirty.code then (some .alreadyDirty, m)
  else if current = SparseBlockState.clean.code ∨ current = SparseBlockState.notPresent.code then
    match m.cas idx current SparseBlockState.dirty.code with
    | (.ok _, m) => (some .fromCleanOrNotPresent, m)
    | (.error _, m) => (none, m)
  else if current = SparseBlockState.syncing.code then
    match m.cas idx SparseBlockState.syncing.code SparseBlockState.dirty.code with
    | (.ok _, m) => (some .fromSyncing, m)
    | (.error _, m) => (none, m)
  -- `unreachable!`
  else (none, m)

def transitionDirtyToSyncing (idx : Nat) : Bool × SparseStateMap :=
  let (result, m) := m.cas idx SparseBlockState.dirty.code SparseBlockState.syncing.code
  (result.isOk, m)

def transitionSyncingToNotPresent (idx : Nat) : Bool × SparseStateMap :=
  let (result, m) := m.cas idx SparseBlockState.syncing.code SparseBlockState.notPresent.code
  (result.isOk, m)

/-! ## The iterators -/

/-- A byte as the iterators load it. -/
def byteAt (page byte : Nat) : UInt8 :=
  match m.directory page with
  | some data => data byte
  | none => 0

/-- The loop of the iterators; a byte of zeros is skipped. -/
def scan {β : Type} (take : Nat → UInt8 → Option β) : List β :=
  (List.range m.numPages).flatMap fun page => (List.range statePageBytes).flatMap fun byte =>
    let v := m.byteAt page byte
    if v = 0 then []
    else (List.range entriesPerByte).filterMap fun slot =>
      let idx := page * statePageEntries + byte * entriesPerByte + slot
      if m.numEntries ≤ idx then none else take idx (entry v (shiftOf slot))

def iterWithState (target : UInt8) : List Nat :=
  m.scan fun idx state => if state = target then some idx else none

def iterPresent : List (Nat × UInt8) :=
  m.scan fun idx state => if state ≠ SparseBlockState.notPresent.code then some (idx, state) else none

/-- `count_present`, which leaves the loop over a byte at the first index past the end. -/
def countPresent : Nat :=
  ((List.range m.numPages).map fun page =>
    match m.directory page with
    | none => 0
    | some data => ((List.range statePageBytes).map fun byte =>
        let v := data byte
        if v = 0 then 0
        else ((List.range entriesPerByte).takeWhile fun slot =>
            page * statePageEntries + byte * entriesPerByte + slot < m.numEntries).countP
          fun slot => entry v (shiftOf slot) ≠ SparseBlockState.notPresent.code).sum).sum

/-! ## The plain array -/

inductive Call (n : Nat) where
  | get (i : Fin n)
  | setPresent (i : Fin n)
  | trySetPresent (i : Fin n)
  | cas (i : Fin n) (expected new : SparseBlockState)
  | transitionToDirty (i : Fin n)
  | transitionDirtyToSyncing (i : Fin n)
  | transitionSyncingToNotPresent (i : Fin n)

/-- What a call returns, with the states as they are or as their codes. -/
inductive Result (σ : Type) where
  | unit
  | state (s : σ)
  | flag (b : Bool)
  | swapped (r : Except σ σ)
  | dirtied (t : Option DirtyTransition)

def Result.map {σ τ : Type} (f : σ → τ) : Result σ → Result τ
  | unit => unit
  | state s => state (f s)
  | flag b => flag b
  | swapped r => swapped (match r with
      | .ok s => .ok (f s)
      | .error s => .error (f s))
  | dirtied t => dirtied t

variable {n : Nat}

def Call.onMap (m : SparseStateMap) : Call n → Result UInt8 × SparseStateMap
  | .get i => (.state (m.get i), m)
  | .setPresent i => (.unit, (m.trySetPresent i).2)
  | .trySetPresent i => (m.trySetPresent i).map .flag id
  | .cas i expected new => (m.cas i expected.code new.code).map .swapped id
  | .transitionToDirty i => (m.transitionToDirty i).map .dirtied id
  | .transitionDirtyToSyncing i => (m.transitionDirtyToSyncing i).map .flag id
  | .transitionSyncingToNotPresent i => (m.transitionSyncingToNotPresent i).map .flag id

abbrev States (n : Nat) := Fin n → SparseBlockState

def casArray (a : States n) (i : Fin n) (expected new : SparseBlockState) :
    Except SparseBlockState SparseBlockState × States n :=
  if a i = expected then (.ok expected, Function.update a i new) else (.error (a i), a)

def Call.onArray (a : States n) : Call n → Result SparseBlockState × States n
  | .get i => (.state (a i), a)
  | .setPresent i => (.unit, (casArray a i .notPresent .clean).2)
  | .trySetPresent i => (.flag (a i = .notPresent), (casArray a i .notPresent .clean).2)
  | .cas i expected new => (casArray a i expected new).map .swapped id
  | .transitionToDirty i => (.dirtied (some (match a i with
      | .dirty => .alreadyDirty
      | .clean | .notPresent => .fromCleanOrNotPresent
      | .syncing => .fromSyncing)), Function.update a i .dirty)
  | .transitionDirtyToSyncing i => (.flag (a i = .dirty), (casArray a i .dirty .syncing).2)
  | .transitionSyncingToNotPresent i =>
      (.flag (a i = .syncing), (casArray a i .syncing .notPresent).2)

/-- Calls one after the other, with their results. -/
def runCalls {σ ρ : Type} (call : σ → Call n → ρ × σ) : σ → List (Call n) → List ρ × σ
  | s, [] => ([], s)
  | s, c :: rest =>
      let (result, next) := call s c
      let (results, last) := runCalls call next rest
      (result :: results, last)

/-! ## The map holds the array -/

/-- The code that belongs at a position of the pages; past the last entry it is 0. -/
def codeAt (a : States n) (k : Nat) : UInt8 := if h : k < n then (a ⟨k, h⟩).code else 0

/-- Every entry of every page is the state of its index. -/
structure Represents (m : SparseStateMap) (a : States n) : Prop where
  size : m.numEntries = n
  pages : m.numPages = (n + statePageEntries - 1) / statePageEntries
  entries : ∀ page, ∀ byte < statePageBytes, ∀ slot < entriesPerByte,
    entry (m.byteAt page byte) (shiftOf slot) =
      codeAt a (page * statePageEntries + byte * entriesPerByte + slot)

/-- Positions in the pages. -/
def pageOf (k : Nat) : Nat := k / statePageEntries

def byteOf (k : Nat) : Nat := k % statePageEntries / entriesPerByte

theorem splitIndex_eq (k : Nat) : splitIndex k = (pageOf k, byteOf k, shiftOf k) := by
  have mask : k &&& (statePageEntries - 1) = k % statePageEntries :=
    Nat.and_two_pow_sub_one_eq_mod k 14
  rw [splitIndex, mask, Nat.shiftRight_eq_div_pow]
  rfl

theorem byteOf_lt (k : Nat) : byteOf k < statePageBytes := by
  simp only [byteOf, statePageEntries, statePageBytes, entriesPerByte]
  omega

theorem position_iff {page byte slot : Nat} (inPage : byte < statePageBytes)
    (inByte : slot < entriesPerByte) (k : Nat) :
    page * statePageEntries + byte * entriesPerByte + slot = k ↔
      page = pageOf k ∧ byte = byteOf k ∧ slot = k % entriesPerByte := by
  simp only [pageOf, byteOf, statePageEntries, statePageBytes, entriesPerByte] at *
  omega

theorem slot_lt (k : Nat) : k % entriesPerByte < entriesPerByte := Nat.mod_lt k (by decide)

theorem position_eq (k : Nat) :
    pageOf k * statePageEntries + byteOf k * entriesPerByte + k % entriesPerByte = k :=
  (position_iff (byteOf_lt k) (slot_lt k) k).mpr ⟨rfl, rfl, rfl⟩

theorem shiftOf_mod (k : Nat) : shiftOf (k % entriesPerByte) = shiftOf k := by
  simp [shiftOf]

/-! Entries of a byte are apart, by the bits of the masks. -/

theorem entry_or (a b shift : UInt8) : entry (a ||| b) shift = entry a shift ||| entry b shift := by
  unfold entry
  rw [UInt8.shiftRight_or]
  apply UInt8.toBitVec_inj.mp
  ext i
  simp [Bool.and_or_distrib_right]

theorem entry_and (a b shift : UInt8) :
    entry (a &&& b) shift = entry a shift &&& entry b shift := by
  unfold entry
  rw [UInt8.shiftRight_and]
  apply UInt8.toBitVec_inj.mp
  ext i
  simp only [UInt8.toBitVec_and, BitVec.getElem_and]
  grind

theorem entry_mask : ∀ slot < entriesPerByte, ∀ other < entriesPerByte,
    entry (~~~(3 <<< shiftOf slot)) (shiftOf other) = if other = slot then 0 else 3 := by
  decide

theorem entry_shifted (state : SparseBlockState) : ∀ slot < entriesPerByte,
    ∀ other < entriesPerByte, entry (state.code <<< shiftOf slot) (shiftOf other) =
      if other = slot then state.code else 0 := by
  cases state <;> decide

theorem entry_withEntry (v : UInt8) (state : SparseBlockState) {slot other : Nat}
    (inByte : slot < entriesPerByte) (inByte' : other < entriesPerByte) :
    entry (withEntry v (shiftOf slot) state.code) (shiftOf other) =
      if other = slot then state.code else entry v (shiftOf other) := by
  rw [withEntry, entry_or, entry_and, entry_mask slot inByte other inByte',
    entry_shifted state slot inByte other inByte']
  split
  · simp
  · have masked : entry v (shiftOf other) &&& 3 = entry v (shiftOf other) := by
      rw [entry, UInt8.and_assoc]
      rfl
    simp [masked]

theorem code_inj {s t : SparseBlockState} : s.code = t.code ↔ s = t := by
  cases s <;> cases t <;> decide

section

variable {m : SparseStateMap} {a : States n} (i : Fin n)

theorem represents_new (n : Nat) : Represents (new n) (fun _ : Fin n => .notPresent) := by
  constructor
  · rfl
  · rfl
  · intro page byte _ slot _
    simp [byteAt, new, entry, codeAt, SparseBlockState.code]

theorem Represents.entry_eq (rep : Represents m a) :
    entry (m.byteAt (pageOf i) (byteOf i)) (shiftOf i) = (a i).code := by
  rw [← shiftOf_mod, rep.entries _ _ (byteOf_lt i) _ (slot_lt i), position_eq, codeAt,
    dif_pos i.isLt]

theorem Represents.get_eq (rep : Represents m a) : m.get i = (a i).code := by
  have here := rep.entry_eq i
  rw [get, splitIndex_eq]
  unfold byteAt at here
  split at here <;> rename_i found
  · simpa only [found] using here
  · simp only [entry, UInt8.zero_shiftRight, UInt8.zero_and] at here
    simp only [found]
    exact here

/-- An allocated page is read as before. -/
theorem Represents.ensurePage (rep : Represents m a) (page : Nat) :
    Represents (m.ensurePage page).1 a ∧
      ∀ byte, (m.ensurePage page).2 byte = m.byteAt page byte := by
  unfold SparseStateMap.ensurePage
  split
  · rename_i data found
    exact ⟨rep, fun byte => by simp [byteAt, found]⟩
  · rename_i missing
    refine ⟨⟨rep.size, rep.pages, fun page' byte inPage slot inByte => ?_⟩, fun byte => ?_⟩
    · rw [← rep.entries page' byte inPage slot inByte]
      by_cases here : page' = page
      · simp [byteAt, here, missing]
      · simp [byteAt, here]
    · simp [byteAt, missing]

/-- The entry of one index is replaced, and no other. -/
theorem Represents.setByte (rep : Represents m a) {data : StatePage} (new : SparseBlockState)
    (same : ∀ byte, data byte = m.byteAt (pageOf i) byte) :
    Represents (m.setByte (pageOf i) (byteOf i) data
        (withEntry (data (byteOf i)) (shiftOf i) new.code)) (Function.update a i new) := by
  refine ⟨rep.size, rep.pages, fun page byte inPage slot inByte => ?_⟩
  have before := rep.entries page byte inPage slot inByte
  have changed : codeAt (Function.update a i new)
      (page * statePageEntries + byte * entriesPerByte + slot) =
      if page * statePageEntries + byte * entriesPerByte + slot = i then new.code
      else codeAt a (page * statePageEntries + byte * entriesPerByte + slot) := by
    unfold codeAt
    split
    · simp only [Function.update_apply, Fin.ext_iff]
      split <;> rfl
    · rename_i past
      rw [if_neg]
      intro here
      exact past (here ▸ i.isLt)
  rw [changed, ← before]
  simp only [position_iff inPage inByte]
  by_cases atPage : page = pageOf i
  · subst atPage
    by_cases atByte : byte = byteOf i
    · subst atByte
      have read : (m.setByte (pageOf i) (byteOf i) data
          (withEntry (data (byteOf i)) (shiftOf i) new.code)).byteAt (pageOf i) (byteOf i) =
          withEntry (data (byteOf i)) (shiftOf i) new.code := by
        simp [byteAt, SparseStateMap.setByte]
      rw [read, ← shiftOf_mod i, entry_withEntry _ _ (slot_lt i) inByte, same]
      simp
    · simp [byteAt, SparseStateMap.setByte, atByte, same]
  · simp [byteAt, SparseStateMap.setByte, atPage]

/-- A call on the map and on the array: the same result, and the map still holds the array. -/
def Agree (onMap : Result UInt8 × SparseStateMap) (onArray : Result SparseBlockState × States n) :
    Prop :=
  onMap.1 = onArray.1.map SparseBlockState.code ∧ Represents onMap.2 onArray.2

theorem Represents.casByte (rep : Represents m a) {data : StatePage}
    (same : ∀ byte, data byte = m.byteAt (pageOf i) byte) (expected new : SparseBlockState) :
    Agree ((m.casByte (pageOf i) (byteOf i) (shiftOf i) data expected.code new.code).map .swapped id)
      ((casArray a i expected new).map .swapped id) := by
  have current := rep.entry_eq i
  rw [← same] at current
  unfold SparseStateMap.casByte casArray
  simp only [current]
  by_cases found : a i = expected
  · rw [if_neg (by simp [found]), if_pos found]
    exact ⟨rfl, rep.setByte i new same⟩
  · rw [if_pos (by simpa [code_inj] using found), if_neg found]
    exact ⟨rfl, rep⟩

theorem Represents.cas (rep : Represents m a) (expected new : SparseBlockState) :
    Agree ((m.cas i expected.code new.code).map .swapped id)
      ((casArray a i expected new).map .swapped id) := by
  simp only [SparseStateMap.cas, splitIndex_eq]
  split
  · rename_i data found
    exact rep.casByte i (fun byte => by simp [byteAt, found]) expected new
  · rename_i missing
    have absent : a i = .notPresent := by
      have here := rep.entry_eq i
      simp only [byteAt, missing, entry, UInt8.zero_shiftRight, UInt8.zero_and] at here
      exact code_inj.mp (here.symm : _ = SparseBlockState.notPresent.code)
    simp only [Ne, code_inj]
    split
    · rename_i other
      rw [casArray, if_neg (by rw [absent]; exact fun same => other same.symm), absent]
      exact ⟨rfl, rep⟩
    · rename_i same
      rw [not_not] at same
      split
      · rename_i nothing
        rw [casArray, if_pos (absent.trans same.symm), same, nothing, ← absent,
          Function.update_eq_self]
        exact ⟨by simp [Result.map, absent], rep⟩
      · obtain ⟨kept, read⟩ := rep.ensurePage (pageOf i)
        have still : ∀ byte, (m.ensurePage (pageOf i)).2 byte =
            (m.ensurePage (pageOf i)).1.byteAt (pageOf i) byte := by
          intro byte
          simp [SparseStateMap.ensurePage, missing, byteAt]
        exact kept.casByte i still expected new

theorem Represents.trySetPresent (rep : Represents m a) :
    Agree ((m.trySetPresent i).map .flag id)
      (.flag (a i = .notPresent), (casArray a i .notPresent .clean).2) := by
  obtain ⟨kept, read⟩ := rep.ensurePage (pageOf i)
  have still : ∀ byte, (m.ensurePage (pageOf i)).2 byte =
      (m.ensurePage (pageOf i)).1.byteAt (pageOf i) byte := by
    intro byte
    unfold SparseStateMap.ensurePage byteAt
    split <;> simp [*]
  have current := kept.entry_eq i
  rw [← still] at current
  simp only [SparseStateMap.trySetPresent, splitIndex_eq, current, casArray]
  by_cases absent : a i = .notPresent
  · rw [if_neg (by simp [absent]), if_pos absent]
    exact ⟨by simp [Result.map, absent], kept.setByte i .clean still⟩
  · rw [if_pos (by simpa [code_inj] using absent), if_neg absent]
    exact ⟨by simp [Result.map, absent], kept⟩

/-- What a swap returns tells whether the entry was as expected. -/
theorem Represents.cas_result (rep : Represents m a) (expected new : SparseBlockState) :
    (m.cas i expected.code new.code).1 =
        (if a i = expected then .ok expected.code else .error (a i).code) ∧
      Represents (m.cas i expected.code new.code).2 (casArray a i expected new).2 := by
  obtain ⟨same, rep⟩ := rep.cas i expected new
  refine ⟨?_, rep⟩
  simp only [Prod.map_fst, casArray] at same
  split at same <;> simp_all [Result.map]

theorem Represents.cas_ok {state : SparseBlockState} (rep : Represents m a) (found : a i = state)
    (new : SparseBlockState) : ∃ m', m.cas i state.code new.code = (.ok state.code, m') ∧
      Represents m' (Function.update a i new) := by
  obtain ⟨result, kept⟩ := rep.cas_result i state new
  rw [if_pos found] at result
  rw [casArray, if_pos found] at kept
  exact ⟨_, Prod.ext result rfl, kept⟩

theorem Represents.transitionToDirty (rep : Represents m a) :
    Agree ((m.transitionToDirty i).map .dirtied id)
      ((Call.transitionToDirty i).onArray a) := by
  simp only [SparseStateMap.transitionToDirty, rep.get_eq i, Call.onArray]
  cases state : a i with
  | notPresent =>
    obtain ⟨m', swapped, kept⟩ := rep.cas_ok i state .dirty
    rw [if_neg (by decide), if_pos (by decide), swapped]
    exact ⟨rfl, kept⟩
  | clean =>
    obtain ⟨m', swapped, kept⟩ := rep.cas_ok i state .dirty
    rw [if_neg (by decide), if_pos (by decide), swapped]
    exact ⟨rfl, kept⟩
  | dirty =>
    have kept : Function.update a i .dirty = a := by rw [← state, Function.update_eq_self]
    rw [if_pos rfl, kept]
    exact ⟨rfl, rep⟩
  | syncing =>
    obtain ⟨m', swapped, kept⟩ := rep.cas_ok i state .dirty
    rw [if_neg (by decide), if_neg (by decide), if_pos rfl, swapped]
    exact ⟨rfl, kept⟩

theorem call_agrees (rep : Represents m a) (call : Call n) :
    Agree (call.onMap m) (call.onArray a) := by
  cases call with
  | get i =>
    refine ⟨?_, rep⟩
    simp [Call.onMap, Call.onArray, Result.map, rep.get_eq i]
  | setPresent i => exact ⟨rfl, (rep.trySetPresent i).2⟩
  | trySetPresent i => exact rep.trySetPresent i
  | cas i expected new => exact rep.cas i expected new
  | transitionToDirty i => exact rep.transitionToDirty i
  | transitionDirtyToSyncing i =>
    obtain ⟨result, kept⟩ := rep.cas_result i .dirty .syncing
    refine ⟨?_, kept⟩
    simp only [Call.onMap, transitionDirtyToSyncing, Prod.map_fst, result, Call.onArray, Result.map]
    split <;> simp_all [Except.isOk, Except.toBool]
  | transitionSyncingToNotPresent i =>
    obtain ⟨result, kept⟩ := rep.cas_result i .syncing .notPresent
    refine ⟨?_, kept⟩
    simp only [Call.onMap, transitionSyncingToNotPresent, Prod.map_fst, result, Call.onArray,
      Result.map]
    split <;> simp_all [Except.isOk, Except.toBool]

theorem calls_agree (rep : Represents m a) (calls : List (Call n)) :
    (runCalls Call.onMap m calls).1 =
        (runCalls Call.onArray a calls).1.map (Result.map SparseBlockState.code) ∧
      Represents (runCalls Call.onMap m calls).2 (runCalls Call.onArray a calls).2 := by
  induction calls generalizing m a with
  | nil => exact ⟨rfl, rep⟩
  | cons call rest ih =>
    obtain ⟨same, kept⟩ := call_agrees rep call
    obtain ⟨results, last⟩ := ih kept
    refine ⟨?_, last⟩
    simp only [runCalls, List.map_cons, same, results]

/-- What the iterators list for one index: nothing if its whole byte is zero. -/
def listed {β : Type} (a : States n) (take : Nat → UInt8 → Option β) (k : Nat) : List β :=
  if k < n ∧ ∃ j : Fin n, j.val / entriesPerByte = k / entriesPerByte ∧ a j ≠ .notPresent then
    (take k (codeAt a k)).toList
  else []

theorem eq_zero_of_entries {v : UInt8}
    (zero : ∀ slot < entriesPerByte, entry v (shiftOf slot) = 0) : v = 0 := by
  have low_bits : ∀ x, x &&& 3 = x % 4 := fun x => Nat.and_two_pow_sub_one_eq_mod x 2
  have digit : ∀ slot < entriesPerByte, v.toNat / 2 ^ (slot * 2) % 4 = 0 := by
    intro slot inByte
    have small : slot % 4 * 2 % 256 % 8 = slot * 2 := by
      simp only [entriesPerByte] at inByte
      omega
    have bits := congrArg UInt8.toNat (zero slot inByte)
    simpa [entry, shiftOf, entriesPerByte, Nat.shiftRight_eq_div_pow, low_bits, small] using bits
  have first := digit 0 (by decide)
  have second := digit 1 (by decide)
  have third := digit 2 (by decide)
  have fourth := digit 3 (by decide)
  have bound := v.toNat_lt
  apply UInt8.toNat_inj.mp
  simp only [Nat.zero_mul, Nat.pow_zero, Nat.one_mul, Nat.reduceMul, Nat.reducePow,
    UInt8.reduceToNat] at first second third fourth bound ⊢
  omega

theorem Represents.byte_eq_zero (rep : Represents m a) {page byte : Nat}
    (inPage : byte < statePageBytes) : m.byteAt page byte = 0 ↔
      ¬∃ j : Fin n, j.val / entriesPerByte = page * statePageBytes + byte ∧ a j ≠ .notPresent := by
  constructor
  · rintro zero ⟨j, inByte, present⟩
    have here : page = pageOf j ∧ byte = byteOf j := by
      simp only [pageOf, byteOf, statePageEntries, statePageBytes, entriesPerByte] at *
      omega
    have code := rep.entry_eq j
    rw [← here.1, ← here.2, zero] at code
    simp only [entry, UInt8.zero_shiftRight, UInt8.zero_and] at code
    exact present (code_inj.mp (code.symm : _ = SparseBlockState.notPresent.code))
  · intro absent
    apply eq_zero_of_entries
    intro slot inByte
    rw [rep.entries page byte inPage slot inByte, codeAt]
    split
    · rename_i inside
      by_contra present
      refine absent ⟨⟨_, inside⟩, ?_, fun none => present (by rw [none]; rfl)⟩
      simp only [statePageEntries, statePageBytes, entriesPerByte] at *
      omega
    · rfl

/-- The loop over a byte, with the check for zero moved to its entries. -/
theorem Represents.scan_byte {β : Type} (rep : Represents m a) (take : Nat → UInt8 → Option β)
    {page byte : Nat} (inPage : byte < statePageBytes) :
    (if m.byteAt page byte = 0 then []
      else (List.range entriesPerByte).filterMap fun slot =>
        let idx := page * statePageEntries + byte * entriesPerByte + slot
        if m.numEntries ≤ idx then none
        else take idx (entry (m.byteAt page byte) (shiftOf slot))) =
      (List.range entriesPerByte).flatMap fun slot =>
        listed a take (page * statePageEntries + (byte * entriesPerByte + slot)) := by
  have group : ∀ slot < entriesPerByte,
      (page * statePageEntries + (byte * entriesPerByte + slot)) / entriesPerByte =
        page * statePageBytes + byte := by
    intro slot inByte
    simp only [statePageEntries, statePageBytes, entriesPerByte] at *
    omega
  split
  · rename_i zero
    symm
    apply List.flatMap_eq_nil_iff.mpr
    intro slot inByte
    rw [listed, group slot (List.mem_range.mp inByte), if_neg]
    exact fun both => (rep.byte_eq_zero inPage).mp zero both.2
  · rename_i nonzero
    have present := not_not.mp (mt (rep.byte_eq_zero inPage).mpr nonzero)
    rw [List.filterMap_eq_flatMap_toList]
    apply List.flatMap_congr
    intro slot inByte
    rw [listed, group slot (List.mem_range.mp inByte), Nat.add_assoc,
      rep.entries page byte inPage slot (List.mem_range.mp inByte), rep.size, Nat.add_assoc]
    by_cases past : n ≤ page * statePageEntries + (byte * entriesPerByte + slot)
    · rw [if_pos past, if_neg fun both => Nat.not_lt.mpr past both.1]
      rfl
    · rw [if_neg past, if_pos ⟨Nat.not_le.mp past, present⟩]

theorem le_pages (n : Nat) :
    n ≤ (n + statePageEntries - 1) / statePageEntries * statePageEntries := by
  simp only [statePageEntries, statePageBytes, entriesPerByte]
  omega

theorem Represents.scan_eq {β : Type} (rep : Represents m a) (take : Nat → UInt8 → Option β) :
    m.scan take = (List.range n).flatMap (listed a take) := by
  have rows : m.scan take = (List.range m.numPages).flatMap fun page =>
      (List.range statePageEntries).flatMap fun j => listed a take (page * statePageEntries + j) := by
    apply List.flatMap_congr
    intro page _
    rw [statePageEntries, ← flatMap_grid]
    apply List.flatMap_congr
    intro byte inPage
    exact rep.scan_byte take (List.mem_range.mp inPage)
  rw [rows, flatMap_grid, rep.pages]
  apply flatMap_range_of_le (le_pages n)
  intro k past
  exact if_neg fun both => Nat.not_lt.mpr past both.1

/-- The entry shares its byte with a present one. -/
def InPresentByte (a : States n) (i : Fin n) : Prop :=
  ∃ j : Fin n, j.val / entriesPerByte = i.val / entriesPerByte ∧ a j ≠ .notPresent

instance (a : States n) (i : Fin n) : Decidable (InPresentByte a i) :=
  inferInstanceAs (Decidable (∃ _, _))

theorem Represents.scan_filter {β : Type} (rep : Represents m a) (q : SparseBlockState → Prop)
    [DecidablePred q] (f : Nat → UInt8 → β) (take : Nat → UInt8 → Option β)
    (takes : ∀ k s, take k s.code = if q s then some (f k s.code) else none) :
    m.scan take = ((List.finRange n).filter fun i => q (a i) ∧ InPresentByte a i).map
      fun i : Fin n => f i (a i).code := by
  have each : ∀ i : Fin n, listed a take i.val =
      if q (a i) ∧ InPresentByte a i then [f i (a i).code] else [] := by
    intro i
    simp only [listed, codeAt, i.isLt, true_and, dite_true, takes]
    change (if InPresentByte a i then _ else _) = _
    by_cases shown : InPresentByte a i <;> by_cases wanted : q (a i) <;> simp [shown, wanted]
  have filtered : ∀ is : List (Fin n), (is.flatMap fun i => listed a take i.val) =
      (is.filter fun i => q (a i) ∧ InPresentByte a i).map fun i : Fin n => f i (a i).code := by
    intro is
    induction is with
    | nil => rfl
    | cons i rest ih =>
      rw [List.flatMap_cons, ih, each, List.filter_cons]
      by_cases shown : q (a i) ∧ InPresentByte a i <;> simp [shown]
  rw [rep.scan_eq, ← filtered, ← List.map_coe_finRange_eq_range, List.flatMap_map]

theorem Represents.iterWithState_eq (rep : Represents m a) (target : SparseBlockState) :
    m.iterWithState target.code =
      ((List.finRange n).filter fun i => a i = target ∧ InPresentByte a i).map (·.val) := by
  apply rep.scan_filter (· = target) fun k _ => k
  intro k s
  simp [code_inj]

theorem Represents.iterPresent_eq (rep : Represents m a) :
    m.iterPresent =
      ((List.finRange n).filter fun i => a i ≠ .notPresent).map fun i => (i.val, (a i).code) := by
  have shown : ∀ i, (a i ≠ .notPresent ∧ InPresentByte a i) ↔ a i ≠ .notPresent := fun i =>
    ⟨And.left, fun present => ⟨present, i, rfl, present⟩⟩
  have listed := rep.scan_filter (· ≠ .notPresent) (fun k code => (k, code))
    (fun k code => if code ≠ SparseBlockState.notPresent.code then some (k, code) else none)
    fun k s => by simp [code_inj]
  simp only [shown] at listed
  exact listed

/-- The count of a byte, whose loop ends at the last entry of the map. -/
theorem countP_takeWhile {β : Type} (n base : Nat) (q : Nat → Prop) [DecidablePred q] (f : Nat → β) :
    ((List.range entriesPerByte).takeWhile fun slot => base + slot < n).countP (fun slot => q slot) =
      ((List.range entriesPerByte).filterMap fun slot =>
        if n ≤ base + slot then none else if q slot then some (f slot) else none).length := by
  have taken : ((List.range entriesPerByte).takeWhile fun slot => base + slot < n) =
      (List.range entriesPerByte).filter fun slot => base + slot < n := by
    change ([0, 1, 2, 3].takeWhile fun slot => base + slot < n) =
      [0, 1, 2, 3].filter fun slot => base + slot < n
    simp only [List.takeWhile, List.filter]
    repeat' split
    all_goals simp_all
    all_goals omega
  have each : ∀ slots : List Nat, (slots.filter fun slot => base + slot < n).countP (fun slot => q slot) =
      (slots.filterMap fun slot =>
        if n ≤ base + slot then none else if q slot then some (f slot) else none).length := by
    intro slots
    induction slots with
    | nil => rfl
    | cons slot rest ih =>
      rw [List.filterMap_cons]
      by_cases past : n ≤ base + slot
      · rw [if_pos past, List.filter_cons_of_neg (by simpa using past)]
        exact ih
      · rw [if_neg past, List.filter_cons_of_pos (by simpa using past), List.countP_cons, ih]
        by_cases wanted : q slot <;> simp [wanted]
  rw [taken, each]

theorem countPresent_eq (m : SparseStateMap) : m.countPresent = m.iterPresent.length := by
  unfold countPresent iterPresent scan
  rw [List.length_flatMap]
  apply congrArg List.sum
  apply List.map_congr_left
  intro page _
  rw [List.length_flatMap]
  cases found : m.directory page with
  | none => simp [byteAt, found]
  | some data =>
    apply congrArg List.sum
    apply List.map_congr_left
    intro byte _
    simp only [byteAt, found]
    split
    · rfl
    · exact countP_takeWhile _ _ _ _

end

/-- **The map is an array of states.** After any calls the results and the contents are those of
    the array, and the iterators list what the array holds. A byte without a present entry is
    skipped, so of the absent entries only those are listed that share a byte with a present one. -/
theorem packed_map_is_array (calls : List (Call n)) :
    let onMap := runCalls Call.onMap (new n) calls
    let onArray := runCalls Call.onArray (fun _ => .notPresent) calls
    (onMap.1 = onArray.1.map (Result.map SparseBlockState.code) ∧
      ∀ i : Fin n, onMap.2.get i = (onArray.2 i).code) ∧
    (∀ target, onMap.2.iterWithState target.code = ((List.finRange n).filter fun i =>
      onArray.2 i = target ∧ (target = .notPresent → InPresentByte onArray.2 i)).map (·.val)) ∧
    onMap.2.iterPresent = ((List.finRange n).filter fun i => onArray.2 i ≠ .notPresent).map
      (fun i => (i.val, (onArray.2 i).code)) ∧
    onMap.2.countPresent = onMap.2.iterPresent.length := by
  obtain ⟨results, rep⟩ := calls_agree (represents_new n) calls
  refine ⟨⟨results, fun i => rep.get_eq i⟩, fun target => ?_, rep.iterPresent_eq, countPresent_eq _⟩
  rw [rep.iterWithState_eq]
  congr 2
  funext i
  apply decide_eq_decide.mpr
  apply and_congr_right
  rintro rfl
  refine ⟨fun shown _ => shown, fun shown => ?_⟩
  by_cases absent : (runCalls Call.onArray (fun _ => .notPresent) calls).2 i = .notPresent
  · exact shown absent
  · exact ⟨i, rfl, absent⟩

/-- The entry of a new map is absent, and no iterator over the absent entries lists it. -/
theorem absent_not_listed :
    (new 1).get 0 = SparseBlockState.notPresent.code ∧
      (new 1).iterWithState SparseBlockState.notPresent.code = [] := by
  refine ⟨rfl, ?_⟩
  rw [(represents_new 1).iterWithState_eq]
  simp [InPresentByte]

end SparseStateMap

end GlideFS.Block
