import GlideFS.Lib.Runs
import Mathlib.Data.List.AList

/-! # Device managers and their map files

`NbdDeviceManager` and `UblkServer` hold the devices of the exports. Whenever a device
is added or removed, they write the map of what they hold to a file in the cache
directory. A new manager holds nothing: `add_device` finds the number to ask the kernel
for in the file, which has what the last manager held only until the new one writes it.
-/

namespace GlideFS.Devices

open Lib

variable {ν : Type} [DecidableEq ν]

/-- Export names with their device numbers: the object in a map file. -/
abbrev DeviceMap (ν : Type) := AList fun _ : ν => Int

/-- The two managers. A `UblkServer` may have room for so many devices only. -/
inductive Kind where
  | nbd
  | ublk (capacity : Option Nat)

/-- The devices a manager holds, and its map file: `none` if that is missing or corrupt. -/
structure Manager (ν : Type) where
  devices : DeviceMap ν
  file : Option (DeviceMap ν)

/-- How writing the map file ends. A failure may leave the file as it was or cut short. -/
inductive Write where
  | written
  | failed
  | torn
deriving DecidableEq

namespace Manager

/-- A manager on the directory of one that has stopped without a shutdown. -/
def restart (m : Manager ν) : Manager ν := ⟨∅, m.file⟩

def loadPersistedIndices (m : Manager ν) (readable : Bool) : DeviceMap ν :=
  if readable then m.file.getD ∅ else ∅

def persistDevices (m : Manager ν) : Write → Manager ν
  | .written => { m with file := some m.devices }
  | .failed => m
  | .torn => { m with file := none }

/-- The number `add_device` asks the kernel for, if it gets that far. -/
def preferredIndex (m : Manager ν) (name : ν) (readable : Bool) : Option Int :=
  (m.loadPersistedIndices readable).lookup name

/-- What `add_device` checks before it looks at the file. -/
def admits (k : Kind) (m : Manager ν) (name : ν) : Bool :=
  !m.devices.keys.contains name &&
    match k with
    | .nbd => true
    | .ublk capacity => capacity.all (m.devices.keys.length < ·)

/-- `add_device` with a device that could be set up. -/
def addDevice (k : Kind) (m : Manager ν) (name : ν) (i : Int) (write : Write) : Manager ν :=
  if m.admits k name then { m with devices := m.devices.insert name i }.persistDevices write else m

/-- The devices of a scan, taken into the map. -/
def insertFound (m : Manager ν) (found : List (ν × Int)) : Manager ν :=
  { m with devices := found.foldl (fun (d : DeviceMap ν) p => d.insert p.1 p.2) m.devices }

end Manager

inductive Act (ν : Type) where
  /-- `add_device`; `index` is the number the device gets, or none if it cannot be set up. -/
  | add (name : ν) (index : Option Int) (write : Write)
  /-- `remove_device`; with NBD the call ends early if the disconnecting task is not `joined`. -/
  | remove (name : ν) (joined : Bool) (write : Write)
  /-- `recover_quiesced_devices` or `recover_devices_by_id`, which end at once if there is nothing
      to be `probed`. -/
  | recover (probed : Bool) (found : List (ν × Int)) (write : Write)

open Manager

def Act.step (k : Kind) (m : Manager ν) : Act ν → Option (Manager ν)
  | .add name index write =>
      match index with
      | some i => some (m.addDevice k name i write)
      | none => some m
  | .remove name joined write =>
      if name ∈ m.devices.keys then
        let rest := { m with devices := m.devices.erase name }
        match k, joined with
        | .nbd, false => some rest
        | _, _ => some (rest.persistDevices write)
      else some m
  | .recover probed found write =>
      match k with
      | .nbd => none
      | .ublk _ =>
          if probed then some ((m.insertFound found).persistDevices write) else some m

/-! ## The file of the last manager -/

/-- The step writes its map, if it writes one, to the end. -/
def Act.Written : Act ν → Prop
  | .add _ _ write | .remove _ _ write | .recover _ _ write => write = .written

/-- The step leaves the map file as it is: it registers, removes and recovers nothing, or its write
    fails before the file is touched. -/
def Act.Quiet (k : Kind) (m : Manager ν) : Act ν → Prop
  | .add name index write => index = none ∨ m.admits k name = false ∨ write = .failed
  | .remove name _ write => name ∉ m.devices.keys ∨ write = .failed
  | .recover probed _ write => probed = false ∨ write = .failed

/-- The file has every device the manager holds. -/
def Manager.Filed (m : Manager ν) : Prop :=
  ∀ name i, m.devices.lookup name = some i → m.preferredIndex name true = some i

theorem filed_persisted (m : Manager ν) : (m.persistDevices .written).Filed := by
  intro name i held
  exact held

theorem step_filed {k : Kind} {m m' : Manager ν} {a : Act ν} (h : m.Filed) (written : a.Written)
    (taken : a.step k m = some m') : m'.Filed := by
  cases a with
  | add name index write =>
    obtain rfl : write = .written := written
    cases index with
    | none =>
      cases taken
      exact h
    | some i =>
      cases taken
      rw [addDevice]
      split
      · exact filed_persisted _
      · exact h
  | remove name joined write =>
    obtain rfl : write = .written := written
    simp only [Act.step] at taken
    split at taken
    · split at taken
      · cases taken
        intro other i held
        -- the file still lists the device that was removed
        apply h other i
        by_cases same : other = name
        · subst same
          simp at held
        · rwa [AList.lookup_erase_ne same] at held
      · cases taken
        exact filed_persisted _
    · cases taken
      exact h
  | recover probed found write =>
    obtain rfl : write = .written := written
    cases k with
    | nbd => cases taken
    | ublk capacity =>
      simp only [Act.step] at taken
      split at taken
      · cases taken
        exact filed_persisted _
      · cases taken
        exact h

theorem step_quiet {k : Kind} {m m' : Manager ν} {a : Act ν} (quiet : a.Quiet k m)
    (taken : a.step k m = some m') : m'.file = m.file := by
  cases a with
  | add name index write =>
    cases index with
    | none =>
      cases taken
      rfl
    | some i =>
      cases taken
      rw [addDevice]
      rcases quiet with absurd | refused | rfl
      · cases absurd
      · simp [refused]
      · split
        · rfl
        · rfl
  | remove name joined write =>
    simp only [Act.step] at taken
    split at taken
    · rename_i held
      obtain rfl : write = .failed := quiet.resolve_left (not_not_intro held)
      split at taken
      · cases taken
        rfl
      · cases taken
        rfl
    · cases taken
      rfl
  | recover probed found write =>
    cases k with
    | nbd => cases taken
    | ublk capacity =>
      simp only [Act.step] at taken
      split at taken
      · rename_i probed
        obtain rfl : write = .failed := quiet.resolve_left (by simp [probed])
        cases taken
        rfl
      · cases taken
        rfl

/-- A manager that was stopped with all its writes done, and a new one on its directory that has
    not written the map yet: an export that was registered is looked up under its number. -/
theorem preferred_index_survives {k : Kind} {dir : Option (DeviceMap ν)} {m t : Manager ν}
    (before : Reach (Act.step k) (fun _ a => a.Written) ⟨∅, dir⟩ m)
    (after : Reach (Act.step k) (fun s a => a.Quiet k s) m.restart t) {name : ν} {i : Int}
    (held : m.devices.lookup name = some i) : t.preferredIndex name true = some i := by
  have filed : m.Filed := by
    apply before.invariant (I := Manager.Filed)
    · intro name i none
      cases none
    · intro _ _ _ h written taken
      exact step_filed h written taken
  have same : t.file = m.file := by
    apply after.invariant (I := fun s => s.file = m.file)
    · rfl
    · intro _ _ _ h quiet taken
      exact (step_quiet quiet taken).trans h
  have found := filed name i held
  rw [preferredIndex, loadPersistedIndices] at found ⊢
  rwa [same]

/-- A manager that has registered these exports in order. -/
def registered (exports : List (Nat × Int)) : Manager Nat :=
  let devices := exports.foldl (fun (d : DeviceMap Nat) p => d.insert p.1 p.2) ∅
  ⟨devices, some devices⟩

/-- Two exports are registered. A new manager registers the first one and cannot write its map:
    the second one is looked up under its number. -/
theorem preferred_index_survives_failed_write : ∃ t : Manager Nat,
    Reach (Act.step .nbd) (fun _ a => a.Written) ⟨∅, none⟩ (registered [(0, 0), (1, 1)]) ∧
    Reach (Act.step .nbd) (fun s a => a.Quiet .nbd s) (registered [(0, 0), (1, 1)]).restart t ∧
    t.devices.lookup 0 = some 0 ∧ t.preferredIndex 1 true = some 1 := by
  have run : exec (Act.step .nbd) ⟨∅, none⟩ [.add 0 (some 0) .written, .add 1 (some 1) .written] =
      some (registered [(0, 0), (1, 1)]) := rfl
  have before : Reach (Act.step .nbd) (fun _ a => a.Written) ⟨∅, none⟩ _ :=
    reach_exec_of run (by simp [Act.Written])
  have after : Reach (Act.step .nbd) (fun s a => a.Quiet .nbd s)
      (registered [(0, 0), (1, 1)]).restart _ :=
    Reach.refl.step (a := .add 0 (some 0) .failed) (.inr (.inr rfl)) rfl
  exact ⟨_, before, after, by decide, preferred_index_survives before after (by decide)⟩

/-- Two exports are registered, and then the first of them by a new manager: its map has that one
    only, and the other is not looked up under its number any more. -/
theorem second_export_loses_index : ∃ m t : Manager Nat,
    Reach (Act.step .nbd) (fun _ a => a.Written) ⟨∅, none⟩ m ∧
    Reach (Act.step .nbd) (fun _ a => a.Written) m.restart t ∧ t.admits .nbd 1 = true ∧
    m.devices.lookup 1 = some 1 ∧ t.preferredIndex 1 true ≠ some 1 := by
  have run : exec (Act.step .nbd) ⟨∅, none⟩ [.add 0 (some 0) .written, .add 1 (some 1) .written] =
      some (registered [(0, 0), (1, 1)]) := rfl
  have again : exec (Act.step .nbd) (registered [(0, 0), (1, 1)]).restart
      [.add 0 (some 0) .written] = some (registered [(0, 0)]) := rfl
  refine ⟨_, _, reach_exec_of run ?_, reach_exec_of again ?_, by decide, by decide, by decide⟩
  · simp [Act.Written]
  · simp [Act.Written]

end GlideFS.Devices
