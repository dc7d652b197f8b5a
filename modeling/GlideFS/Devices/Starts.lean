import GlideFS.Devices.Manager
import Mathlib.Data.List.Dedup

/-! # Starts of the daemon

A start reads the names in the two device map files, loads their definitions, creates
the exports, recovers the kernel devices that a stopped daemon left QUIESCED and
registers devices for the other exports. Kernel devices of exports that it has not
created, or cannot recover, are killed in the background. The map files it went by are
written again on the way, with what has been recovered and registered so far.
-/

namespace GlideFS.Devices.Starts

open Lib Devices.Manager

variable {ν : Type} [DecidableEq ν]

inductive Transport where
  | nbd
  | ublk
  | other
deriving DecidableEq

/-- What the starts find around them. -/
structure Setting (ν : Type) where
  /-- The exports of the config file. -/
  configured : List (ν × Transport)
  /-- `UBLK_F_USER_RECOVERY`. -/
  recovery : Bool
  capacity : Option Nat

inductive Phase (ν : Type) where
  | loading (todo loaded : List ν)
  | creating (todo : List ν)
  | configuring (todo : List (ν × Transport))
  | recovering
  | registering (todo : List ν)

/-- A daemon that has started. -/
structure Proc (ν : Type) where
  phase : Phase ν
  created : AList fun _ : ν => Transport
  /-- The devices the background sweep is to kill. -/
  orphans : List Int
  /-- Whether this start has written the map files. -/
  ublkWrote : Bool
  nbdWrote : Bool

/-- The managers with their map files, the kernel's ublk devices of this daemon, each with the
    export name in its JSON, and the daemon if it runs. -/
structure State (ν : Type) where
  /-- The transport in the `export.json` of an export; none if it was removed. -/
  transport : ν → Option Transport
  ublk : Manager ν
  nbd : Manager ν
  kernel : AList fun _ : Int => Option ν
  proc : Option (Proc ν)

inductive Act (ν : Type) where
  | start
  | load (n : ν) (ok : Bool)
  | create (n : ν) (ok : Bool)
  /-- `create_export` and `save_export`, which may fail. -/
  | createStatic (n : ν) (transport : Transport) (saved : Bool)
  /-- The start goes on to the next phase. -/
  | next
  /-- `recover_quiesced_devices`: devices that cannot be opened are skipped, others may fail to
      recover. -/
  | recover (skipped failed : List Int)
  | killOrphan (id : Int)
  /-- `register_device`; none if it fails. -/
  | register (n : ν) (index : Option Int)
  /-- The daemon is killed, or its start ends with an error. -/
  | stop

/-! ## The steps -/

def listed (s : State ν) : List ν :=
  (s.ublk.loadPersistedIndices true).keys ++ (s.nbd.loadPersistedIndices true).keys

/-- The exports that have their device back. -/
def recovered (s : State ν) (p : Proc ν) (skipped failed : List Int) : List (ν × Int) :=
  s.kernel.entries.filterMap fun d =>
    match d.2 with
    | some n =>
        if p.created.lookup n = some .ublk ∧ d.1 ∉ skipped ∧ d.1 ∉ failed then some (n, d.1) else none
    | none => none

/-- The devices without an export of transport ublk, and those that could not be recovered. -/
def orphaned (s : State ν) (p : Proc ν) (skipped failed : List Int) : List Int :=
  (s.kernel.entries.filter fun d => decide (d.1 ∉ skipped) &&
    match d.2 with
    | some n => decide (p.created.lookup n ≠ some .ublk ∨ d.1 ∈ failed)
    | none => true).map Sigma.fst

/-- `register_device` is called for the exports without a device. -/
def unregistered (s : State ν) (p : Proc ν) : List ν :=
  p.created.keys.filter fun n => decide (n ∉ s.ublk.devices.keys ∧ n ∉ s.nbd.devices.keys)

/-- The kernel gives a number that is free, or a device of the export, or the QUIESCED device with
    the number that the map has for the export. -/
def Grants (s : State ν) (n : ν) (i : Int) : Bool :=
  match s.kernel.lookup i with
  | none => true
  | some owner => owner = some n ∨ s.ublk.preferredIndex n true = some i

def registerStep (S : Setting ν) (s : State ν) (p : Proc ν) (n : ν) (i : Int) :
    Option (State ν) :=
  match p.created.lookup n with
  | some .nbd =>
      if s.nbd.admits .nbd n then
        some { s with
          nbd := s.nbd.addDevice .nbd n i .written
          proc := some { p with nbdWrote := true } }
      else none
  | some .ublk =>
      if s.ublk.admits (.ublk S.capacity) n ∧ Grants s n i then
        some { s with
          ublk := s.ublk.addDevice (.ublk S.capacity) n i .written
          kernel := s.kernel.insert i (some n)
          proc := some { p with ublkWrote := true } }
      else none
  | _ => some { s with proc := some p }

def procStep (S : Setting ν) (s : State ν) (p : Proc ν) : Act ν → Option (State ν)
  | .start => none
  | .load n ok =>
      match p.phase with
      | .loading todo loaded =>
          if n ∈ todo then
            let loaded := if ok ∧ s.transport n ≠ none then n :: loaded else loaded
            some { s with proc := some { p with phase := .loading (todo.erase n) loaded } }
          else none
      | _ => none
  | .create n ok =>
      match p.phase with
      | .creating todo =>
          if n ∈ todo then
            let created := match ok, s.transport n with
              | true, some t => p.created.insert n t
              | _, _ => p.created
            some { s with proc := some { p with phase := .creating (todo.erase n), created } }
          else none
      | _ => none
  | .createStatic n t saved =>
      match p.phase with
      | .configuring todo =>
          if (n, t) ∈ todo then
            -- an export that exists already is left as it is, but its definition is written
            let created := if n ∈ p.created.keys then p.created else p.created.insert n t
            some { s with
              transport := if saved then Function.update s.transport n (some t) else s.transport
              proc := some { p with phase := .configuring (todo.erase (n, t)), created } }
          else none
      | _ => none
  | .next =>
      match p.phase with
      | .loading [] loaded => some { s with proc := some { p with phase := .creating loaded.dedup } }
      | .creating [] =>
          -- without any export the start ends with an error
          if p.created.keys.isEmpty ∧ S.configured.isEmpty then none
          else some { s with proc := some { p with phase := .configuring S.configured } }
      | .configuring [] => some { s with proc := some { p with phase := .recovering } }
      | _ => none
  | .recover skipped failed =>
      match p.phase with
      | .recovering =>
          if S.recovery ∧ !s.kernel.keys.all (· ∈ skipped) then
            let s := { s with
              ublk := (s.ublk.insertFound (recovered s p skipped failed)).persistDevices .written }
            some { s with proc := some { p with
              phase := .registering (unregistered s p)
              orphans := orphaned s p skipped failed
              ublkWrote := true } }
          else some { s with proc := some { p with phase := .registering (unregistered s p) } }
      | _ => none
  | .killOrphan id =>
      if id ∈ p.orphans then
        some { s with
          kernel := s.kernel.erase id
          proc := some { p with orphans := p.orphans.erase id } }
      else none
  | .register n index =>
      match p.phase with
      | .registering todo =>
          if n ∈ todo then
            let p := { p with phase := .registering (todo.erase n) }
            match index with
            | none => some { s with proc := some p }
            | some i => registerStep S s p n i
          else none
      | _ => none
  | .stop => some { s with ublk := s.ublk.restart, nbd := s.nbd.restart, proc := none }

def step (S : Setting ν) (s : State ν) (a : Act ν) : Option (State ν) :=
  match s.proc with
  | some p => procStep S s p a
  | none =>
      match a with
      | .start => some { s with
          ublk := s.ublk.restart
          nbd := s.nbd.restart
          proc := some ⟨.loading (listed s).dedup [], ∅, [], false, false⟩ }
      | _ => none

/-! ## Exports that were attached -/

section Attached

-- `A` are the exports that had devices when the daemon stopped and were not removed.
variable (S : Setting ν) (A : ν → Prop)

def Registered (s : State ν) (e : ν) : Prop := e ∈ s.ublk.devices.keys ∨ e ∈ s.nbd.devices.keys

/-- An export with this transport gets a device. -/
def Attachable (t : Option Transport) : Prop := t = some .nbd ∨ t = some .ublk

/-- The daemon has stopped, its map files list the attached exports, and no definition of one has
    a transport without devices. -/
structure Stopped (s : State ν) : Prop where
  proc : s.proc = none
  listed : ∀ e, A e → e ∈ listed s
  transport : ∀ e, A e → Attachable (s.transport e)
  static : ∀ e t, (e, t) ∈ S.configured → A e → Attachable (some t)

/-- A start that comes to the recovery has created every attached export with a QUIESCED device,
    with transport ublk, and recovers it; a device that the sweep is to kill is not taken over; a
    start ends only while every attached export is registered or listed in a map file that it has
    not written. -/
def Careful (s : State ν) : Act ν → Prop
  | .recover skipped failed => ∀ p, s.proc = some p → S.recovery = true → ∀ id e,
      s.kernel.lookup id = some (some e) → A e → id ∉ skipped →
        p.created.lookup e = some .ublk ∧ id ∉ failed
  | .register n (some i) => ∀ p, s.proc = some p → p.created.lookup n = some .ublk → i ∉ p.orphans
  | .stop => ∀ p, s.proc = some p → ∀ e, A e → Registered s e ∨
      p.ublkWrote = false ∧ e ∈ (s.ublk.loadPersistedIndices true).keys ∨
      p.nbdWrote = false ∧ e ∈ (s.nbd.loadPersistedIndices true).keys
  | _ => True

/-- Nothing fails. -/
def Clean : Act ν → Prop
  | .load _ ok | .create _ ok | .createStatic _ _ ok => ok = true
  | .recover skipped failed => skipped = [] ∧ failed = []
  | .register _ index => index ≠ none
  | .stop => False
  | _ => True

/-! ## What holds at every moment -/

/-- A manager that has written its file holds what the file has, another one holds nothing. -/
def Tracks (m : Manager ν) (wrote : Bool) : Prop :=
  if wrote then m.file = some m.devices else m.devices.keys = []

structure ProcInv (s : State ν) (p : Proc ν) : Prop where
  ublk : Tracks s.ublk p.ublkWrote
  nbd : Tracks s.nbd p.nbdWrote
  orphans : ∀ id ∈ p.orphans, ∀ e, s.kernel.lookup id = some (some e) → ¬A e

structure Inv (s : State ν) : Prop where
  off : s.proc = none → ∀ e, A e → e ∈ listed s
  on : ∀ p, s.proc = some p → ProcInv A s p

variable {S A}

theorem listed_of_tracks {m : Manager ν} {wrote : Bool} (h : Tracks m wrote) {e : ν}
    (held : e ∈ m.devices.keys) : e ∈ (m.restart.loadPersistedIndices true).keys := by
  cases wrote with
  | false =>
    have none : m.devices.keys = [] := h
    simp [none] at held
  | true =>
    have same : m.file = some m.devices := h
    simpa [restart, loadPersistedIndices, same] using held

theorem tracks_addDevice {k : Kind} {m : Manager ν} {n : ν} {i : Int}
    (admitted : m.admits k n = true) : Tracks (m.addDevice k n i .written) true := by
  simp [Tracks, addDevice, admitted, persistDevices]

theorem mem_addDevice {k : Kind} {m : Manager ν} {n : ν} {i : Int}
    (admitted : m.admits k n = true) {e : ν} :
    e ∈ (m.addDevice k n i .written).devices.keys ↔ e = n ∨ e ∈ m.devices.keys := by
  rw [addDevice, if_pos admitted]
  exact AList.mem_keys.symm.trans ((AList.mem_insert _).trans (or_congr_right AList.mem_keys))

variable {s s' : State ν} {p : Proc ν} {a : Act ν}

theorem Inv.running {p' : Proc ν} (here : s'.proc = some p') (h : ProcInv A s' p') : Inv A s' where
  off none := by
    rw [here] at none
    cases none
  on p same := by
    cases here.symm.trans same
    exact h

/-- A device in the sweep was without an export that is attached. -/
theorem orphaned_unattached {skipped failed : List Int}
    (careful : ∀ id e, s.kernel.lookup id = some (some e) → A e → id ∉ skipped → p.created.lookup e = some .ublk ∧ id ∉ failed)
    {id : Int} (mem : id ∈ orphaned s p skipped failed) {e : ν}
    (named : s.kernel.lookup id = some (some e)) : ¬A e := by
  intro attached
  obtain ⟨⟨id', owner⟩, kept, rfl⟩ := List.mem_map.mp mem
  obtain ⟨there, kept⟩ := List.mem_filter.mp kept
  have same : s.kernel.lookup id' = some owner := AList.mem_lookup_iff.mpr there
  cases same.symm.trans named
  simp only [Bool.and_eq_true, decide_eq_true_eq] at kept
  obtain ⟨opened, lost⟩ := kept
  obtain ⟨created, recovers⟩ := careful id' e named attached opened
  rcases lost with unknown | failed
  · exact unknown created
  · exact recovers failed

theorem registerStep_inv {n : ν} {i : Int} (h : ProcInv A s p)
    (apart : p.created.lookup n = some .ublk → i ∉ p.orphans)
    (taken : registerStep S s p n i = some s') : Inv A s' := by
  simp only [registerStep] at taken
  split at taken
  · obtain ⟨admitted, taken⟩ := Option.ite_none_right_eq_some.mp taken
    cases taken
    refine Inv.running rfl ⟨h.ublk, tracks_addDevice admitted, h.orphans⟩
  · rename_i ublk
    obtain ⟨⟨admitted, -⟩, taken⟩ := Option.ite_none_right_eq_some.mp taken
    cases taken
    refine Inv.running rfl ⟨tracks_addDevice admitted, h.nbd, fun id mem e named => ?_⟩
    have other : id ≠ i := fun same => apart ublk (same ▸ mem)
    rw [AList.lookup_insert_ne other] at named
    exact h.orphans id mem e named
  · cases taken
    exact Inv.running rfl { h with }

theorem procStep_inv (here : s.proc = some p) (h : ProcInv A s p) (careful : Careful S A s a)
    (taken : procStep S s p a = some s') : Inv A s' := by
  cases a with
  | start => cases taken
  | load n ok | create n ok | createStatic n t saved | next =>
    simp only [procStep] at taken
    repeat' split at taken
    all_goals cases taken
    all_goals exact Inv.running rfl { h with }
  | recover skipped failed =>
    simp only [procStep] at taken
    split at taken
    · split at taken
      · rename_i recovery
        cases taken
        refine Inv.running rfl ⟨?_, h.nbd, fun id mem e named => ?_⟩
        · simp [Tracks, persistDevices]
        · exact orphaned_unattached (careful p here recovery.1) mem named
      · cases taken
        exact Inv.running rfl { h with }
    · cases taken
  | killOrphan id =>
    obtain ⟨-, taken⟩ := Option.ite_none_right_eq_some.mp taken
    cases taken
    refine Inv.running rfl ⟨h.ublk, h.nbd, fun other mem e named => ?_⟩
    by_cases same : other = id
    · subst same
      rw [AList.lookup_erase] at named
      cases named
    · rw [AList.lookup_erase_ne same] at named
      exact h.orphans other (List.mem_of_mem_erase mem) e named
  | register n index =>
    simp only [procStep] at taken
    split at taken
    · rename_i todo _
      obtain ⟨-, taken⟩ := Option.ite_none_right_eq_some.mp taken
      cases index with
      | none =>
        cases taken
        exact Inv.running rfl { h with }
      | some i =>
        refine registerStep_inv (p := { p with phase := .registering (todo.erase n) }) ?_
          (careful p here) taken
        exact { h with }
    · cases taken
  | stop =>
    cases taken
    refine ⟨fun _ e attached => List.mem_append.mpr ?_, nofun⟩
    rcases careful p here e attached with (held | held) | ⟨-, kept⟩ | ⟨-, kept⟩
    · exact .inl (listed_of_tracks h.ublk held)
    · exact .inr (listed_of_tracks h.nbd held)
    · exact .inl kept
    · exact .inr kept

theorem step_inv (h : Inv A s) (careful : Careful S A s a) (taken : step S s a = some s') :
    Inv A s' := by
  cases here : s.proc with
  | some p =>
    simp only [step, here] at taken
    exact procStep_inv here (h.on p here) careful taken
  | none =>
    simp only [step, here] at taken
    cases a with
    | start =>
      cases taken
      exact Inv.running rfl ⟨rfl, rfl, fun _ mem => absurd mem List.not_mem_nil⟩
    | _ => cases taken

/-! ## A start in which nothing fails -/

/-- The definitions give the attached exports devices, and static entries are from the config. -/
structure Known (S : Setting ν) (A : ν → Prop) (s : State ν) : Prop where
  transport : ∀ e, A e → Attachable (s.transport e)
  entries : ∀ p todo, s.proc = some p → p.phase = .configuring todo → ∀ x ∈ todo, x ∈ S.configured

/-- How far the attached exports are. -/
def Progress (A : ν → Prop) (s : State ν) (p : Proc ν) : Phase ν → Prop
  | .loading todo loaded => ∀ e, A e → e ∈ todo ∨ e ∈ loaded
  | .creating todo => ∀ e, A e → e ∈ todo ∨ Attachable (p.created.lookup e)
  | .configuring _ | .recovering => ∀ e, A e → Attachable (p.created.lookup e)
  | .registering todo =>
      ∀ e, A e → Attachable (p.created.lookup e) ∧ (e ∈ todo ∨ Registered s e)

def CleanInv (A : ν → Prop) (s : State ν) : Prop :=
  match s.proc with
  | none => ∀ e, A e → e ∈ listed s
  | some p => Progress A s p p.phase

theorem Attachable.ne_none {t : Option Transport} (h : Attachable t) : t ≠ none := by
  rintro rfl
  rcases h with same | same <;> cases same

theorem mem_created {e : ν} (created : Attachable (p.created.lookup e)) : e ∈ p.created.keys := by
  apply AList.mem_keys.mp
  rw [← AList.lookup_isSome]
  exact Option.isSome_iff_ne_none.mpr created.ne_none

/-- A device that is registered is one more. -/
theorem registerStep_progress {n : ν} {i : Int} {todo : List ν}
    (h : ∀ e, A e → Attachable (p.created.lookup e) ∧ (e ∈ todo ∨ Registered s e))
    (phase : p.phase = .registering (todo.erase n)) (taken : registerStep S s p n i = some s') :
    CleanInv A s' := by
  -- every other export is left where it was
  have due (held : ∀ e, A e → e = n ∨ Registered s e → Registered s' e) (e : ν) (attached : A e) :
      Attachable (p.created.lookup e) ∧ (e ∈ todo.erase n ∨ Registered s' e) := by
    obtain ⟨created, due⟩ := h e attached
    refine ⟨created, ?_⟩
    by_cases same : e = n
    · exact .inr (held e attached (.inl same))
    · exact due.imp (List.mem_erase_of_ne same).mpr fun here => held e attached (.inr here)
  simp only [registerStep] at taken
  split at taken
  · obtain ⟨admitted, taken⟩ := Option.ite_none_right_eq_some.mp taken
    cases taken
    simp only [CleanInv, phase]
    refine due fun e _ held => ?_
    simp only [Registered, mem_addDevice admitted] at held ⊢
    tauto
  · obtain ⟨⟨admitted, -⟩, taken⟩ := Option.ite_none_right_eq_some.mp taken
    cases taken
    simp only [CleanInv, phase]
    refine due fun e _ held => ?_
    simp only [Registered, mem_addDevice admitted] at held ⊢
    tauto
  · rename_i not_nbd not_ublk
    cases taken
    simp only [CleanInv, phase]
    refine due fun e attached held => ?_
    rcases held with rfl | held
    · rcases (h e attached).1 with nbd | ublk
      · exact absurd nbd not_nbd
      · exact absurd ublk not_ublk
    · exact held

theorem procStep_clean (known : Known S A s) (h : Progress A s p p.phase) (clean : Clean a)
    (taken : procStep S s p a = some s') : CleanInv A s' := by
  cases a with
  | start => cases taken
  | load n ok =>
    obtain rfl : ok = true := clean
    simp only [procStep] at taken
    split at taken
    · rename_i todo loaded phase
      obtain ⟨-, taken⟩ := Option.ite_none_right_eq_some.mp taken
      cases taken
      rw [phase] at h
      intro e attached
      by_cases same : e = n
      · subst same
        simp [(known.transport e attached).ne_none]
      · rcases h e attached with mem | mem
        · exact .inl ((List.mem_erase_of_ne same).mpr mem)
        · refine .inr ?_
          split
          · exact List.mem_cons_of_mem n mem
          · exact mem
    · cases taken
  | create n ok =>
    obtain rfl : ok = true := clean
    simp only [procStep] at taken
    split at taken
    · rename_i todo phase
      obtain ⟨-, taken⟩ := Option.ite_none_right_eq_some.mp taken
      cases taken
      rw [phase] at h
      intro e attached
      by_cases same : e = n
      · subst same
        obtain ⟨t, is_t⟩ := Option.ne_none_iff_exists'.mp (known.transport e attached).ne_none
        refine .inr ?_
        simpa [is_t] using known.transport e attached
      · rcases h e attached with mem | created
        · exact .inl ((List.mem_erase_of_ne same).mpr mem)
        · refine .inr ?_
          cases s.transport n with
          | none => exact created
          | some t => simpa [same] using created
    · cases taken
  | createStatic n t saved =>
    simp only [procStep] at taken
    split at taken
    · rename_i todo phase
      obtain ⟨-, taken⟩ := Option.ite_none_right_eq_some.mp taken
      cases taken
      rw [phase] at h
      intro e attached
      have created := h e attached
      split
      · exact created
      · rename_i absent
        have other : e ≠ n := fun same => absent (same ▸ mem_created created)
        simpa [other] using created
    · cases taken
  | next =>
    simp only [procStep] at taken
    split at taken
    · rename_i loaded phase
      cases taken
      rw [phase] at h
      intro e attached
      have mem := (h e attached).resolve_left List.not_mem_nil
      exact .inl (List.mem_dedup.mpr mem)
    · rename_i phase
      split at taken
      · cases taken
      · cases taken
        rw [phase] at h
        intro e attached
        exact (h e attached).resolve_left List.not_mem_nil
    · rename_i phase
      cases taken
      rw [phase] at h
      exact h
    · cases taken
  | recover skipped failed =>
    simp only [procStep] at taken
    split at taken
    · rename_i phase
      rw [phase] at h
      have due (s : State ν) (e : ν) (attached : A e) :
          e ∈ unregistered s p ∨ Registered s e := by
        by_cases held : Registered s e
        · exact .inr held
        · refine .inl (List.mem_filter.mpr ⟨mem_created (h e attached), ?_⟩)
          simpa [Registered] using held
      split at taken
      · cases taken
        intro e attached
        exact ⟨h e attached, due _ e attached⟩
      · cases taken
        intro e attached
        exact ⟨h e attached, due s e attached⟩
    · cases taken
  | killOrphan id =>
    obtain ⟨-, taken⟩ := Option.ite_none_right_eq_some.mp taken
    cases taken
    simp only [CleanInv]
    cases phase : p.phase <;> rw [phase] at h <;> exact h
  | register n index =>
    simp only [procStep] at taken
    split at taken
    · rename_i todo phase
      obtain ⟨-, taken⟩ := Option.ite_none_right_eq_some.mp taken
      rw [phase] at h
      cases index with
      | none => exact absurd rfl clean
      | some i =>
        exact registerStep_progress (p := { p with phase := .registering (todo.erase n) })
          h rfl taken
    · cases taken
  | stop => exact clean.elim

theorem step_clean (known : Known S A s) (h : CleanInv A s) (clean : Clean a)
    (taken : step S s a = some s') : CleanInv A s' := by
  rw [CleanInv] at h
  cases here : s.proc with
  | some p =>
    simp only [step, here] at taken
    rw [here] at h
    exact procStep_clean known h clean taken
  | none =>
    simp only [step, here] at taken
    rw [here] at h
    cases a with
    | start =>
      cases taken
      intro e attached
      exact .inl (List.mem_dedup.mpr (h e attached))
    | _ => cases taken

/-! ## Definitions -/

theorem Known.running {p' : Proc ν} (h : Known S A s) (transport : s'.transport = s.transport)
    (here : s'.proc = some p')
    (entries : ∀ todo, p'.phase = .configuring todo → ∀ x ∈ todo, x ∈ S.configured) :
    Known S A s' where
  transport := by
    rw [transport]
    exact h.transport
  entries p todo same phase := by
    cases here.symm.trans same
    exact entries todo phase

theorem procStep_known (static : ∀ e t, (e, t) ∈ S.configured → A e → Attachable (some t))
    (here : s.proc = some p) (h : Known S A s) (taken : procStep S s p a = some s') :
    Known S A s' := by
  cases a with
  | start => cases taken
  | load n ok | create n ok | recover skipped failed | register n index =>
    simp only [procStep, registerStep] at taken
    repeat' split at taken
    all_goals cases taken
    all_goals exact h.running rfl rfl fun _ phase => by cases phase
  | createStatic n t saved =>
    simp only [procStep] at taken
    split at taken
    · rename_i todo phase
      obtain ⟨mem, ⟨⟩⟩ := Option.ite_none_right_eq_some.mp taken
      have known := h.entries p todo here phase
      refine ⟨fun e attached => ?_, ?_⟩
      · cases saved with
        | false => exact h.transport e attached
        | true =>
          by_cases same : e = n
          · subst same
            simpa using static e t (known _ mem) attached
          · simpa [same] using h.transport e attached
      · rintro _ _ ⟨⟩ ⟨⟩ x left
        exact known x (List.mem_of_mem_erase left)
    · cases taken
  | next =>
    simp only [procStep] at taken
    split at taken
    · cases taken
      exact h.running rfl rfl fun _ phase => by cases phase
    · obtain ⟨-, ⟨⟩⟩ := Option.ite_none_left_eq_some.mp taken
      refine h.running rfl rfl ?_
      rintro _ ⟨⟩ x mem
      exact mem
    · cases taken
      exact h.running rfl rfl fun _ phase => by cases phase
    · cases taken
  | killOrphan id =>
    obtain ⟨-, ⟨⟩⟩ := Option.ite_none_right_eq_some.mp taken
    exact h.running rfl rfl fun todo phase => h.entries p todo here phase
  | stop =>
    cases taken
    exact ⟨h.transport, fun _ _ none => by cases none⟩

theorem step_known (static : ∀ e t, (e, t) ∈ S.configured → A e → Attachable (some t))
    (h : Known S A s) (taken : step S s a = some s') : Known S A s' := by
  cases here : s.proc with
  | some p =>
    simp only [step, here] at taken
    exact procStep_known static here h taken
  | none =>
    simp only [step, here] at taken
    cases a with
    | start =>
      cases taken
      exact h.running rfl rfl nofun
    | _ => cases taken

/-- Over any number of starts that are careful, no attached export has its kernel device killed,
    and a start in which nothing fails creates and registers all of them. -/
theorem starts_lose_no_export {t : State ν} (stopped : Stopped S A s)
    (run : Reach (step S) (Careful S A) s t) :
    (∀ id e, A e → t.kernel.lookup id = some (some e) → step S t (.killOrphan id) = none) ∧
    (t.proc = none → ∀ u p, Reach (step S) (fun _ a => Clean a) t u → u.proc = some p →
      p.phase = .registering [] → ∀ e, A e → e ∈ p.created.keys ∧ Registered u e) := by
  have inv : Inv A t ∧ Known S A t := by
    apply run.invariant (I := fun s => Inv A s ∧ Known S A s)
    · refine ⟨⟨fun _ => stopped.listed, fun p here => ?_⟩, stopped.transport, fun p _ here => ?_⟩
      · rw [stopped.proc] at here
        cases here
      · rw [stopped.proc] at here
        cases here
    · intro _ _ _ h careful taken
      exact ⟨step_inv h.1 careful taken, step_known stopped.static h.2 taken⟩
  constructor
  · intro id e attached named
    cases here : t.proc with
    | none => simp [step, here]
    | some p =>
        have safe : id ∉ p.orphans := fun mem => (inv.1.on p here).orphans id mem e named attached
        simp [step, here, procStep, safe]
  · intro off u p clean here done e attached
    have progress : CleanInv A u ∧ Known S A u := by
      apply clean.invariant (I := fun s => CleanInv A s ∧ Known S A s)
      · rw [CleanInv, off]
        exact ⟨inv.1.off off, inv.2⟩
      · intro _ _ _ h clean taken
        exact ⟨step_clean h.2 h.1 clean taken, step_known stopped.static h.2 taken⟩
    have progress := progress.1
    rw [CleanInv, here] at progress
    simp only [done] at progress
    obtain ⟨created, due⟩ := progress e attached
    exact ⟨mem_created created, due.resolve_left List.not_mem_nil⟩

end Attached

/-- Two exports with ublk devices. -/
def twoExports : Setting Nat := ⟨[], true, none⟩

/-- The daemon that had their devices was killed. -/
def crashed : State Nat :=
  ⟨fun _ => some .ublk, (registered [(0, 0), (1, 1)]).restart, ⟨∅, none⟩, .insert 1 (some 1) (.insert 0 (some 0) ∅), none⟩

theorem crashed_stopped : Stopped twoExports (fun e => e = 0 ∨ e = 1) crashed where
  proc := rfl
  listed := by
    rintro e (rfl | rfl)
    · decide
    · decide
  transport _ _ := .inr rfl
  static _ _ mem := absurd mem List.not_mem_nil

private theorem unread_is_orphaned :
    (exec (step twoExports) crashed [.start, .load 0 true, .load 1 false, .next, .create 0 true,
      .next, .next, .recover [] []]).map (fun t =>
        (t.kernel.lookup 1, (step twoExports t (.killOrphan 1)).isSome)) =
      some (some (some 1), true) := by
  decide +kernel

/-- The definition of an export cannot be read. Its QUIESCED device is taken for that of an export
    that does not exist, and killed. -/
theorem unread_export_killed : ∃ t t' : State Nat,
    Stopped twoExports (fun e => e = 0 ∨ e = 1) crashed ∧
    Reach (step twoExports) anyStep crashed t ∧ t.kernel.lookup 1 = some (some 1) ∧
    step twoExports t (.killOrphan 1) = some t' := by
  obtain ⟨t, run, seen⟩ := Option.map_eq_some_iff.mp unread_is_orphaned
  obtain ⟨named, killed⟩ := Prod.mk.inj seen
  obtain ⟨t', taken⟩ := Option.isSome_iff_exists.mp killed
  exact ⟨t, t', crashed_stopped, reach_exec run, named, taken⟩

private theorem clean_start :
    (exec (step twoExports) crashed [.start, .load 0 true, .load 1 true, .next, .create 0 true,
      .create 1 true, .next, .next, .recover [] []]).map (fun t =>
        t.proc.map fun p => p.phase matches .registering []) = some (some true) := by
  decide +kernel

/-- A start in which nothing fails has both devices back. -/
theorem clean_start_registers : ∃ (u : State Nat) (p : Proc Nat),
    Reach (step twoExports) (fun _ a => Clean a) crashed u ∧ u.proc = some p ∧
    ∀ e, e = 0 ∨ e = 1 → e ∈ p.created.keys ∧ Registered u e := by
  obtain ⟨u, run, seen⟩ := Option.map_eq_some_iff.mp clean_start
  obtain ⟨p, here, done⟩ := Option.map_eq_some_iff.mp seen
  have clean : Reach (step twoExports) (fun _ a => Clean a) crashed u := by
    apply reach_exec_of run
    intro a mem _
    simp only [List.mem_cons, List.not_mem_nil, or_false] at mem
    rcases mem with rfl | rfl | rfl | rfl | rfl | rfl | rfl | rfl | rfl <;> simp [Clean]
  have phase : p.phase = .registering [] := by
    split at done
    · assumption
    · cases done
  exact ⟨u, p, clean, here, (starts_lose_no_export crashed_stopped .refl).2 rfl u p clean here phase⟩

end GlideFS.Devices.Starts
