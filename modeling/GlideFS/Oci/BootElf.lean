import GlideFS.Lib.Bytes
import Mathlib.Tactic.NormNum

/-! # The ELF parser of the boot set

The files of an image's layers are parsed for their interpreter and their libraries. All positions
in them are numbers of the file itself, and additions of the release build panic on overflow.
-/

namespace GlideFS.Oci.BootSet

open Lib

/-- A byte slice has at most `isize::MAX` bytes. -/
structure Slice where
  bytes : List UInt8
  short : bytes.length < 2 ^ 63

/-- A `None` that is returned by `?` is an error without a text. -/
abbrev Parse := Except (Fault Unit)

def ofOption : Option α → Parse α
  | some a => .ok a
  | none => .error (.error ())

/-- An addition of two 64-bit numbers. -/
def add (m n : Nat) : Parse Nat := if m + n < 2 ^ 64 then .ok (m + n) else .error .panic

def mul (m n : Nat) : Parse Nat := if m * n < 2 ^ 64 then .ok (m * n) else .error .panic

def checkedAdd (m n : Nat) : Option Nat := if m + n < 2 ^ 64 then some (m + n) else none

def checkedMul (m n : Nat) : Option Nat := if m * n < 2 ^ 64 then some (m * n) else none

/-- The number of `k` bytes at a position of the file. -/
def num (b : Slice) (off k : Nat) : Option Nat :=
  if off + k ≤ b.bytes.length then some (ofLeBytes ((b.bytes.drop off).take k)) else none

/-- `rd_u16`, `rd_u32` and `rd_u64`: the end of the range is computed first. -/
def rd (k : Nat) (b : Slice) (off : Nat) : Parse Nat := do
  let _ ← add off k
  ofOption (num b off k)

def rdU16 := rd 2
def rdU32 := rd 4
def rdU64 := rd 8

/-- A `usize` has 64 bits, so `usize::try_from` keeps the number. -/
def rdUsize := rdU64

/-- The fields of a program header that are read. -/
structure Phdr where
  type : Nat
  offset : Nat
  vaddr : Nat
  filesz : Nat
deriving DecidableEq

structure ElfDyn where
  interp : Option String
  needed : List String
  runpaths : List String
  rpaths : List String
deriving DecidableEq

/-- What the loop over the program headers has gathered. -/
structure Segments where
  loads : List Phdr := []
  interp : Option String := none
  dyn : Option Phdr := none

/-- What the loop over the dynamic entries has gathered. -/
structure Dynamic where
  strtab : Option Nat := none
  needed : List Nat := []
  runpath : List Nat := []
  rpath : List Nat := []

section

-- `String::from_utf8_lossy`
variable (lossy : List UInt8 → String) (b : Slice)

def readCstr (off : Nat) : Option String :=
  if off ≤ b.bytes.length then some (lossy ((b.bytes.drop off).takeWhile (· ≠ 0))) else none

def Segments.gather (s : Segments) (p : Phdr) : Segments :=
  match p.type with
  | 1 => { s with loads := s.loads ++ [p] }
  | 2 => { s with dyn := some p }
  | 3 => { s with interp := readCstr lossy b p.offset }
  | _ => s

def rdPhdr (base : Nat) : Parse Phdr := do
  let type ← rdU32 b base
  let offset ← rdU64 b (← add base 8)
  let vaddr ← rdU64 b (← add base 16)
  let filesz ← rdU64 b (← add base 32)
  return ⟨type, offset, vaddr, filesz⟩

/-- The loop over the program headers from the `i`-th on. -/
def scan (phoff phentsize : Nat) : (left i : Nat) → Segments → Parse Segments
  | 0, _, s => return s
  | left + 1, i, s => do
      let skip ← ofOption (checkedMul i phentsize)
      let base ← ofOption (checkedAdd phoff skip)
      let p ← rdPhdr b base
      scan phoff phentsize left (i + 1) (s.gather lossy b p)

/-- `map_vaddr`. -/
def mapVaddr (va : Nat) : List Phdr → Parse (Option Nat)
  | [] => return none
  | load :: rest =>
      if load.vaddr ≤ va then do
        let stop ← add load.vaddr load.filesz
        if va < stop then
          let off ← add load.offset (va - load.vaddr)
          return some off
        else mapVaddr va rest
      else mapVaddr va rest

def strtabOff (loads : List Phdr) : Option Nat → Parse (Option Nat)
  | some va => mapVaddr va loads
  | none => return none

def Dynamic.gather (d : Dynamic) (tag val : Nat) : Dynamic :=
  match tag with
  | 1 => { d with needed := d.needed ++ [val] }
  | 5 => { d with strtab := some val }
  | 15 => { d with rpath := d.rpath ++ [val] }
  | 29 => { d with runpath := d.runpath ++ [val] }
  | _ => d

/-- The loop over the dynamic entries from the `i`-th on. -/
def walk (dynOff : Nat) : (left i : Nat) → Dynamic → Parse Dynamic
  | 0, _, d => return d
  | left + 1, i, d => do
      let e ← add dynOff (← mul i 16)
      let tag ← rdU64 b e
      let val ← rdU64 b (← add e 8)
      if tag = 0 then return d
      else walk dynOff left (i + 1) (d.gather tag val)

def resolve (strtab : Option Nat) (off : Nat) : Option String := do
  let start ← strtab
  readCstr lossy b (← checkedAdd start off)

def splitPaths (strtab : Option Nat) (offs : List Nat) : List String :=
  ((offs.filterMap (resolve lossy b strtab)).flatMap (·.splitOn ":")).filter (· ≠ "")

/-- The tests before the first loop. -/
def IsElf64 : Prop :=
  64 ≤ b.bytes.length ∧ b.bytes.take 4 = [0x7f, 0x45, 0x4c, 0x46] ∧
    b.bytes.getD 4 0 = 2 ∧ b.bytes.getD 5 0 = 1

instance : Decidable (IsElf64 b) := inferInstanceAs (Decidable (_ ∧ _))

/-- The part after the loop over the program headers. -/
def parseDynamic (segments : Segments) : Parse ElfDyn := do
  let dyn ← ofOption segments.dyn
  let dynamic ← walk b dyn.offset (dyn.filesz / 16) 0 {}
  let strtab ← strtabOff segments.loads dynamic.strtab
  return {
    interp := segments.interp
    needed := dynamic.needed.filterMap (resolve lossy b strtab)
    runpaths := splitPaths lossy b strtab dynamic.runpath
    rpaths := splitPaths lossy b strtab dynamic.rpath }

def parseElf64 : Parse ElfDyn :=
  if ¬IsElf64 b then .error (.error ())
  else do
    let phoff ← rdUsize b 0x20
    let phentsize ← rdU16 b 0x36
    let phnum ← rdU16 b 0x38
    if phentsize < 56 then .error (.error ())
    else scan lossy b phoff phentsize phnum 0 {} >>= parseDynamic lossy b

end

/-! ## The tables of a file -/

section

variable (b : Slice)

def phoff : Nat := (num b 0x20 8).getD 0
def phentsize : Nat := (num b 0x36 2).getD 0
def phnum : Nat := (num b 0x38 2).getD 0

def phdrAt (base : Nat) : Option Phdr := do
  let type ← num b base 4
  let offset ← num b (base + 8) 8
  let vaddr ← num b (base + 16) 8
  let filesz ← num b (base + 32) 8
  return ⟨type, offset, vaddr, filesz⟩

def phdrsFrom (base size : Nat) : Nat → Option (List Phdr)
  | 0 => some []
  | left + 1 => do
      let p ← phdrAt b base
      let rest ← phdrsFrom (base + size) size left
      return p :: rest

/-- The program headers, if all of them lie in the file. -/
def phdrs : Option (List Phdr) := phdrsFrom b (phoff b) (phentsize b) (phnum b)

/-- The entries before a `DT_NULL`, if all of them lie in the file. -/
def entriesFrom (e : Nat) : Nat → Option (List (Nat × Nat))
  | 0 => some []
  | left + 1 => do
      let tag ← num b e 8
      let val ← num b (e + 8) 8
      if tag = 0 then return []
      let rest ← entriesFrom (e + 16) left
      return (tag, val) :: rest

def dynamicEntries (dyn : Phdr) : Option (List (Nat × Nat)) :=
  entriesFrom b dyn.offset (dyn.filesz / 16)

end

/-- The last `PT_DYNAMIC` counts. -/
def dynamicOf (ps : List Phdr) : Option Phdr := ps.reverse.find? (·.type = 2)

def loadsOf (ps : List Phdr) : List Phdr := ps.filter (·.type = 1)

/-- The last `DT_STRTAB` counts. -/
def strtabOf (es : List (Nat × Nat)) : Option Nat := (es.reverse.find? (·.1 = 5)).map (·.2)

/-- The segments tried for an address end below `2 ^ 64`, and so does the place it is mapped to. -/
def Maps (va : Nat) (loads : List Phdr) : Prop :=
  ∀ before load after, loads = before ++ load :: after →
    (∀ l ∈ before, l.vaddr ≤ va → l.vaddr + l.filesz ≤ va) → load.vaddr ≤ va →
    load.vaddr + load.filesz < 2 ^ 64 ∧
      (va < load.vaddr + load.filesz → load.offset + (va - load.vaddr) < 2 ^ 64)

/-- No number of the file is too large for the sums it is used in. -/
structure Tame (b : Slice) : Prop where
  table : 0 < phnum b → phoff b + 4 < 2 ^ 64
  dynamic : ∀ ps, phdrs b = some ps → ∀ dyn, dynamicOf ps = some dyn → 16 ≤ dyn.filesz →
    dyn.offset + 8 < 2 ^ 64
  strings : ∀ ps, phdrs b = some ps → ∀ dyn, dynamicOf ps = some dyn →
    ∀ es, dynamicEntries b dyn = some es → ∀ va, strtabOf es = some va → Maps va (loadsOf ps)

/-! ## Reads -/

variable {lossy : List UInt8 → String} {b : Slice} {off k m n : Nat}

@[simp] theorem ofOption_some (a : α) : ofOption (some a) = .ok a := rfl

@[simp] theorem ofOption_none : ofOption (none : Option α) = .error (.error ()) := rfl

@[simp] theorem ok_bind (a : α) (f : α → Parse β) : (Except.ok a : Parse α) >>= f = f a := rfl

@[simp] theorem error_bind (e : Fault Unit) (f : α → Parse β) :
    (Except.error e : Parse α) >>= f = .error e := rfl

theorem add_eq (small : m + n < 2 ^ 64) : add m n = .ok (m + n) := if_pos small

theorem add_eq_panic (large : ¬m + n < 2 ^ 64) : add m n = .error .panic := if_neg large

theorem rd_eq (small : off + k < 2 ^ 64) : rd k b off = ofOption (num b off k) := by
  rw [rd, add_eq small, ok_bind]

theorem rd_eq_panic (large : ¬off + k < 2 ^ 64) : rd k b off = .error .panic := by
  rw [rd, add_eq_panic large, error_bind]

theorem inside_of_num (read : num b off k = some n) : off + k < 2 ^ 63 := by
  by_cases inside : off + k ≤ b.bytes.length
  · exact Nat.lt_of_le_of_lt inside b.short
  · simp [num, inside] at read

theorem num_lt (read : num b off k = some n) : n < 256 ^ k := by
  by_cases inside : off + k ≤ b.bytes.length
  · rw [num, if_pos inside] at read
    cases read
    have len : ((b.bytes.drop off).take k).length = k := by simp; omega
    have lt := ofLeBytes_lt ((b.bytes.drop off).take k)
    rwa [len] at lt
  · simp [num, inside] at read

theorem num_getD (inside : off + k ≤ b.bytes.length) :
    num b off k = some ((num b off k).getD 0) := by
  rw [num, if_pos inside, Option.getD_some]

theorem rdPhdr_eq (small : off + 4 < 2 ^ 64) : rdPhdr b off = ofOption (phdrAt b off) := by
  rw [rdPhdr, phdrAt, rdU32, rd_eq small]
  cases type : num b off 4 with
  | none => rfl
  | some type =>
    have inside := inside_of_num type
    simp only [ofOption_some, ok_bind, rdU64]
    rw [add_eq (by omega), add_eq (by omega), add_eq (by omega)]
    simp only [ok_bind]
    rw [rd_eq (by omega), rd_eq (by omega), rd_eq (by omega)]
    cases num b (off + 8) 8 with
    | none => rfl
    | some offset =>
      cases num b (off + 16) 8 with
      | none => rfl
      | some vaddr => cases num b (off + 32) 8 <;> rfl

theorem rdPhdr_eq_panic (large : ¬off + 4 < 2 ^ 64) : rdPhdr b off = .error .panic := by
  rw [rdPhdr, rdU32, rd_eq_panic large, error_bind]

theorem inside_of_phdrAt {p : Phdr} (read : phdrAt b off = some p) : off + 4 < 2 ^ 63 := by
  cases type : num b off 4 with
  | none => simp [phdrAt, type] at read
  | some type' => exact inside_of_num type

/-! ## The loops -/

/-- Only the first header can lie at the end of the address space. -/
theorem scan_eq {base size left i : Nat} (s : Segments) (few : i + left < 2 ^ 16)
    (narrow : size < 2 ^ 16) (start : base < 2 ^ 64)
    (small : 0 < left → base + i * size + 4 < 2 ^ 64) :
    scan lossy b base size left i s =
      ofOption ((phdrsFrom b (base + i * size) size left).map
        fun ps => ps.foldl (Segments.gather lossy b) s) := by
  induction left generalizing i s with
  | zero => rfl
  | succ left ih =>
    have here := small (Nat.succ_pos left)
    rw [scan, checkedMul, if_pos (by omega), ofOption_some, ok_bind, checkedAdd,
      if_pos (by omega), ofOption_some, ok_bind, rdPhdr_eq here, phdrsFrom]
    cases read : phdrAt b (base + i * size) with
    | none => rfl
    | some p =>
      have inside := inside_of_phdrAt read
      have next : base + (i + 1) * size = base + i * size + size := by
        rw [Nat.succ_mul, Nat.add_assoc]
      rw [ofOption_some, ok_bind, ih (s.gather lossy b p) (by omega) (by omega), next]
      cases phdrsFrom b (base + i * size + size) size left <;> rfl

theorem scan_eq_panic {base size left : Nat} (s : Segments) (start : base < 2 ^ 64)
    (large : ¬base + 4 < 2 ^ 64) :
    scan lossy b base size (left + 1) 0 s = .error .panic := by
  rw [scan, checkedMul, Nat.zero_mul, if_pos (by omega), ofOption_some, ok_bind, checkedAdd,
    if_pos (by omega), ofOption_some, ok_bind, Nat.add_zero, rdPhdr_eq_panic large, error_bind]

theorem walk_eq {base left i : Nat} (d : Dynamic) (few : (i + left) * 16 < 2 ^ 64)
    (small : 0 < left → base + i * 16 + 8 < 2 ^ 64) :
    walk b base left i d = ofOption ((entriesFrom b (base + i * 16) left).map
      fun es => es.foldl (fun d e => d.gather e.1 e.2) d) := by
  induction left generalizing i d with
  | zero => rfl
  | succ left ih =>
    have here := small (Nat.succ_pos left)
    rw [walk, mul, if_pos (by omega), ok_bind, add_eq (by omega), ok_bind, rdU64, rd_eq here,
      entriesFrom]
    cases tag : num b (base + i * 16) 8 with
    | none => rfl
    | some tag' =>
      have inside := inside_of_num tag
      rw [ofOption_some, ok_bind, add_eq (by omega), ok_bind, rd_eq (by omega)]
      cases num b (base + i * 16 + 8) 8 with
      | none => rfl
      | some val =>
        by_cases stop : tag' = 0
        · simp [stop]
        · have next : base + (i + 1) * 16 = base + i * 16 + 16 := by omega
          simp only [ofOption_some, ok_bind, stop, if_false, Option.bind_eq_bind,
            Option.bind_some]
          rw [ih (d.gather tag' val) (by omega) (by omega), next]
          cases entriesFrom b (base + i * 16 + 16) left <;> rfl

theorem walk_eq_panic {base left : Nat} (d : Dynamic) (start : base < 2 ^ 64)
    (large : ¬base + 8 < 2 ^ 64) : walk b base (left + 1) 0 d = .error .panic := by
  rw [walk, mul, Nat.zero_mul, if_pos (by omega), ok_bind, add_eq (by omega), ok_bind, rdU64,
    rd_eq_panic (by omega), error_bind]

theorem maps_cons {va : Nat} {load : Phdr} {rest : List Phdr} :
    Maps va (load :: rest) ↔
      (load.vaddr ≤ va → load.vaddr + load.filesz < 2 ^ 64 ∧
        (va < load.vaddr + load.filesz → load.offset + (va - load.vaddr) < 2 ^ 64)) ∧
      ((load.vaddr ≤ va → load.vaddr + load.filesz ≤ va) → Maps va rest) := by
  constructor
  · intro maps
    refine ⟨fun below => maps [] load rest rfl (by simp) below, fun passed before l after split => ?_⟩
    intro others
    apply maps (load :: before) l after (by rw [split, List.cons_append])
    simpa using ⟨passed, others⟩
  · rintro ⟨first, later⟩ before l after split others
    cases before with
    | nil =>
      cases split
      exact first
    | cons l' before =>
      cases split
      exact later (others load (by simp)) before l after rfl fun m member =>
        others m (List.mem_cons_of_mem _ member)

theorem mapVaddr_ne_panic_iff (va : Nat) (loads : List Phdr) :
    mapVaddr va loads ≠ .error .panic ↔ Maps va loads := by
  induction loads with
  | nil => simp [mapVaddr, Maps, pure, Except.pure]
  | cons load rest ih =>
    rw [mapVaddr, maps_cons]
    by_cases below : load.vaddr ≤ va
    · by_cases ends : load.vaddr + load.filesz < 2 ^ 64
      · rw [if_pos below, add_eq ends, ok_bind]
        by_cases inside : va < load.vaddr + load.filesz
        · have outside : ¬load.vaddr + load.filesz ≤ va := by omega
          by_cases mapped : load.offset + (va - load.vaddr) < 2 ^ 64
          · simp [-Nat.reducePow, inside, add_eq mapped, ends, mapped, below, outside, pure,
              Except.pure]
          · simp [-Nat.reducePow, inside, add_eq_panic mapped, mapped, below]
        · have passed : load.vaddr + load.filesz ≤ va := by omega
          simp [-Nat.reducePow, inside, ih, ends, passed]
      · simp [-Nat.reducePow, below, add_eq_panic ends, ends]
    · simp [below, ih]

theorem loads_foldl (ps : List Phdr) (s : Segments) :
    (ps.foldl (Segments.gather lossy b) s).loads = s.loads ++ loadsOf ps := by
  induction ps generalizing s with
  | nil => simp [loadsOf]
  | cons p ps ih =>
    rw [List.foldl_cons, ih]
    unfold Segments.gather loadsOf
    split <;> simp_all

theorem dyn_foldl (ps : List Phdr) (s : Segments) :
    (ps.foldl (Segments.gather lossy b) s).dyn = (dynamicOf ps).or s.dyn := by
  induction ps generalizing s with
  | nil => simp [dynamicOf]
  | cons p ps ih =>
    rw [List.foldl_cons, ih]
    unfold Segments.gather dynamicOf
    rw [List.reverse_cons, List.find?_append, Option.or_assoc]
    split <;> simp_all

theorem strtab_foldl (es : List (Nat × Nat)) (d : Dynamic) :
    (es.foldl (fun d e => d.gather e.1 e.2) d).strtab = (strtabOf es).or d.strtab := by
  induction es generalizing d with
  | nil => simp [strtabOf]
  | cons e es ih =>
    rw [List.foldl_cons, ih]
    unfold Dynamic.gather strtabOf
    rw [List.reverse_cons, List.find?_append, Option.map_or, Option.or_assoc]
    split <;> simp_all

theorem fields_lt {p : Phdr} (read : phdrAt b off = some p) :
    p.offset < 2 ^ 64 ∧ p.filesz < 2 ^ 64 := by
  simp only [phdrAt, Option.bind_eq_bind, Option.bind_eq_some_iff] at read
  obtain ⟨type, -, offset, readOffset, vaddr, -, filesz, readFilesz, made⟩ := read
  cases made
  exact ⟨num_lt readOffset, num_lt readFilesz⟩

theorem phdrsFrom_lt {size left : Nat} {ps : List Phdr} (read : phdrsFrom b off size left = some ps) :
    ∀ p ∈ ps, p.offset < 2 ^ 64 ∧ p.filesz < 2 ^ 64 := by
  induction left generalizing off ps with
  | zero =>
    cases read
    simp
  | succ left ih =>
    simp only [phdrsFrom, Option.bind_eq_bind, Option.bind_eq_some_iff] at read
    obtain ⟨p, first, rest, others, made⟩ := read
    cases made
    simpa using ⟨fields_lt first, ih others⟩

theorem strtabOff_ne_panic_iff (loads : List Phdr) (strtab : Option Nat) :
    strtabOff loads strtab ≠ .error .panic ↔ ∀ va, strtab = some va → Maps va loads := by
  cases strtab with
  | none => simp [strtabOff, pure, Except.pure]
  | some va => simp [strtabOff, ← mapVaddr_ne_panic_iff]

/-- After the program headers, the dynamic section and the string table are left. -/
theorem parseDynamic_ne_panic_iff {segments : Segments}
    (bounds : ∀ dyn ∈ segments.dyn, dyn.offset < 2 ^ 64 ∧ dyn.filesz < 2 ^ 64) :
    parseDynamic lossy b segments ≠ .error .panic ↔ ∀ dyn, segments.dyn = some dyn →
      (16 ≤ dyn.filesz → dyn.offset + 8 < 2 ^ 64) ∧
      ∀ es, dynamicEntries b dyn = some es → ∀ va, strtabOf es = some va →
        Maps va segments.loads := by
  rw [parseDynamic]
  cases found : segments.dyn with
  | none => simp
  | some dyn =>
    obtain ⟨start, size⟩ := bounds dyn found
    simp only [ofOption_some, ok_bind, Option.some.injEq, forall_eq']
    by_cases small : 16 ≤ dyn.filesz → dyn.offset + 8 < 2 ^ 64
    · rw [walk_eq (i := 0) {} (by omega) (by omega), Nat.zero_mul, Nat.add_zero,
        ← dynamicEntries, and_iff_right small]
      cases dynamicEntries b dyn with
      | none => simp
      | some es =>
        have tail := strtabOff_ne_panic_iff segments.loads (strtabOf es)
        simp only [Option.map_some, ofOption_some, ok_bind, strtab_foldl, Option.or_none]
        cases ended : strtabOff segments.loads (strtabOf es) with
        | error e => simpa [ended] using tail
        | ok off => simpa [ended, pure, Except.pure] using tail
    · obtain ⟨left, count⟩ : ∃ left, dyn.filesz / 16 = left + 1 :=
        ⟨dyn.filesz / 16 - 1, by omega⟩
      rw [count, walk_eq_panic {} start (by omega)]
      simp [-Nat.reducePow, small]

/-- **No panic.** The parser returns on every file whose numbers fit the sums they are used in, and
    on no other. -/
theorem parseElf64_returns_iff (lossy : List UInt8 → String) (b : Slice) :
    parseElf64 lossy b ≠ .error .panic ↔ (IsElf64 b → 56 ≤ phentsize b → Tame b) := by
  by_cases elf : IsElf64 b
  · have long := elf.1
    have base : num b 0x20 8 = _ := num_getD (by omega)
    have size : num b 0x36 2 = _ := num_getD (by omega)
    have count : num b 0x38 2 = _ := num_getD (by omega)
    rw [← phoff] at base
    rw [← phentsize] at size
    rw [← phnum] at count
    rw [parseElf64, if_neg (not_not_intro elf), rdUsize, rdU64, rdU16, rd_eq (by norm_num),
      rd_eq (by norm_num), rd_eq (by norm_num), base, size, count]
    simp only [ofOption_some, ok_bind]
    by_cases wide : phentsize b < 56
    · simp [wide, elf]
    · simp only [wide, if_false, elf, Nat.not_lt.mp wide, forall_const]
      have start := num_lt base
      by_cases table : 0 < phnum b → phoff b + 4 < 2 ^ 64
      · rw [scan_eq (i := 0) {} (by have := num_lt count; omega) (num_lt size) start (by simpa),
          Nat.zero_mul, Nat.add_zero, ← phdrs]
        cases read : phdrs b with
        | none =>
            simp
            exact ⟨table, by simp [read], by simp [read]⟩
        | some ps =>
            have bounds := phdrsFrom_lt read
            rw [Option.map_some, ofOption_some, ok_bind, parseDynamic_ne_panic_iff, loads_foldl,
              dyn_foldl, List.nil_append, Option.or_none]
            · constructor
              · intro fine
                refine ⟨table, ?_, ?_⟩
                all_goals
                  intro ps' read' dyn found
                  obtain rfl : ps = ps' := by simpa [read] using read'
                · exact (fine dyn found).1
                · exact (fine dyn found).2
              · intro tame dyn found
                exact ⟨tame.dynamic ps read dyn found, tame.strings ps read dyn found⟩
            · intro dyn found
              rw [dyn_foldl, Option.or_none] at found
              have member := List.mem_of_find?_eq_some found
              exact bounds dyn (List.mem_reverse.mp member)
      · obtain ⟨left, some⟩ : ∃ left, phnum b = left + 1 := ⟨phnum b - 1, by omega⟩
        rw [some, scan_eq_panic {} start (by omega), error_bind]
        simp only [ne_eq, not_true_eq_false, false_iff]
        exact fun tame => table tame.table
  · simp [parseElf64, elf]

/-! ## Two files -/

/-- The header of a file with program headers at `phoff`. -/
def ehdr (phoff phnum : Nat) : List UInt8 :=
  [0x7f, 0x45, 0x4c, 0x46, 2, 1] ++ List.replicate 26 0 ++ leBytes 8 phoff ++ List.replicate 14 0 ++
    leBytes 2 56 ++ leBytes 2 phnum ++ List.replicate 6 0

def phdr (type offset vaddr filesz : Nat) : List UInt8 :=
  leBytes 4 type ++ leBytes 4 0 ++ leBytes 8 offset ++ leBytes 8 vaddr ++ leBytes 8 0 ++
    leBytes 8 filesz ++ leBytes 8 0 ++ leBytes 8 0

theorem length_ehdr (phoff phnum : Nat) : (ehdr phoff phnum).length = 64 := by simp [ehdr]

theorem length_phdr (type offset vaddr filesz : Nat) :
    (phdr type offset vaddr filesz).length = 56 := by simp [phdr]

theorem far_short : (ehdr (2 ^ 64 - 1) 1).length < 2 ^ 63 := by simp [length_ehdr]

/-- The program headers are said to lie at the last byte of the address space. -/
def farTable : Slice := ⟨ehdr (2 ^ 64 - 1) 1, far_short⟩

def wideBytes : List UInt8 :=
  ehdr 64 2 ++ phdr 1 0 1 (2 ^ 64 - 1) ++ phdr 2 176 0 16 ++ leBytes 8 5 ++ leBytes 8 1

theorem wide_short : wideBytes.length < 2 ^ 63 := by simp [wideBytes, length_ehdr, length_phdr]

/-- A segment at address 1 is said to have `2 ^ 64 - 1` bytes; the string table lies at 1. -/
def wideSegment : Slice := ⟨wideBytes, wide_short⟩

/-- Both panic. -/
theorem elf_files_panic :
    parseElf64 (fun _ => "") farTable = .error .panic ∧
      parseElf64 (fun _ => "") wideSegment = .error .panic := by
  constructor <;> decide +kernel

end GlideFS.Oci.BootSet
