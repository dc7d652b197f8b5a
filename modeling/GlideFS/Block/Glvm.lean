import GlideFS.Lib.Bytes
import GlideFS.Lib.SortedMap
import Mathlib.Order.Fin.Basic

/-! # The GLVM format of volume manifests

A header of 32 bytes, the chunks in ascending order with their pack ids, the trailers
(`prefetch_len`, the fence token, the live counts) and a CRC. Which trailers there are follows
from the version, and the version from which fields are set.
-/

namespace GlideFS.Block.Glvm

open Lib

abbrev U32 : Type := Fin (2 ^ 32)

structure ChunkEntry where
  packs : List UInt64
  liveBlocks : Option UInt32

structure VolumeManifest where
  size : UInt64
  chunkSize : UInt64
  blockSize : UInt32
  chunks : SortedMap U32 ChunkEntry
  prefetchLen : Option UInt64
  generation : UInt64
  leaseRevision : UInt64

inductive VolumeManifestError where
  | tooShort
  | crcMismatch (stored computed : Nat)
  | badMagic
  | unsupportedVersion (version : Nat)
  | invalidConfig
  | packCountOverflow (chunkIdx : U32) (packCount : Nat)

/-- `b"GLVM"`. -/
def glvmMagic : List UInt8 := [71, 76, 86, 77]

def glvmHeaderSize : Nat := 32

def liveUnknown : UInt32 := 4294967295

def flagLiveCounts : UInt8 := 1

/-! ## Writing -/

def VolumeManifest.version (m : VolumeManifest) : Nat :=
  if 0 < m.leaseRevision then
    if m.prefetchLen.isSome then 10 else 9
  else match m.prefetchLen.isSome, (0 < m.generation : Bool) with
    | false, false => 5
    | true, false => 6
    | false, true => 7
    | true, true => 8

-- a cast to fewer bits keeps the low bytes, as `leBytes` does
def header (m : VolumeManifest) : List UInt8 :=
  glvmMagic ++ leBytes 2 m.version ++ leBytes 4 m.chunks.entries.length ++
    leBytes 4 m.chunkSize.toNat ++ leBytes 4 m.blockSize.toNat ++ leBytes 8 m.size.toNat ++
    [flagLiveCounts] ++ List.replicate 5 0

def packBytes (packs : List UInt64) : List UInt8 := packs.flatMap fun id => leBytes 8 id.toNat

def chunkBytes (c : U32 × ChunkEntry) : List UInt8 :=
  leBytes 4 c.1 ++ leBytes 2 c.2.packs.length ++ packBytes c.2.packs

def serializeChunk (c : U32 × ChunkEntry) : Except VolumeManifestError (List UInt8) :=
  if 65535 < c.2.packs.length then .error (.packCountOverflow c.1 c.2.packs.length)
  else .ok (chunkBytes c)

def prefetchTrailer (m : VolumeManifest) : List UInt8 :=
  match m.prefetchLen with
  | some len => leBytes 8 len.toNat
  | none => []

def fenceTrailer (m : VolumeManifest) : List UInt8 :=
  if 0 < m.leaseRevision then leBytes 8 m.generation.toNat ++ leBytes 8 m.leaseRevision.toNat
  else if 0 < m.generation then leBytes 8 m.generation.toNat
  else []

def liveTrailer (entries : List (U32 × ChunkEntry)) : List UInt8 :=
  entries.flatMap fun c => leBytes 4 (c.2.liveBlocks.getD liveUnknown).toNat

variable (crc32 : List UInt8 → UInt32)

def sealed (body : List UInt8) : List UInt8 := body ++ leBytes 4 (crc32 body).toNat

def serialize (m : VolumeManifest) : Except VolumeManifestError (List UInt8) := do
  let chunks ← m.chunks.entries.mapM serializeChunk
  return sealed crc32 (header m ++ chunks.flatten ++ prefetchTrailer m ++ fenceTrailer m ++
    liveTrailer m.chunks.entries)

/-! ## Reading -/

abbrev Parse : Type → Type := Except (Fault VolumeManifestError)

def fail {α : Type} (e : VolumeManifestError) : Parse α := .error (.error e)

def hasPrefetch (version : Nat) : Bool := version = 6 ∨ version = 8 ∨ version = 10

def hasGeneration (version : Nat) : Bool := version = 7 ∨ version = 8

def hasComposite (version : Nat) : Bool := version = 9 ∨ version = 10

structure Header where
  version : Nat
  chunkCount : Nat
  chunkSize : Nat
  blockSize : Nat
  deviceSize : Nat
  flags : Nat

def readHeader (data : List UInt8) : Parse Header := do
  let magic ← bytesAt data 0 4
  if magic ≠ glvmMagic then fail .badMagic
  else
    let version ← leAt data 4 2
    if ¬(5 ≤ version ∧ version ≤ 10) then fail (.unsupportedVersion version)
    else
      let chunkCount ← leAt data 6 4
      let chunkSize ← leAt data 10 4
      let blockSize ← leAt data 14 4
      let deviceSize ← leAt data 18 8
      let flags ← leAt data 26 1
      if blockSize = 0 ∨ chunkSize = 0 then fail .invalidConfig
      else return ⟨version, chunkCount, chunkSize, blockSize, deviceSize, flags⟩

def readPacks (data : List UInt8) : Nat → Nat → Parse (List UInt64)
  | 0, _ => return []
  | n + 1, pos => do
      let id ← leAt data pos 8
      let rest ← readPacks data n (pos + 8)
      return .ofNat id :: rest

/-- The chunks so far and the position after them. -/
def readChunks (data : List UInt8) (crcOffset : Nat) :
    Nat → SortedMap U32 ChunkEntry → Nat → Parse (SortedMap U32 ChunkEntry × Nat)
  | 0, chunks, pos => return (chunks, pos)
  | n + 1, chunks, pos =>
      if crcOffset < pos + 6 then fail .tooShort
      else do
        let chunkIdx ← leAt data pos 4
        let packCount ← leAt data (pos + 4) 2
        if crcOffset < pos + 6 + packCount * 8 then fail .tooShort
        else
          let packs ← readPacks data packCount (pos + 6)
          readChunks data crcOffset n (chunks.insert (.ofNat (2 ^ 32) chunkIdx) ⟨packs, none⟩)
            (pos + 6 + packCount * 8)

def readPrefetch (data : List UInt8) (crcOffset version pos : Nat) :
    Parse (Option UInt64 × Nat) :=
  if hasPrefetch version then
    if crcOffset < pos + 8 then fail .tooShort
    else do
      let len ← leAt data pos 8
      return (some (.ofNat len), pos + 8)
  else return (none, pos)

def readFence (data : List UInt8) (crcOffset version pos : Nat) :
    Parse ((UInt64 × UInt64) × Nat) :=
  if hasComposite version then
    if crcOffset < pos + 16 then fail .tooShort
    else do
      let generation ← leAt data pos 8
      let leaseRevision ← leAt data (pos + 8) 8
      return ((.ofNat generation, .ofNat leaseRevision), pos + 16)
  else if hasGeneration version then
    if crcOffset < pos + 8 then fail .tooShort
    else do
      let generation ← leAt data pos 8
      return ((.ofNat generation, 0), pos + 8)
  else return ((0, 0), pos)

def readCounts (data : List UInt8) : Nat → Nat → Parse (List UInt32)
  | 0, _ => return []
  | n + 1, pos => do
      let count ← leAt data pos 4
      let rest ← readCounts data n (pos + 4)
      return .ofNat count :: rest

/-- `(n != LIVE_UNKNOWN).then_some(n)`. -/
def knownCount (n : UInt32) : Option UInt32 := if n ≠ liveUnknown then some n else none

def setCounts (chunks : SortedMap U32 ChunkEntry) (counts : List UInt32) :
    SortedMap U32 ChunkEntry :=
  chunks.mapIdx fun i entry => { entry with liveBlocks := (counts[i]?).bind knownCount }

def readLive (data : List UInt8) (crcOffset : Nat) (h : Header)
    (chunks : SortedMap U32 ChunkEntry) (pos : Nat) : Parse (SortedMap U32 ChunkEntry) :=
  if h.flags % 2 = 1 then
    if crcOffset < pos + h.chunkCount * 4 then fail .tooShort
    else do
      let counts ← readCounts data chunks.entries.length pos
      return setCounts chunks counts
  else return chunks

def deserialize (data : List UInt8) : Parse VolumeManifest :=
  if data.length < glvmHeaderSize + 4 then fail .tooShort
  else do
    let crcOffset := data.length - 4
    let stored ← leAt data crcOffset 4
    let body ← bytesAt data 0 crcOffset
    if stored ≠ (crc32 body).toNat then fail (.crcMismatch stored (crc32 body).toNat)
    else
      let h ← readHeader data
      let (chunks, pos) ← readChunks data crcOffset h.chunkCount .empty glvmHeaderSize
      let (prefetchLen, pos) ← readPrefetch data crcOffset h.version pos
      let ((generation, leaseRevision), pos) ← readFence data crcOffset h.version pos
      let chunks ← readLive data crcOffset h chunks pos
      return {
        size := .ofNat h.deviceSize
        chunkSize := .ofNat h.chunkSize
        blockSize := .ofNat h.blockSize
        chunks
        prefetchLen
        generation
        leaseRevision }

/-- No live count is the mark of an unknown one. -/
def LiveKnown (chunks : SortedMap U32 ChunkEntry) : Prop :=
  ∀ c ∈ chunks.entries, c.2.liveBlocks ≠ some liveUnknown

/-- What the format can express: sizes and counts of four bytes, and no live count that is the
    mark of an unknown one. -/
structure VolumeManifest.Expressible (m : VolumeManifest) : Prop where
  chunkSize : m.chunkSize.toNat < 2 ^ 32
  chunkCount : m.chunks.entries.length < 2 ^ 32
  live : LiveKnown m.chunks

/-! ## Any input ends in a manifest or in an error -/

section

variable {data : List UInt8} {crcOffset : Nat}

def Safe {α : Type} (Q : α → Prop) (x : Parse α) : Prop := Ends (· ≠ .panic) Q x

theorem safe_fail {α : Type} {Q : α → Prop} (e : VolumeManifestError) : Safe Q (fail e) := nofun

theorem readHeader_safe (room : 32 ≤ data.length) :
    Safe (fun h => h.chunkCount < 2 ^ 32 ∧ h.chunkSize < 2 ^ 32) (readHeader data) := by
  apply (bytesAt_ends (by omega)).bind
  intro magic _
  split
  · exact safe_fail _
  · apply (leAt_ends (by omega)).bind
    intro version _
    split
    · exact safe_fail _
    · apply (leAt_ends (by omega)).bind
      intro chunkCount countSmall
      apply (leAt_ends (by omega)).bind
      intro chunkSize sizeSmall
      apply (leAt_ends (by omega)).bind
      intro blockSize _
      apply (leAt_ends (by omega)).bind
      intro deviceSize _
      apply (leAt_ends (by omega)).bind
      intro flags _
      split
      · exact safe_fail _
      · exact ⟨countSmall, sizeSmall⟩

theorem readPacks_safe {n pos : Nat} (room : pos + n * 8 ≤ data.length) :
    Safe (fun _ => True) (readPacks data n pos) := by
  induction n generalizing pos with
  | zero => trivial
  | succ n ih =>
    apply (leAt_ends (by omega)).bind
    intro id _
    apply (ih (by omega)).bind
    intro rest _
    trivial

theorem liveKnown_empty : LiveKnown .empty := by
  intro c mem
  cases mem

variable {chunks : SortedMap U32 ChunkEntry}

theorem LiveKnown.insert (known : LiveKnown chunks) (k : U32) (packs : List UInt64) :
    LiveKnown (chunks.insert k ⟨packs, none⟩) := by
  intro c mem
  rcases mem_insertEntry mem with rfl | mem
  · nofun
  · exact known c mem

theorem liveKnown_setCounts (chunks : SortedMap U32 ChunkEntry) (counts : List UInt32) :
    LiveKnown (setCounts chunks counts) := by
  intro c mem
  obtain ⟨i, _, rfl⟩ := List.mem_mapIdx.mp mem
  simp only [ne_eq, Option.bind_eq_some_iff, knownCount]
  rintro ⟨n, -, known⟩
  split at known
  · simp_all
  · cases known

theorem readChunks_safe (within : crcOffset ≤ data.length) {n pos : Nat} (known : LiveKnown chunks) :
    Safe (fun r => r.1.entries.length ≤ chunks.entries.length + n ∧ LiveKnown r.1)
      (readChunks data crcOffset n chunks pos) := by
  induction n generalizing pos chunks with
  | zero => exact ⟨le_rfl, known⟩
  | succ n ih =>
    unfold readChunks
    split
    · exact safe_fail _
    · apply (leAt_ends (by omega)).bind
      intro chunkIdx _
      apply (leAt_ends (by omega)).bind
      intro packCount _
      split
      · exact safe_fail _
      · apply (readPacks_safe (by omega)).bind
        intro packs _
        apply (ih (known.insert _ _)).mono
        rintro r ⟨count, known⟩
        have grown := length_insertEntry_le (Fin.ofNat (2 ^ 32) chunkIdx) ⟨packs, none⟩ chunks.entries
        exact ⟨by simp only [SortedMap.insert] at count; omega, known⟩

theorem readPrefetch_safe (within : crcOffset ≤ data.length) (version pos : Nat) :
    Safe (fun _ => True) (readPrefetch data crcOffset version pos) := by
  unfold readPrefetch
  split
  · split
    · exact safe_fail _
    · apply (leAt_ends (by omega)).bind
      intro len _
      trivial
  · trivial

theorem readFence_safe (within : crcOffset ≤ data.length) (version pos : Nat) :
    Safe (fun _ => True) (readFence data crcOffset version pos) := by
  unfold readFence
  split
  · split
    · exact safe_fail _
    · apply (leAt_ends (by omega)).bind
      intro generation _
      apply (leAt_ends (by omega)).bind
      intro leaseRevision _
      trivial
  · split
    · split
      · exact safe_fail _
      · apply (leAt_ends (by omega)).bind
        intro generation _
        trivial
    · trivial

theorem readCounts_safe {n pos : Nat} (room : pos + n * 4 ≤ data.length) :
    Safe (fun _ => True) (readCounts data n pos) := by
  induction n generalizing pos with
  | zero => trivial
  | succ n ih =>
    apply (leAt_ends (by omega)).bind
    intro count _
    apply (ih (by omega)).bind
    intro rest _
    trivial

/-- There are never more chunks than the header counts, so the check covers the loop. -/
theorem readLive_safe (within : crcOffset ≤ data.length) {h : Header} {pos : Nat}
    (known : LiveKnown chunks) (counted : chunks.entries.length ≤ h.chunkCount) :
    Safe (fun r => r.entries.length ≤ h.chunkCount ∧ LiveKnown r)
      (readLive data crcOffset h chunks pos) := by
  unfold readLive
  split
  · split
    · exact safe_fail _
    · apply (readCounts_safe (by omega)).bind
      intro counts _
      refine ⟨?_, liveKnown_setCounts chunks counts⟩
      simpa [setCounts, SortedMap.mapIdx] using counted
  · exact ⟨counted, known⟩

theorem deserialize_safe (data : List UInt8) :
    Safe VolumeManifest.Expressible (deserialize crc32 data) := by
  unfold deserialize
  split
  · exact safe_fail _
  · rename_i room
    simp only [glvmHeaderSize, not_lt] at room
    apply (leAt_ends (by omega)).bind
    intro stored _
    apply (bytesAt_ends (by omega)).bind
    intro body _
    split
    · exact safe_fail _
    · apply (readHeader_safe (by omega)).bind
      rintro h ⟨countSmall, sizeSmall⟩
      apply (readChunks_safe (by omega) liveKnown_empty).bind
      rintro ⟨chunks, pos⟩ ⟨counted, known⟩
      apply (readPrefetch_safe (by omega) _ _).bind
      rintro ⟨prefetchLen, pos⟩ -
      apply (readFence_safe (by omega) _ _).bind
      rintro ⟨⟨generation, leaseRevision⟩, pos⟩ -
      apply (readLive_safe (by omega) known (by simpa [SortedMap.empty] using counted)).bind
      rintro chunks ⟨counted, known⟩
      refine ⟨?_, lt_of_le_of_lt counted countSmall, known⟩
      simp only [UInt64.toNat_ofNat']
      omega

end

/-! ## What is written reads back -/

/-- What the callers of `serialize` keep to. -/
structure VolumeManifest.Valid (m : VolumeManifest) : Prop where
  chunkSize : m.chunkSize ≠ 0
  blockSize : m.blockSize ≠ 0
  packCount : ∀ c ∈ m.chunks.entries, c.2.packs.length ≤ 65535

/-- The bytes under the CRC. -/
def body (m : VolumeManifest) : List UInt8 :=
  header m ++ m.chunks.entries.flatMap chunkBytes ++ prefetchTrailer m ++ fenceTrailer m ++
    liveTrailer m.chunks.entries

theorem mapM_serializeChunk {entries : List (U32 × ChunkEntry)}
    (fits : ∀ c ∈ entries, c.2.packs.length ≤ 65535) :
    entries.mapM serializeChunk = .ok (entries.map chunkBytes) := by
  induction entries with
  | nil => rfl
  | cons c rest ih =>
    rw [List.mapM_cons, ih fun d mem => fits d (List.mem_cons_of_mem c mem), serializeChunk,
      if_neg (not_lt.mpr (fits c List.mem_cons_self))]
    rfl

theorem serialize_eq {m : VolumeManifest} (valid : m.Valid) :
    serialize crc32 m = .ok (sealed crc32 (body m)) := by
  rw [serialize, mapM_serializeChunk valid.packCount, body, List.flatMap_def]
  rfl

section

variable {data : List UInt8} {crcOffset pos : Nat} {m : VolumeManifest}

@[simp] theorem length_header (m : VolumeManifest) : (header m).length = 32 := by
  simp [header, glvmMagic]

theorem version_supported (m : VolumeManifest) : 5 ≤ m.version ∧ m.version ≤ 10 := by
  unfold VolumeManifest.version
  split_ifs <;> first | omega | (split <;> omega)

theorem hasPrefetch_version (m : VolumeManifest) :
    hasPrefetch m.version = m.prefetchLen.isSome := by
  unfold VolumeManifest.version
  cases m.prefetchLen.isSome <;> by_cases lease : 0 < m.leaseRevision <;>
    by_cases gen : 0 < m.generation <;> simp [lease, gen, hasPrefetch]

theorem hasComposite_version (m : VolumeManifest) :
    hasComposite m.version = (0 < m.leaseRevision : Bool) := by
  unfold VolumeManifest.version
  cases m.prefetchLen.isSome <;> by_cases lease : 0 < m.leaseRevision <;>
    by_cases gen : 0 < m.generation <;> simp [lease, gen, hasComposite]

theorem hasGeneration_version (lease : ¬0 < m.leaseRevision) :
    hasGeneration m.version = (0 < m.generation : Bool) := by
  unfold VolumeManifest.version
  cases m.prefetchLen.isSome <;> by_cases gen : 0 < m.generation <;>
    simp [lease, gen, hasGeneration]

theorem readHeader_holds (holds : Holds data 0 (header m)) (valid : m.Valid)
    (expressible : m.Expressible) :
    readHeader data = .ok ⟨m.version, m.chunks.entries.length, m.chunkSize.toNat,
      m.blockSize.toNat, m.size.toNat, 1⟩ := by
  have supported := version_supported m
  have chunkSize := expressible.chunkSize
  have chunkCount := expressible.chunkCount
  have noBlocks : m.blockSize.toNat ≠ 0 := by simpa [← UInt32.toNat_inj] using valid.blockSize
  have noChunks : m.chunkSize.toNat ≠ 0 := by simpa [← UInt64.toNat_inj] using valid.chunkSize
  simp only [header, holds_append, List.length_append, length_leBytes] at holds
  obtain ⟨⟨⟨⟨⟨⟨⟨magic, version⟩, count⟩, size⟩, block⟩, device⟩, flags⟩, -⟩ := holds
  have atMagic : bytesAt data 0 4 = (.ok glvmMagic : Parse _) := magic.bytesAt rfl
  have atVersion : leAt data 4 2 = (.ok m.version : Parse _) := version.leAt (by omega)
  have atCount : leAt data 6 4 = (.ok m.chunks.entries.length : Parse _) := count.leAt chunkCount
  have atSize : leAt data 10 4 = (.ok m.chunkSize.toNat : Parse _) := size.leAt chunkSize
  have atBlock : leAt data 14 4 = (.ok m.blockSize.toNat : Parse _) :=
    block.leAt m.blockSize.toNat_lt
  have atDevice : leAt data 18 8 = (.ok m.size.toNat : Parse _) := device.leAt m.size.toNat_lt
  have atFlags : leAt data 26 1 = (.ok 1 : Parse _) := Holds.leAt flags (by omega)
  simp [readHeader, atMagic, atVersion, atCount, atSize, atBlock, atDevice, atFlags, supported,
    noBlocks, noChunks, bind, Except.bind, pure, Except.pure]

theorem readPacks_holds {packs : List UInt64} (holds : Holds data pos (packBytes packs)) :
    readPacks data packs.length pos = .ok packs := by
  induction packs generalizing pos with
  | nil => rfl
  | cons id rest ih =>
    rw [packBytes, List.flatMap_cons, holds_append, length_leBytes] at holds
    rw [List.length_cons, readPacks, holds.1.leAt id.toNat_lt]
    simp [ih holds.2, bind, Except.bind, pure, Except.pure]

@[simp] theorem length_packBytes (packs : List UInt64) :
    (packBytes packs).length = packs.length * 8 := by
  induction packs with
  | nil => rfl
  | cons id rest ih => rw [packBytes, List.flatMap_cons, List.length_append, ← packBytes, ih,
      length_leBytes, List.length_cons]; omega

/-- A chunk as it is before the live counts are read. -/
def uncounted (c : U32 × ChunkEntry) : U32 × ChunkEntry := (c.1, { c.2 with liveBlocks := none })

theorem readChunks_holds {entries : List (U32 × ChunkEntry)} (chunks : SortedMap U32 ChunkEntry)
    (holds : Holds data pos (entries.flatMap chunkBytes))
    (room : pos + (entries.flatMap chunkBytes).length ≤ crcOffset)
    (fits : ∀ c ∈ entries, c.2.packs.length ≤ 65535)
    (sorted : ((chunks.entries ++ entries).map Prod.fst).Pairwise (· < ·)) :
    ∃ r, readChunks data crcOffset entries.length chunks pos =
        .ok (r, pos + (entries.flatMap chunkBytes).length) ∧
      r.entries = chunks.entries ++ entries.map uncounted := by
  induction entries generalizing pos chunks with
  | nil => exact ⟨chunks, rfl, by simp⟩
  | cons c rest ih =>
    have few := fits c List.mem_cons_self
    rw [List.flatMap_cons, holds_append] at holds
    rw [List.flatMap_cons, List.length_append] at room
    obtain ⟨here, later⟩ := holds
    have width : (chunkBytes c).length = 6 + c.2.packs.length * 8 := by
      simp [chunkBytes]
      omega
    simp only [chunkBytes, holds_append, List.length_append, length_leBytes] at here
    obtain ⟨⟨index, count⟩, packs⟩ := here
    have last : ∀ x ∈ chunks.entries.map Prod.fst, x < c.1 := by
      rw [List.map_append, List.map_cons, List.pairwise_append] at sorted
      exact fun x mem => sorted.2.2 x mem c.1 List.mem_cons_self
    have inserted : (chunks.insert c.1 ⟨c.2.packs, none⟩).entries =
        chunks.entries ++ [uncounted c] := insertEntry_last _ last
    obtain ⟨r, read, entries⟩ := ih (chunks.insert c.1 ⟨c.2.packs, none⟩) later
      (by omega) (fun d mem => fits d (List.mem_cons_of_mem c mem))
      (by rw [inserted]; simpa [uncounted] using sorted)
    refine ⟨r, ?_, by rw [entries, inserted]; simp⟩
    have atIndex : leAt data pos 4 = (.ok c.1.val : Parse _) := index.leAt c.1.isLt
    have atCount : leAt data (pos + 4) 2 = (.ok c.2.packs.length : Parse _) :=
      count.leAt (by omega)
    have atPacks : readPacks data c.2.packs.length (pos + 6) = .ok c.2.packs :=
      readPacks_holds packs
    have key : Fin.ofNat (2 ^ 32) c.1.val = c.1 := Fin.ofNat_val_eq_self c.1
    rw [width] at read
    rw [List.length_cons, readChunks, if_neg (by omega), atIndex]
    simp only [bind, Except.bind, atCount, atPacks, key]
    rw [if_neg (by omega), List.flatMap_cons, List.length_append, width, Nat.add_assoc pos 6,
      read, Nat.add_assoc]

theorem readPrefetch_holds (holds : Holds data pos (prefetchTrailer m))
    (room : pos + (prefetchTrailer m).length ≤ crcOffset) :
    readPrefetch data crcOffset m.version pos =
      .ok (m.prefetchLen, pos + (prefetchTrailer m).length) := by
  rw [readPrefetch, hasPrefetch_version]
  cases hint : m.prefetchLen with
  | none => simp [prefetchTrailer, hint, pure, Except.pure]
  | some len =>
    simp only [prefetchTrailer, hint, length_leBytes] at holds room
    rw [Option.isSome_some, if_pos rfl, if_neg (by omega), holds.leAt len.toNat_lt]
    simp [prefetchTrailer, hint, bind, Except.bind, pure, Except.pure]

theorem readFence_holds (holds : Holds data pos (fenceTrailer m))
    (room : pos + (fenceTrailer m).length ≤ crcOffset) :
    readFence data crcOffset m.version pos =
      .ok ((m.generation, m.leaseRevision), pos + (fenceTrailer m).length) := by
  rw [readFence, hasComposite_version]
  by_cases lease : 0 < m.leaseRevision
  · simp only [fenceTrailer, lease, if_true, holds_append, List.length_append,
      length_leBytes] at holds room
    rw [if_pos (by simpa using lease), if_neg (by omega), holds.1.leAt m.generation.toNat_lt]
    simp [fenceTrailer, lease, holds.2.leAt m.leaseRevision.toNat_lt, bind, Except.bind, pure,
      Except.pure]
  · have noLease : m.leaseRevision = 0 := by simpa using lease
    rw [if_neg (by simpa using noLease), hasGeneration_version lease]
    by_cases gen : 0 < m.generation
    · simp only [fenceTrailer, lease, gen, if_true, if_false, length_leBytes] at holds room
      rw [if_pos (by simpa using gen), if_neg (by omega), holds.leAt m.generation.toNat_lt]
      simp [fenceTrailer, gen, noLease, bind, Except.bind, pure, Except.pure]
    · have noGen : m.generation = 0 := by simpa using gen
      simp [fenceTrailer, noLease, noGen, pure, Except.pure]

def storedCount (c : U32 × ChunkEntry) : UInt32 := c.2.liveBlocks.getD liveUnknown

theorem readCounts_holds {entries : List (U32 × ChunkEntry)}
    (holds : Holds data pos (liveTrailer entries)) :
    readCounts data entries.length pos = .ok (entries.map storedCount) := by
  induction entries generalizing pos with
  | nil => rfl
  | cons c rest ih =>
    rw [liveTrailer, List.flatMap_cons, holds_append, length_leBytes] at holds
    rw [List.length_cons, readCounts, holds.1.leAt (UInt32.toNat_lt _)]
    simp [ih holds.2, storedCount, bind, Except.bind, pure, Except.pure]

theorem length_liveTrailer (entries : List (U32 × ChunkEntry)) :
    (liveTrailer entries).length = entries.length * 4 := by
  simp [liveTrailer, List.length_flatMap]

theorem knownCount_storedCount {c : U32 × ChunkEntry} (known : c.2.liveBlocks ≠ some liveUnknown) :
    knownCount (storedCount c) = c.2.liveBlocks := by
  cases live : c.2.liveBlocks with
  | none => simp [knownCount, storedCount, live]
  | some n => simp_all [knownCount, storedCount]

theorem setCounts_storedCount {chunks read : SortedMap U32 ChunkEntry} (known : LiveKnown chunks)
    (uncounted : read.entries = chunks.entries.map uncounted) :
    setCounts read (chunks.entries.map storedCount) = chunks := by
  apply SortedMap.ext
  apply List.ext_getElem
  · simp [setCounts, SortedMap.mapIdx, uncounted]
  · intro i _ inside
    have live := knownCount_storedCount (known _ (List.getElem_mem inside))
    simp [setCounts, SortedMap.mapIdx, uncounted, Glvm.uncounted, inside, live]

theorem readLive_holds {h : Header} {read : SortedMap U32 ChunkEntry} (known : LiveKnown m.chunks)
    (flagged : h.flags = 1) (counted : h.chunkCount = m.chunks.entries.length)
    (uncounted : read.entries = m.chunks.entries.map uncounted)
    (holds : Holds data pos (liveTrailer m.chunks.entries))
    (room : pos + (liveTrailer m.chunks.entries).length ≤ crcOffset) :
    readLive data crcOffset h read pos = .ok m.chunks := by
  have count : read.entries.length = m.chunks.entries.length := by
    rw [uncounted, List.length_map]
  rw [length_liveTrailer] at room
  rw [readLive, flagged, if_pos rfl, counted, if_neg (by omega), count, readCounts_holds holds]
  simp [setCounts_storedCount known uncounted, bind, Except.bind, pure, Except.pure]

theorem deserialize_sealed (valid : m.Valid) (expressible : m.Expressible) :
    deserialize crc32 (sealed crc32 (body m)) = .ok m := by
  have holds := Holds.whole (sealed crc32 (body m))
  have crcOffset : (sealed crc32 (body m)).length - 4 = (body m).length := by simp [sealed]
  nth_rewrite 2 [sealed] at holds
  generalize sealed crc32 (body m) = data at holds crcOffset
  obtain ⟨written, crc⟩ := holds_append.mp holds
  rw [Nat.zero_add] at crc
  have atCrc : leAt data (body m).length 4 = (.ok (crc32 (body m)).toNat : Parse _) :=
    crc.leAt (UInt32.toNat_lt _)
  have atBody : bytesAt data 0 (body m).length = (.ok (body m) : Parse _) := written.bytesAt rfl
  have widths : (body m).length = 32 + (m.chunks.entries.flatMap chunkBytes).length +
      (prefetchTrailer m).length + (fenceTrailer m).length +
      (liveTrailer m.chunks.entries).length := by
    simp only [body, List.length_append, length_header]
  have parts := written
  rw [body] at parts
  simp only [holds_append, Nat.zero_add, List.length_append, length_header] at parts
  obtain ⟨⟨⟨⟨atHeader, atChunks⟩, atPrefetch⟩, atFence⟩, atLive⟩ := parts
  have sorted : ((SortedMap.empty.entries ++ m.chunks.entries).map Prod.fst).Pairwise (· < ·) :=
    m.chunks.sorted
  obtain ⟨read, chunks, uncounted⟩ := readChunks_holds .empty atChunks
    (show _ ≤ (body m).length by omega) valid.packCount sorted
  rw [deserialize, if_neg (by simp only [glvmHeaderSize]; omega)]
  simp only [crcOffset, atCrc, atBody, ne_eq, not_true_eq_false, if_false, bind, Except.bind,
    readHeader_holds atHeader valid expressible, glvmHeaderSize, chunks,
    readPrefetch_holds atPrefetch (show _ ≤ (body m).length by omega),
    readFence_holds atFence (show _ ≤ (body m).length by omega)]
  rw [readLive_holds expressible.live rfl rfl uncounted atLive (by omega)]
  simp [pure, Except.pure]

end

/-- Every manifest with non-zero sizes and at most 65535 packs a chunk is written, and reads back
    as itself exactly if the format can express it; and no input makes the reader leave it. -/
theorem glvm_round_trip (m : VolumeManifest) (valid : m.Valid) :
    (∃ bytes, serialize crc32 m = .ok bytes ∧
      (deserialize crc32 bytes = .ok m ↔ m.Expressible)) ∧
    ∀ data, deserialize crc32 data ≠ .error .panic := by
  refine ⟨⟨_, serialize_eq crc32 valid, ?_, deserialize_sealed crc32 valid⟩, ?_⟩
  · intro read
    have safe := deserialize_safe crc32 (sealed crc32 (body m))
    rw [read] at safe
    exact safe
  · intro data panic
    have safe := deserialize_safe crc32 data
    rw [panic] at safe
    exact safe rfl

/-- Two chunks, one counted, with every optional field set. -/
def fullManifest : VolumeManifest where
  size := 268435456
  chunkSize := 134217728
  blockSize := 131072
  chunks := (SortedMap.empty.insert 1 ⟨[], none⟩).insert 0 ⟨[7, 9], some 3⟩
  prefetchLen := some 4096
  generation := 2
  leaseRevision := 5

/-- A checksum for the closed runs: how many bytes there are. -/
def lengthCrc (bytes : List UInt8) : UInt32 := .ofNat bytes.length

theorem fullManifest_valid : fullManifest.Valid where
  chunkSize := by decide
  blockSize := by decide
  packCount := by decide

theorem fullManifest_expressible : fullManifest.Expressible where
  chunkSize := by decide
  chunkCount := by decide
  live := by unfold LiveKnown; decide

theorem fullManifest_round_trip :
    ∃ bytes, serialize lengthCrc fullManifest = .ok bytes ∧
      deserialize lengthCrc bytes = .ok fullManifest := by
  obtain ⟨bytes, written, reads⟩ := (glvm_round_trip lengthCrc fullManifest fullManifest_valid).1
  exact ⟨bytes, written, reads.mpr fullManifest_expressible⟩

/-- Of a chunk size of 4 GiB the header keeps the low four bytes, which are zero. -/
def hugeChunks : VolumeManifest := { fullManifest with chunkSize := 4294967296 }

/-- A chunk with as many live blocks as the mark of an unknown count. -/
def markedCount : VolumeManifest :=
  { fullManifest with chunks := SortedMap.empty.insert 0 ⟨[7], some 4294967295⟩ }

theorem huge_chunks_refused_and_marked_count_lost :
    (hugeChunks.Valid ∧ ∃ bytes, serialize lengthCrc hugeChunks = .ok bytes ∧
      deserialize lengthCrc bytes = .error (.error .invalidConfig)) ∧
    markedCount.Valid ∧ ∃ bytes, serialize lengthCrc markedCount = .ok bytes ∧
      deserialize lengthCrc bytes =
        .ok { markedCount with chunks := SortedMap.empty.insert 0 ⟨[7], none⟩ } := by
  constructor
  · exact ⟨⟨by decide, by decide, by decide⟩, _, rfl, rfl⟩
  · exact ⟨⟨by decide, by decide, by decide⟩, _, rfl, rfl⟩

end GlideFS.Block.Glvm
