import SporeVM.Disk.IndexShape
import SporeVM.Lib.Yields

/-!
# Guest memory in the chunk store

`saveMemoryInternal` of `spore.zig` cuts a RAM image into chunks, elides the zero ones into ranges
and writes every other chunk to a file named by its digest. `loadMemory` validates a manifest and
reads the chunks it lists into zero-filled RAM, checking each against its digest.

A chunk file is what the reader sees of it: the size it reports and the bytes that come before the
end or a read error. File operations of a save may fail as the fault list of the directory says.
RAM is a byte array of fixed size, written in place.
-/

namespace SporeVM.Memory

open Lib
open Lib.EState (rejectIf runIf check bind_ok pure_ok rejectIf_ok modify_ok get_ok onError outcome
  run_of_reply throw_ok check_ok runIf_ok check_bind_ok get_bind_ok rejectIf_bind_ok)

variable {Id : Type}

inductive MemoryError
  | badManifest | badChunk | ioFailed | alreadyExists | outOfMemory
  /-- A failed overflow check. -/
  | overflow
  deriving DecidableEq

@[irreducible] def chunkSize : ℕ := 2 * 1024 * 1024

lemma chunkSize_pos : 0 < chunkSize := by
  rw [chunkSize]
  decide

def memoryObjectNamespace : String := "memory/blake3"

def ramBackingKind : String := "map-private-file-v0"

def ramBackingPath : String := "ram.backing"

structure MemoryBacking where
  kind : String := ramBackingKind
  path : String
  size : ℕ
  deriving DecidableEq

structure MemoryManifest (Id : Type) where
  kind : String := diskIndexKind
  logicalSize : ℕ
  chunkSize : ℕ
  hashAlgorithm : String := hashAlgorithmBlake3
  objectNamespace : String := memoryObjectNamespace
  chunks : List (DiskIndexChunk Id) := []
  zeroRanges : List DiskIndexZeroRange := []
  backing : Option MemoryBacking := none
  deriving DecidableEq

structure ChunkFile where
  /-- The offset of its end. -/
  size : ℕ
  /-- The bytes that can be read from its start. -/
  data : List UInt8
  deriving DecidableEq

-- ══ Validation

structure MemoryPlan where
  chunkSize : ℕ
  chunkCount : ℕ
  nonzeroChunkCount : ℕ
  deriving DecidableEq

structure MemoryChunkRange where
  start : ℕ
  stop : ℕ
  deriving DecidableEq

def validDiskClusterSize (clusterSize : ℕ) : Prop :=
  clusterSize ≠ 0 ∧ clusterSize % 512 = 0 ∧ clusterSize ≤ maxU64

instance (clusterSize : ℕ) : Decidable (validDiskClusterSize clusterSize) :=
  inferInstanceAs (Decidable (_ ∧ _))

def diskClusterCount (diskSize clusterSize : ℕ) : Except MemoryError ℕ := do
  Check.rejectIf (diskSize = 0 ∨ diskSize > maxU64) .badManifest
  Check.rejectIf (¬ validDiskClusterSize clusterSize) .badManifest
  Check.rejectIf (diskSize + (clusterSize - 1) > maxU64) .badManifest
  pure ((diskSize + (clusterSize - 1)) / clusterSize)

def memoryIndex (manifest : MemoryManifest Id) : DiskIndex Id where
  kind := manifest.kind
  logicalSize := manifest.logicalSize
  chunkSize := manifest.chunkSize
  hashAlgorithm := manifest.hashAlgorithm
  objectNamespace := manifest.objectNamespace
  chunks := manifest.chunks
  zeroRanges := manifest.zeroRanges

def memoryIndexDescriptor (expectedSize : ℕ) : IndexDescriptor where
  logicalSize := expectedSize
  chunkSize := chunkSize
  hashAlgorithm := hashAlgorithmBlake3
  objectNamespace := memoryObjectNamespace

def memoryIndexError : StorageError → MemoryError
  | .outOfMemory => .outOfMemory
  | _ => .badManifest

def validateMemoryForRam (manifest : MemoryManifest Id) (ramLen : ℕ) :
    Except MemoryError MemoryPlan := do
  (validateDiskIndex (memoryIndex manifest) (memoryIndexDescriptor ramLen)).mapError
    memoryIndexError
  Check.rejectIf (manifest.chunkSize ≠ chunkSize) .badManifest
  let chunkCount ← diskClusterCount ramLen manifest.chunkSize
  Check.rejectIf (chunkCount > maxU64) .badManifest
  pure { chunkSize, chunkCount, nonzeroChunkCount := manifest.chunks.length }

def memoryChunkRangeFromPlan (plan : MemoryPlan) (ramLen index : ℕ) :
    Except MemoryError MemoryChunkRange := do
  Check.rejectIf (index ≥ plan.chunkCount) .badManifest
  let start := index * plan.chunkSize
  pure { start, stop := min (start + plan.chunkSize) ramLen }

-- ══ Loading

abbrev RamM := EStateM MemoryError SparseFile

variable {manifest : MemoryManifest Id} {data : List UInt8} {range : MemoryChunkRange}

section Model

variable [DecidableEq Id] (hash : List UInt8 → Id)

/-- The end of reading a chunk of `len` bytes into place: all of it came, and it has its digest. -/
def checkLoaded (id : Id) (start len got : ℕ) : RamM Unit := do
  rejectIf (got < len) .ioFailed
  let ram ← get
  rejectIf (hash (slice ram.byte start len) ≠ id) .badChunk

def loadMemoryChunk (dir : Id → Option ChunkFile) (id : Id) (range : MemoryChunkRange) :
    RamM Unit :=
  match dir id with
  | none => throw .ioFailed
  | some file => do
    rejectIf (file.size ≠ range.stop - range.start) .badChunk
    modify fun ram => ram.pwrite range.start (file.data.take (range.stop - range.start))
    checkLoaded hash id range.start (range.stop - range.start) file.data.length

def loadChunks (dir : Id → Option ChunkFile) (plan : MemoryPlan) (ramLen : ℕ) :
    List (DiskIndexChunk Id) → RamM Unit
  | [] => pure ()
  | entry :: entries => do
    let range ← check (memoryChunkRangeFromPlan plan ramLen entry.logicalChunk)
    loadMemoryChunk hash dir entry.id range
    loadChunks dir plan ramLen entries

def loadMemory (dir : Id → Option ChunkFile) (manifest : MemoryManifest Id) : RamM Unit := do
  let ram ← get
  let plan ← check (validateMemoryForRam manifest ram.size)
  loadChunks hash dir plan ram.size manifest.chunks

-- ══ Saving

structure SporeDir (Id : Type) where
  /-- The files of the chunk directory, by the digest they are named after. -/
  chunks : Id → Option ChunkFile
  backing : Option SparseFile
  backingTmp : Option SparseFile
  /-- The outcomes of the coming file operations: `some n` fails after `n` bytes. -/
  faults : List (Option ℕ)

abbrev SaveM (Id : Type) := EStateM MemoryError (SporeDir Id)

def nextFault : SaveM Id (Option ℕ) := do
  let s ← get
  modify fun s => { s with faults := s.faults.tail }
  pure (s.faults.headD none)

def fileOp : SaveM Id Unit := do
  let fault ← nextFault
  rejectIf (fault ≠ none) .ioFailed

/-- `writeFileAllIfMissing`: an existing file must hold the same bytes; a new one appears whole. -/
def writeFileAllIfMissing (id : Id) (data : List UInt8) : SaveM Id Unit := do
  let s ← get
  match s.chunks id with
  | some file => do
    rejectIf (file.size ≠ data.length ∨ file.data.take data.length ≠ data) .badChunk
    fileOp
  | none => do
    fileOp
    modify fun s =>
      { s with chunks := Function.update s.chunks id (some ⟨data.length, data⟩) }
    fileOp

def pwriteFileAll (start : ℕ) (data : List UInt8) : SaveM Id Unit := do
  let fault ← nextFault
  modify fun s =>
    { s with backingTmp := s.backingTmp.map fun f =>
      f.pwrite start (data.take (fault.getD data.length)) }
  rejectIf (fault ≠ none) .ioFailed

def writeSealed (withBacking : Bool) (i : ℕ) (data : List UInt8) : SealResult Id → SaveM Id Unit
  | .zero => pure ()
  | .data id => do
    writeFileAllIfMissing id data
    runIf (withBacking = true) (pwriteFileAll (i * chunkSize) data)

def saveChunk (ram : SparseFile) (withBacking : Bool) (draft : Draft Id) (i : ℕ) :
    SaveM Id (Draft Id) := do
  writeSealed withBacking i (chunkSlice chunkSize ram.size ram.byte i)
    (sealBytes hash (chunkSlice chunkSize ram.size ram.byte i))
  pure (draft.record i (sealBytes hash (chunkSlice chunkSize ram.size ram.byte i)))

def createBacking (ramLen : ℕ) : SaveM Id Unit := do
  fileOp
  let s ← get
  rejectIf (s.backingTmp.isSome) .alreadyExists
  modify fun s => { s with backingTmp := some (SparseFile.zeros 0) }
  fileOp
  modify fun s => { s with backingTmp := some (SparseFile.zeros ramLen) }

def publishBacking : SaveM Id Unit := do
  fileOp
  fileOp
  let s ← get
  rejectIf (s.backing.isSome) .alreadyExists
  fileOp
  modify fun s => { s with backing := s.backingTmp, backingTmp := none }

def saveChunks (ram : SparseFile) (withBacking : Bool) : SaveM Id (MemoryManifest Id) := do
  runIf (withBacking = true) (createBacking ram.size)
  rejectIf (ram.size + chunkSize > maxU64) .overflow
  let draft ← (List.range ((ram.size + chunkSize - 1) / chunkSize)).foldlM
    (saveChunk hash ram withBacking) ⟨[], []⟩
  runIf (withBacking = true) publishBacking
  pure
    { logicalSize := ram.size
      chunkSize
      chunks := draft.chunks
      zeroRanges := draft.zeroRanges
      backing := if withBacking = true then some { path := ramBackingPath, size := ram.size }
        else none }

def dropBackingTmp : SaveM Id Unit := modify fun s => { s with backingTmp := none }

def saveMemoryInternal (ram : SparseFile) (withBacking : Bool) : SaveM Id (MemoryManifest Id) := do
  fileOp
  fileOp
  onError (saveChunks hash ram withBacking) (runIf (withBacking = true) dropBackingTmp)

-- ══ What a load puts into RAM

def Holds (dir : Id → Option ChunkFile) (id : Id) (data : List UInt8) : Prop :=
  ∃ file, dir id = some file ∧ file.size = data.length ∧ file.data.take data.length = data

omit [DecidableEq Id] in
lemma Holds.unique {dir : Id → Option ChunkFile} {id : Id} {data data' : List UInt8}
    (h : Holds dir id data) (h' : Holds dir id data') : data = data' := by
  obtain ⟨file, hfile, hsize, hdata⟩ := h
  obtain ⟨file', hfile', hsize', hdata'⟩ := h'
  obtain rfl : file = file' := Option.some.inj (hfile.symm.trans hfile')
  rw [← hdata, ← hdata', ← hsize, ← hsize']

omit [DecidableEq Id] in
lemma slice_pwrite (f : SparseFile) (off : ℕ) (data : List UInt8) :
    slice (f.pwrite off data).byte off data.length = data :=
  ((eq_slice_iff rfl).mpr fun i hlo hhi => f.pwrite_byte_in off data i hlo hhi).symm

variable {hash} {dir : Id → Option ChunkFile} {ram ram' : SparseFile} {u : Unit}

lemma loadMemoryChunk_ok {id : Id} : loadMemoryChunk hash dir id range ram = .ok u ram' ↔
      ∃ data, Holds dir id data ∧ data.length = range.stop - range.start ∧ hash data = id ∧
        ram' = ram.pwrite range.start data := by
  unfold loadMemoryChunk
  cases hfile : dir id with
  | none =>
    refine ⟨fun h => (throw_ok.mp h).elim, ?_⟩
    rintro ⟨data, ⟨file, hfile', -⟩, -⟩
    rw [hfile] at hfile'
    cases hfile'
  | some file =>
    constructor
    · intro h
      obtain ⟨hsize, h⟩ := rejectIf_bind_ok.mp h
      obtain ⟨_, ram₁, hwrite, h⟩ := bind_ok.mp h
      obtain rfl := modify_ok.mp hwrite
      obtain ⟨hgot, h⟩ := rejectIf_bind_ok.mp h
      obtain ⟨hmatch, rfl⟩ := rejectIf_ok.mp h
      have hlen : (file.data.take (range.stop - range.start)).length =
          range.stop - range.start := by
        rw [List.length_take]
        omega
      have hslice := slice_pwrite ram range.start (file.data.take (range.stop - range.start))
      rw [hlen] at hslice
      rw [hslice] at hmatch
      refine ⟨_, ⟨file, hfile, ?_, ?_⟩, hlen, not_not.mp hmatch, rfl⟩
      · rw [hlen]
        exact not_not.mp hsize
      · rw [hlen]
    · rintro ⟨data, ⟨file', hfile', hsize, hdata⟩, hlen, hmatch, rfl⟩
      obtain rfl : file = file' := Option.some.inj (hfile.symm.trans hfile')
      rw [← hlen]
      have hgot : data.length ≤ file.data.length := by
        have := congrArg List.length hdata
        rw [List.length_take] at this
        omega
      refine bind_ok.mpr ⟨(), ram, rejectIf_ok.mpr ⟨not_not.mpr hsize, rfl⟩, ?_⟩
      refine bind_ok.mpr ⟨⟨⟩, _, modify_ok.mpr rfl, ?_⟩
      rw [hdata]
      refine bind_ok.mpr ⟨(), _, rejectIf_ok.mpr ⟨by omega, rfl⟩, ?_⟩
      refine bind_ok.mpr ⟨_, _, get_ok.mpr ⟨rfl, rfl⟩, ?_⟩
      rw [slice_pwrite]
      exact rejectIf_ok.mpr ⟨not_not.mpr hmatch, rfl⟩

variable {plan : MemoryPlan}

lemma memoryChunkRangeFromPlan_ok {ramLen index : ℕ} :
    memoryChunkRangeFromPlan plan ramLen index = .ok range ↔ index < plan.chunkCount ∧
      range = ⟨index * plan.chunkSize, min (index * plan.chunkSize + plan.chunkSize) ramLen⟩ := by
  constructor
  · intro h
    obtain ⟨_, hlt, h⟩ := Check.bind_ok.mp h
    cases h
    exact ⟨by have := Check.rejectIf_ok.mp hlt; omega, rfl⟩
  · rintro ⟨hlt, rfl⟩
    exact Check.rejectIf_bind_ok.mpr ⟨by omega, rfl⟩

def Loaded (hash : List UInt8 → Id) (dir : Id → Option ChunkFile) (ram : SparseFile)
    (entry : DiskIndexChunk Id) : Prop :=
  ∃ data, Holds dir entry.id data ∧ hash data = entry.id ∧
    data.length = chunkExtent chunkSize ram.size entry.logicalChunk ∧
    chunkSlice chunkSize ram.size ram.byte entry.logicalChunk = data

omit [DecidableEq Id] in
lemma Loaded.of_agree {entry : DiskIndexChunk Id} (h : Loaded hash dir ram entry)
    (hsize : ram'.size = ram.size)
    (hsame : ∀ i, InChunk chunkSize ram.size entry.logicalChunk i → ram'.byte i = ram.byte i) :
    Loaded hash dir ram' entry := by
  obtain ⟨data, hholds, hdigest, hlen, hslice⟩ := h
  refine ⟨data, hholds, hdigest, by rw [hsize, hlen], ?_⟩
  rw [hsize, ← hslice]
  exact chunkSlice_eq_iff.mpr hsame

variable (hplan : plan.chunkSize = chunkSize)

include hplan

lemma loadEntry_ok {entry : DiskIndexChunk Id}
    (hin : InChunk chunkSize ram.size entry.logicalChunk (entry.logicalChunk * chunkSize))
    (hrange : memoryChunkRangeFromPlan plan ram.size entry.logicalChunk = .ok range)
    (h : loadMemoryChunk hash dir entry.id range ram = .ok u ram') :
    ram'.size = ram.size ∧ Loaded hash dir ram' entry ∧
      ∀ i, ¬ InChunk chunkSize ram.size entry.logicalChunk i → ram'.byte i = ram.byte i := by
  obtain ⟨-, rfl⟩ := memoryChunkRangeFromPlan_ok.mp hrange
  obtain ⟨data, hholds, hlen, hdigest, rfl⟩ := loadMemoryChunk_ok.mp h
  rw [hplan] at hlen ⊢
  have hextent : data.length = chunkExtent chunkSize ram.size entry.logicalChunk := hlen
  have hend : entry.logicalChunk * chunkSize + data.length ≤ ram.size := by
    have := hin.lt_size
    unfold chunkExtent at hextent
    omega
  have hsize := ram.pwrite_size_of_le (entry.logicalChunk * chunkSize) data hend
  refine ⟨hsize, ⟨data, hholds, hdigest, by rw [hsize, hextent], ?_⟩, fun i hi => ?_⟩
  · rw [hsize, chunkSlice, ← hextent]
    exact slice_pwrite _ _ _
  · refine ram.pwrite_byte_out _ _ _ ?_
    rw [inChunk_iff, ← hextent] at hi
    dsimp only
    omega

/-- **What the loop leaves in RAM**: under every entry the verified bytes of its chunk, and
everywhere else what was there before. -/
theorem loadChunks_ok {n : ℕ} (entries : List (DiskIndexChunk Id)) (hsorted : SortedChunks entries)
    (hlt : ∀ entry ∈ entries, entry.logicalChunk < divCeil n chunkSize) (hn : ram.size = n)
    (h : loadChunks hash dir plan n entries ram = .ok u ram') :
    ram'.size = n ∧ (∀ entry ∈ entries, Loaded hash dir ram' entry) ∧
      ∀ i, (∀ entry ∈ entries, ¬ InChunk chunkSize n entry.logicalChunk i) →
        ram'.byte i = ram.byte i := by
  induction entries generalizing ram with
  | nil =>
    obtain ⟨-, rfl⟩ := pure_ok.mp h
    exact ⟨hn, by simp, fun _ _ => rfl⟩
  | cons entry entries ih =>
    obtain ⟨hfirst, hsorted⟩ := List.pairwise_cons.mp hsorted
    obtain ⟨range, hrange, h⟩ := check_bind_ok.mp h
    obtain ⟨_, ram₁, hload, h⟩ := bind_ok.mp h
    subst hn
    have hstart := (lt_divCeil chunkSize_pos).mp (hlt entry (by simp))
    have hin : InChunk chunkSize ram.size entry.logicalChunk (entry.logicalChunk * chunkSize) :=
      ⟨Nat.le_refl _, Nat.lt_add_of_pos_right chunkSize_pos, hstart⟩
    obtain ⟨hsize₁, hloaded, hother⟩ := loadEntry_ok hplan hin hrange hload
    obtain ⟨hsize, hrest, hframe⟩ := ih hsorted (fun e he => hlt e (by simp [he])) hsize₁ h
    refine ⟨hsize, List.forall_mem_cons.mpr ⟨?_, hrest⟩, fun i hi => ?_⟩
    · -- later chunks are other chunks
      refine hloaded.of_agree (hsize.trans hsize₁.symm) fun i hi => hframe i fun e he hin' => ?_
      rw [hsize₁] at hi
      have heq := hi.unique hin'
      have := hfirst e he
      omega
    · obtain ⟨hhead, htail⟩ := List.forall_mem_cons.mp hi
      rw [hframe i htail, hother i hhead]

/-- The loop succeeds when every chunk it reads is there. -/
theorem loadChunks_of_holds {n : ℕ} {G : SparseFile} (entries : List (DiskIndexChunk Id))
    (hentries : ∀ entry ∈ entries, entry.logicalChunk < plan.chunkCount ∧
      Holds dir entry.id (chunkSlice chunkSize n G.byte entry.logicalChunk) ∧
      hash (chunkSlice chunkSize n G.byte entry.logicalChunk) = entry.id) :
    ∃ ram', loadChunks hash dir plan n entries ram = .ok () ram' := by
  induction entries generalizing ram with
  | nil => exact ⟨ram, rfl⟩
  | cons entry entries ih =>
    obtain ⟨⟨hlt, hholds, hdigest⟩, hrest⟩ := List.forall_mem_cons.mp hentries
    let range : MemoryChunkRange := ⟨entry.logicalChunk * plan.chunkSize,
      min (entry.logicalChunk * plan.chunkSize + plan.chunkSize) n⟩
    have hrange : memoryChunkRangeFromPlan plan n entry.logicalChunk = .ok range :=
      memoryChunkRangeFromPlan_ok.mpr ⟨hlt, rfl⟩
    have hlen : (chunkSlice chunkSize n G.byte entry.logicalChunk).length =
        range.stop - range.start := by
      rw [length_chunkSlice, chunkExtent, ← hplan]
    obtain ⟨ram', hrun⟩ := ih hrest
    refine ⟨ram', bind_ok.mpr ⟨range, ram, check_ok.mpr ⟨hrange, rfl⟩, ?_⟩⟩
    exact bind_ok.mpr ⟨(), _, loadMemoryChunk_ok.mpr ⟨_, hholds, hlen, hdigest, rfl⟩, hrun⟩

omit hplan

-- ══ What a save leaves behind

def Keeps (s s' : SporeDir Id) : Prop :=
  ∀ id file, s.chunks id = some file → s'.chunks id = some file

omit [DecidableEq Id] in
lemma Keeps.holds {s s' : SporeDir Id} (h : Keeps s s') {id : Id}
    (hholds : Holds s.chunks id data) : Holds s'.chunks id data := by
  obtain ⟨file, hfile, hrest⟩ := hholds
  exact ⟨file, h id file hfile, hrest⟩

variable {s s' : SporeDir Id}

omit [DecidableEq Id] in
lemma nextFault_ok {fault : Option ℕ} (h : nextFault s = .ok fault s') : s'.chunks = s.chunks := by
  replace h := get_bind_ok.mp h
  obtain ⟨_, _, hmodify, h⟩ := bind_ok.mp h
  obtain rfl := modify_ok.mp hmodify
  obtain ⟨-, rfl⟩ := pure_ok.mp h
  rfl

omit [DecidableEq Id] in
lemma fileOp_ok (h : fileOp s = .ok u s') : s'.chunks = s.chunks := by
  obtain ⟨_, _, hfault, h⟩ := bind_ok.mp h
  obtain ⟨-, rfl⟩ := rejectIf_ok.mp h
  exact nextFault_ok hfault

omit [DecidableEq Id] in
lemma pwriteFileAll_ok {start : ℕ} (h : pwriteFileAll start data s = .ok u s')
    : s'.chunks = s.chunks := by
  obtain ⟨_, s₁, hfault, h⟩ := bind_ok.mp h
  obtain ⟨_, _, hmodify, h⟩ := bind_ok.mp h
  obtain rfl := modify_ok.mp hmodify
  obtain ⟨-, rfl⟩ := rejectIf_ok.mp h
  have hchunks : s₁.chunks = s.chunks := nextFault_ok hfault
  exact hchunks

lemma writeFileAllIfMissing_ok {id : Id}
    (h : writeFileAllIfMissing id data s = .ok u s') : Keeps s s' ∧ Holds s'.chunks id data := by
  replace h := get_bind_ok.mp h
  cases hfile : s.chunks id with
  | some file =>
    rw [hfile] at h
    obtain ⟨hsame, h⟩ := rejectIf_bind_ok.mp h
    have hchunks := fileOp_ok h
    rw [not_or, not_not, not_not] at hsame
    refine ⟨fun id' file' hfile' => by rw [hchunks, hfile'], file, by rw [hchunks, hfile], ?_⟩
    exact hsame
  | none =>
    rw [hfile] at h
    obtain ⟨_, s₁, hwrite, h⟩ := bind_ok.mp h
    obtain ⟨_, s₂, hmodify, h⟩ := bind_ok.mp h
    obtain rfl := modify_ok.mp hmodify
    have hchunks := fileOp_ok h
    have hchunks₁ := fileOp_ok hwrite
    dsimp only at hchunks
    refine ⟨fun id' file' hfile' => ?_, ⟨data.length, data⟩, ?_, rfl, List.take_length⟩
    · have hne : id' ≠ id := by
        rintro rfl
        rw [hfile] at hfile'
        cases hfile'
      rw [hchunks, Function.update_of_ne hne, hchunks₁, hfile']
    · rw [hchunks, Function.update_self]

structure Saved (hash : List UInt8 → Id) (ram : SparseFile) (n : ℕ) (draft : Draft Id)
    (s : SporeDir Id) : Prop where
  draft : draft =
    draftOf (fun c => sealBytes hash (chunkSlice chunkSize ram.size ram.byte c)) n
  holds : ∀ c < n, ∀ id, sealBytes hash (chunkSlice chunkSize ram.size ram.byte c) = .data id →
    Holds s.chunks id (chunkSlice chunkSize ram.size ram.byte c)

variable {withBacking : Bool}

lemma writeSealed_ok {i : ℕ} {sealed : SealResult Id}
    (h : writeSealed withBacking i data sealed s = .ok u s') :
    Keeps s s' ∧ ∀ id, sealed = .data id → Holds s'.chunks id data := by
  cases sealed with
  | zero =>
    obtain ⟨-, rfl⟩ := pure_ok.mp h
    exact ⟨fun _ _ hfile => hfile, fun id hid => by cases hid⟩
  | data id =>
    obtain ⟨_, s₁, hwrite, h⟩ := bind_ok.mp h
    obtain ⟨hkeeps, hholds⟩ := writeFileAllIfMissing_ok hwrite
    have hchunks : s'.chunks = s₁.chunks := by
      rcases runIf_ok.mp h with ⟨-, hbacking⟩ | ⟨-, rfl⟩
      · exact pwriteFileAll_ok hbacking
      · rfl
    refine ⟨fun id' file hfile => by rw [hchunks, hkeeps id' file hfile], fun id' hid => ?_⟩
    cases hid
    rw [hchunks]
    exact hholds

lemma saveChunk_ok {draft draft' : Draft Id} {n : ℕ} (hsaved : Saved hash ram n draft s)
    (h : saveChunk hash ram withBacking draft n s = .ok draft' s') :
    Saved hash ram (n + 1) draft' s' := by
  obtain ⟨_, s₁, hwrite, h⟩ := bind_ok.mp h
  obtain ⟨rfl, rfl⟩ := pure_ok.mp h
  obtain ⟨hkeeps, hholds⟩ := writeSealed_ok hwrite
  refine ⟨by rw [hsaved.draft, draftOf], fun c hc id hid => ?_⟩
  rcases Nat.lt_succ_iff_lt_or_eq.mp hc with hc | rfl
  · exact hkeeps.holds (hsaved.holds c hc id hid)
  · exact hholds id hid

omit [DecidableEq Id] in
lemma publishBacking_ok (h : publishBacking s = .ok u s') : s'.chunks = s.chunks := by
  obtain ⟨_, s₁, hsync, h⟩ := bind_ok.mp h
  obtain ⟨_, s₂, hmode, h⟩ := bind_ok.mp h
  obtain ⟨-, h⟩ := rejectIf_bind_ok.mp h
  obtain ⟨_, s₃, hlink, h⟩ := bind_ok.mp h
  obtain rfl := modify_ok.mp h
  exact (fileOp_ok hlink).trans ((fileOp_ok hmode).trans (fileOp_ok hsync))

/-- **A save**: the manifest is the draft of the image, and every chunk it lists is there. -/
theorem saveChunks_ok (h : saveMemoryInternal hash ram withBacking s = .ok manifest s') :
    ram.size + chunkSize ≤ maxU64 ∧
      Saved hash ram (divCeil ram.size chunkSize) ⟨manifest.chunks, manifest.zeroRanges⟩ s' ∧
      manifest.kind = diskIndexKind ∧ manifest.logicalSize = ram.size ∧
      manifest.chunkSize = chunkSize ∧ manifest.hashAlgorithm = hashAlgorithmBlake3 ∧
      manifest.objectNamespace = memoryObjectNamespace := by
  iterate 2 obtain ⟨_, _, -, h⟩ := bind_ok.mp h
  obtain ⟨_, _, -, h⟩ := bind_ok.mp (EState.onError_ok.mp h)
  obtain ⟨hle, h⟩ := rejectIf_bind_ok.mp h
  obtain ⟨draft, s₂, hloop, h⟩ := bind_ok.mp h
  obtain ⟨_, s₃, hpublish, h⟩ := bind_ok.mp h
  obtain ⟨rfl, rfl⟩ := pure_ok.mp h
  have hsaved : Saved hash ram (divCeil ram.size chunkSize) draft s₂ := by
    exact EState.foldlM_range_ok (f := saveChunk hash ram withBacking) (I := Saved hash ram)
      (fun n draft s draft' s' _ hsaved hstep => saveChunk_ok hsaved hstep)
      ⟨rfl, fun c hc => absurd hc (Nat.not_lt_zero c)⟩ hloop
  have hchunks : s₃.chunks = s₂.chunks := by
    rcases runIf_ok.mp hpublish with ⟨-, hpublish⟩ | ⟨-, rfl⟩
    · exact publishBacking_ok hpublish
    · rfl
  refine ⟨by omega, ⟨hsaved.draft, ?_⟩, rfl, rfl, rfl, rfl, rfl⟩
  rw [hchunks]
  exact hsaved.holds

-- ══ The round trip

omit [DecidableEq Id] in
lemma validateMemoryForRam_ok {ramLen : ℕ} (h : validateMemoryForRam manifest ramLen = .ok plan) :
    plan.chunkSize = chunkSize ∧ SortedChunks manifest.chunks ∧
      ∀ entry ∈ manifest.chunks, entry.logicalChunk < divCeil ramLen chunkSize := by
  obtain ⟨_, hindex, h⟩ := Check.bind_ok.mp h
  obtain ⟨_, hsize, h⟩ := Check.bind_ok.mp h
  obtain ⟨count, -, h⟩ := Check.bind_ok.mp h
  obtain ⟨_, -, h⟩ := Check.bind_ok.mp h
  cases h
  have hsize := not_not.mp (Check.rejectIf_ok.mp hsize)
  cases hvalid : validateDiskIndex (memoryIndex manifest) (memoryIndexDescriptor ramLen) with
  | error e =>
    rw [hvalid] at hindex
    cases hindex
  | ok _ =>
    obtain ⟨_, -, h⟩ := Check.bind_ok.mp hvalid
    obtain ⟨_, hlogical, h⟩ := Check.bind_ok.mp h
    iterate 3 obtain ⟨_, -, h⟩ := Check.bind_ok.mp h
    have hlogical := not_not.mp (Check.rejectIf_ok.mp hlogical)
    obtain ⟨-, hsorted, hcovers⟩ := covers_of_validateIndexShape h
    refine ⟨rfl, hsorted, fun entry hmem => ?_⟩
    have := ((hcovers.covered entry.logicalChunk).mp (.inl ⟨entry, hmem, rfl⟩)).2
    rwa [hlogical, memoryIndex, hsize] at this

/-- **What any load guarantees**: bytes under a chunk reference come from a chunk file with the
digest and the length of the reference, and every other byte is still zero. -/
theorem loadMemory_ok {n : ℕ} (h : loadMemory hash dir manifest (SparseFile.zeros n) = .ok u ram') :
    ram'.size = n ∧ (∀ entry ∈ manifest.chunks, Loaded hash dir ram' entry) ∧
      ∀ i, (∀ entry ∈ manifest.chunks, ¬ InChunk chunkSize n entry.logicalChunk i) →
        ram'.byte i = 0 := by
  obtain ⟨plan, hvalid, h⟩ := check_bind_ok.mp h
  obtain ⟨hplan, hsorted, hlt⟩ := validateMemoryForRam_ok hvalid
  exact loadChunks_ok hplan manifest.chunks hsorted hlt rfl h

omit [DecidableEq Id] in
lemma validateIndexShape_memoryIndex
    {decision : ℕ → SealResult Id} (hkind : manifest.kind = diskIndexKind)
    (hsize : manifest.chunkSize = chunkSize) (hle : manifest.logicalSize ≤ maxU64)
    (hchunks : manifest.chunks = (draftOf decision (divCeil manifest.logicalSize chunkSize)).chunks)
    (hranges : manifest.zeroRanges =
      (draftOf decision (divCeil manifest.logicalSize chunkSize)).zeroRanges) :
    validateIndexShape (memoryIndex manifest) = .ok () := by
  refine @validateIndexShape_draftOf _ (memoryIndex manifest) decision hkind ?_ ?_ ?_ ?_
  · rw [memoryIndex, hsize]
    exact chunkSize_pos
  · rw [memoryIndex, hsize]
    exact (divCeil_le chunkSize_pos.ne').trans hle
  · rw [memoryIndex, hsize]
    exact hchunks
  · rw [memoryIndex, hsize]
    exact hranges

omit [DecidableEq Id] in
lemma validateMemoryForRam_saved (hle : ram.size + chunkSize ≤ maxU64) (hne : ram.size ≠ 0)
    (hsaved : Saved hash ram (divCeil ram.size chunkSize) ⟨manifest.chunks, manifest.zeroRanges⟩ s)
    (hkind : manifest.kind = diskIndexKind) (hlogical : manifest.logicalSize = ram.size)
    (hsize : manifest.chunkSize = chunkSize)
    (halgorithm : manifest.hashAlgorithm = hashAlgorithmBlake3)
    (hnamespace : manifest.objectNamespace = memoryObjectNamespace) :
    ∃ plan, validateMemoryForRam manifest ram.size = .ok plan ∧ plan.chunkSize = chunkSize ∧
      plan.chunkCount = divCeil ram.size chunkSize := by
  have hpos := chunkSize_pos
  have hcount : divCeil ram.size chunkSize ≤ maxU64 := (divCeil_le hpos.ne').trans (by omega)
  have hshape : validateIndexShape (memoryIndex manifest) = .ok () :=
    validateIndexShape_memoryIndex hkind hsize (by omega) (by rw [hlogical, ← hsaved.draft])
      (by rw [hlogical, ← hsaved.draft])
  have hindex : validateDiskIndex (memoryIndex manifest) (memoryIndexDescriptor ram.size) =
      .ok () := by
    refine Check.rejectIf_bind_ok.mpr ⟨hpos.ne', ?_⟩
    refine Check.rejectIf_bind_ok.mpr ⟨not_not.mpr hlogical, ?_⟩
    refine Check.rejectIf_bind_ok.mpr ⟨not_not.mpr hsize, ?_⟩
    refine Check.rejectIf_bind_ok.mpr ⟨not_not.mpr halgorithm, ?_⟩
    refine Check.rejectIf_bind_ok.mpr ⟨not_not.mpr hnamespace, ?_⟩
    exact hshape
  have hclusters : diskClusterCount ram.size manifest.chunkSize =
      .ok (divCeil ram.size chunkSize) := by
    rw [hsize]
    refine Check.rejectIf_bind_ok.mpr ⟨by omega, ?_⟩
    refine Check.rejectIf_bind_ok.mpr ⟨not_not.mpr ?_, ?_⟩
    · rw [chunkSize]
      decide
    refine Check.rejectIf_bind_ok.mpr ⟨by omega, ?_⟩
    rw [divCeil, Nat.add_sub_assoc hpos]
    rfl
  refine ⟨⟨chunkSize, divCeil ram.size chunkSize, manifest.chunks.length⟩, ?_, rfl, rfl⟩
  refine Check.bind_ok.mpr ⟨(), by rw [hindex]; rfl, ?_⟩
  refine Check.rejectIf_bind_ok.mpr ⟨not_not.mpr hsize, ?_⟩
  refine Check.bind_ok.mpr ⟨_, hclusters, ?_⟩
  exact Check.rejectIf_bind_ok.mpr ⟨by omega, rfl⟩

lemma loadMemory_saved (hne : ram.size ≠ 0)
    (h : saveMemoryInternal hash ram withBacking s = .ok manifest s') :
    loadMemory hash s'.chunks manifest (SparseFile.zeros ram.size) = .ok () ram := by
  obtain ⟨hle, hsaved, hkind, hlogical, hsize, halgorithm, hnamespace⟩ := saveChunks_ok h
  obtain ⟨plan, hvalid, hplan, hcount⟩ :=
    validateMemoryForRam_saved hle hne hsaved hkind hlogical hsize halgorithm hnamespace
  have hchunks := congrArg Draft.chunks hsaved.draft
  dsimp only at hchunks
  -- every listed chunk is the chunk of the image
  have hentry : ∀ entry ∈ manifest.chunks, entry.logicalChunk < plan.chunkCount ∧
      Holds s'.chunks entry.id (chunkSlice chunkSize ram.size ram.byte entry.logicalChunk) ∧
      hash (chunkSlice chunkSize ram.size ram.byte entry.logicalChunk) = entry.id := by
    intro entry hmem
    rw [hchunks] at hmem
    obtain ⟨hlt, hdata⟩ := mem_draftOf.mp hmem
    have hdescribes := describes_sealBytes hash
      (chunkSlice chunkSize ram.size ram.byte entry.logicalChunk)
    rw [hdata] at hdescribes
    exact ⟨by rw [hcount]; exact hlt, hsaved.holds _ hlt _ hdata, hdescribes⟩
  obtain ⟨ram', hrun⟩ : ∃ ram', loadChunks hash s'.chunks plan ram.size manifest.chunks
      (SparseFile.zeros ram.size) = .ok () ram' :=
    loadChunks_of_holds hplan manifest.chunks hentry
  have hload : loadMemory hash s'.chunks manifest (SparseFile.zeros ram.size) = .ok () ram' := by
    refine bind_ok.mpr ⟨_, _, get_ok.mpr ⟨rfl, rfl⟩, ?_⟩
    exact bind_ok.mpr ⟨plan, _, check_ok.mpr ⟨hvalid, rfl⟩, hrun⟩
  obtain ⟨hsize', hloaded, hzero⟩ := loadMemory_ok hload
  -- and what has been loaded is the image, chunk by chunk
  suffices hsame : ram' = ram by rw [hload, hsame]
  refine SparseFile.ext hsize' fun i => ?_
  rcases Nat.lt_or_ge i ram.size with hi | hi
  swap
  · rw [ram.zero_past_end i hi, ram'.zero_past_end i (by omega)]
  have hin := inChunk_div chunkSize_pos hi
  cases hseal : sealBytes hash (chunkSlice chunkSize ram.size ram.byte (i / chunkSize)) with
  | data id =>
    have hmem : (⟨i / chunkSize, id⟩ : DiskIndexChunk Id) ∈ manifest.chunks := by
      rw [hchunks]
      exact mem_draftOf.mpr ⟨div_lt_divCeil chunkSize_pos hi, hseal⟩
    obtain ⟨data, hholds, -, -, hslice⟩ := hloaded _ hmem
    rw [hholds.unique (hentry _ hmem).2.1, hsize'] at hslice
    exact chunkSlice_eq_iff.mp hslice i hin
  | zero =>
    have hall := describes_sealBytes hash (chunkSlice chunkSize ram.size ram.byte (i / chunkSize))
    rw [hseal] at hall
    rw [chunkSlice_all_zero.mp hall i hin]
    refine hzero i fun entry hmem hin' => ?_
    have hc := hin.unique hin'
    rw [hchunks] at hmem
    have hdata := (mem_draftOf.mp hmem).2
    rw [← hc, hseal] at hdata
    cases hdata

end Model

def emptyDir : SporeDir (List UInt8) := ⟨fun _ => none, none, none, []⟩

/-- An empty image can be saved, but a manifest of no memory is refused. -/
theorem empty_memory_not_loaded :
    ∃ manifest s', saveMemoryInternal id (SparseFile.zeros 0) false emptyDir = .ok manifest s' ∧
      (outcome (loadMemory id s'.chunks manifest) (SparseFile.zeros 0)).1 =
        .error .badManifest := by
  have hreply : (outcome (saveMemoryInternal id (SparseFile.zeros 0) false) emptyDir).1 =
      .ok { logicalSize := 0, chunkSize } := by decide +kernel
  exact ⟨_, _, run_of_reply hreply, by decide +kernel⟩

/-- **Saved memory loads back.** The manifest of any image but the empty one, loaded into zeroed RAM
of its length, gives the image again. And whatever the manifest and the chunk directory are, a load
that succeeds has put under every chunk reference the bytes of a chunk with its digest and length,
and has left every other byte zero. -/
theorem saved_memory_loads [DecidableEq Id] (hash : List UInt8 → Id) :
    (∀ (ram : SparseFile) (withBacking : Bool) (s s' : SporeDir Id) (manifest : MemoryManifest Id),
      ram.size ≠ 0 → saveMemoryInternal hash ram withBacking s = .ok manifest s' →
        loadMemory hash s'.chunks manifest (SparseFile.zeros ram.size) = .ok () ram) ∧
    ∀ (dir : Id → Option ChunkFile) (manifest : MemoryManifest Id) (n : ℕ) (ram' : SparseFile),
      loadMemory hash dir manifest (SparseFile.zeros n) = .ok () ram' →
        ram'.size = n ∧ (∀ entry ∈ manifest.chunks, Loaded hash dir ram' entry) ∧
          ∀ i, (∀ entry ∈ manifest.chunks, ¬ InChunk chunkSize n entry.logicalChunk i) →
            ram'.byte i = 0 :=
  ⟨fun _ _ _ _ _ hne h => loadMemory_saved hne h, fun _ _ _ _ h => loadMemory_ok h⟩

/-- Three bytes of memory, saved and loaded. -/
theorem saved_memory_loads_three_bytes : ∃ manifest s',
      saveMemoryInternal id (SparseFile.ofList [1, 0, 2]) false emptyDir = .ok manifest s' ∧
        loadMemory id s'.chunks manifest (SparseFile.zeros 3) =
          .ok () (SparseFile.ofList [1, 0, 2]) := by
  have hreply :
      (outcome (saveMemoryInternal id (SparseFile.ofList [1, 0, 2]) false) emptyDir).1 =
        .ok { logicalSize := 3, chunkSize, chunks := [⟨0, [1, 0, 2]⟩] } := by decide +kernel
  have hsaved := run_of_reply hreply
  have hloaded := (saved_memory_loads id).1 _ _ _ _ _ (by decide) hsaved
  exact ⟨_, _, hsaved, hloaded⟩

end SporeVM.Memory
