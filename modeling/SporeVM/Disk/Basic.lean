import SporeVM.DiskIndex

/-!
# The chunk-mapped disk: data model and host

The writable runtime disk of `chunk_mapped_disk.zig`. Every chunk has a source that says where its
bytes are: in the base file, in the overlay file, nowhere because they are zero, or in a verified
content-addressed object that has not been read yet.

A disk refers to host files by descriptor, so that two disks can live on one host. Host reads and
writes are exact unless the host's fault list says that the next one fails; a failed write may have
written a prefix. The BLAKE3 digest is a parameter `hash`.
-/

namespace SporeVM

open Lib
open Lib.EState (rejectIf modify_ok get_bind_ok rejectIf_bind_ok)

inductive Source
  | base | overlay | overlayClean | zero | zeroDirty | cas
  deriving DecidableEq

def sourceIsDirty (source : Source) : Bool := source = .overlay ∨ source = .zeroDirty

structure FileBlockSource where
  fd : ℕ
  size : ℕ

structure Overlay where
  fd : ℕ
  /-- Directory for overlay clones made by fork export. -/
  dir : String

structure Baseline (Id : Type) where
  root : String
  digests : List (DiskIndexChunk Id)
  /-- Logical coverage of `digests`. Growth extends only the source map. -/
  logicalSize : ℕ

inductive Index (Id : Type)
  | none
  | parent (baseline : Baseline Id)
  | cas (casRoot : String) (baseline : Baseline Id)

def Index.isNone {Id : Type} : Index Id → Bool
  | .none => true
  | .parent _ | .cas _ _ => false

structure ChunkMappedDisk (Id : Type) where
  base : FileBlockSource
  /-- Writes land here; a disk without one is read-only. -/
  overlay : Option Overlay
  size : ℕ
  chunkSize : ℕ
  sources : List Source
  index : Index Id
  pendingSnapshotIdentity : Option Id
  committedSnapshotIdentity : Option Id
  poisoned : Bool
  /-- Whether the host's image store fetcher is attached. -/
  remote : Bool
  chunkSize_pos : 0 < chunkSize
  size_le : size ≤ maxU64
  sources_length : sources.length = divCeil size chunkSize

/-- The image store fetcher: where it installs objects, the objects of its image's index with their
lengths, and what the store answers to a request. -/
structure Fetcher (Id : Type) where
  cacheRoot : String
  objects : List (Id × ℕ)
  get : Id → Option (List UInt8)

structure Host (Id : Type) where
  files : ℕ → SparseFile
  /-- Content-addressed objects, by root directory and digest. -/
  objects : String → Id → Option (List UInt8)
  /-- Published indexes in decoded form, by root directory and index digest. -/
  indexes : String → Id → Option (DiskIndex Id)
  fetcher : Fetcher Id
  /-- The outcomes of the coming file operations: `some n` fails after `n` bytes. -/
  faults : List (Option ℕ)

structure DiskState (Id : Type) where
  disk : ChunkMappedDisk Id
  host : Host Id

abbrev DiskM (Id : Type) := EStateM StorageError (DiskState Id)

variable {Id : Type}

-- ══ Pure helpers

namespace ChunkMappedDisk

variable (d : ChunkMappedDisk Id)

def chunkCount : ℕ := d.sources.length

def source (c : ℕ) : Source := d.sources.getD c .base

def setSource (c : ℕ) (source : Source) : ChunkMappedDisk Id :=
  { d with
    sources := d.sources.set c source
    sources_length := by rw [List.length_set]; exact d.sources_length }

def currentBaseline : Option (Baseline Id) :=
  match d.index with
  | .none => none
  | .parent baseline => some baseline
  | .cas _ baseline => some baseline

/-- The id the baseline records for a chunk; none for zero chunks and disks without a baseline. -/
def baselineId (c : ℕ) : Option Id :=
  match d.currentBaseline with
  | none => none
  | some parent => DigestIndex.get parent.digests c

def canReuseParentIndex : Bool :=
  match d.currentBaseline with
  | none => false
  | some parent => parent.logicalSize ≠ 0 ∧ parent.logicalSize ≤ d.size

def parentChunkCount : ℕ :=
  match d.currentBaseline with
  | none => 0
  | some parent => divCeil parent.logicalSize d.chunkSize

def chunkKnownZero (c : ℕ) : Bool :=
  if c ≥ d.chunkCount then false
  else match d.source c with
    | .zero | .zeroDirty => true
    | .base | .overlayClean =>
      d.canReuseParentIndex && decide (c < d.parentChunkCount) && (d.baselineId c).isNone
    | .overlay | .cas => false

def needsSnapshotSeal (c : ℕ) : Bool := sourceIsDirty (d.source c)

def chunkLen (c : ℕ) : Except StorageError ℕ :=
  if c ≥ d.chunkCount then .error .outOfRange
  else if c * d.chunkSize > maxU64 then .error .outOfRange
  else
    let stop := if c * d.chunkSize + d.chunkSize > maxU64 then d.size
      else c * d.chunkSize + d.chunkSize
    .ok (min stop d.size - c * d.chunkSize)

def checkRange (len offset : ℕ) : Except StorageError Unit :=
  if offset + len > maxU64 then .error .outOfRange
  else if offset + len > d.size then .error .outOfRange
  else .ok ()

end ChunkMappedDisk

structure Span where
  chunkIndex : ℕ
  chunkOffset : ℕ
  len : ℕ

namespace ChunkMappedDisk

def spanFor (d : ChunkMappedDisk Id) (offset remaining : ℕ) : Except StorageError Span :=
  if offset / d.chunkSize > maxU64 then .error .outOfRange
  else .ok ⟨offset / d.chunkSize, offset % d.chunkSize,
    min remaining (d.chunkSize - offset % d.chunkSize)⟩

end ChunkMappedDisk

-- ══ Host file access

def getDisk : DiskM Id (ChunkMappedDisk Id) := do
  let s ← get
  pure s.disk

def modifyDisk (f : ChunkMappedDisk Id → ChunkMappedDisk Id) : DiskM Id Unit :=
  modify fun s => { s with disk := f s.disk }

def nextFault : DiskM Id (Option ℕ) := do
  let s ← get
  modify fun s => { s with host := { s.host with faults := s.host.faults.tail } }
  pure s.host.faults.head?.join

def getFile (fd : ℕ) : DiskM Id SparseFile := do
  let s ← get
  pure (s.host.files fd)

def setFile (fd : ℕ) (f : SparseFile) : DiskM Id Unit :=
  modify fun s => { s with host := { s.host with files := Function.update s.host.files fd f } }

def preadExact (fd len offset : ℕ) : DiskM Id (List UInt8) := do
  let fault ← nextFault
  let file ← getFile fd
  rejectIf (fault ≠ none) .shortRead
  rejectIf (offset + len > file.size) .shortRead
  pure (slice file.byte offset len)

def readExact (fd len offset : ℕ) : DiskM Id (List UInt8) :=
  if len = 0 then pure []
  else do
    rejectIf (offset > maxOff) .outOfRange
    preadExact fd len offset

def writeExact (fd : ℕ) (data : List UInt8) (offset : ℕ) : DiskM Id Unit :=
  if data = [] then pure ()
  else do
    rejectIf (offset > maxOff) .outOfRange
    let fault ← nextFault
    let file ← getFile fd
    match fault with
    | none => setFile fd (file.pwrite offset data)
    | some n => do
      setFile fd (file.pwrite offset (data.take n))
      throw .shortWrite

def ftruncate (fd size : ℕ) : DiskM Id Unit := do
  rejectIf (size > maxOff) .badDiskSize
  let fault ← nextFault
  rejectIf (fault ≠ none) .resizeFailed
  let file ← getFile fd
  setFile fd (file.ftruncate size)

def FileBlockSource.readAt (source : FileBlockSource) (len offset : ℕ) : DiskM Id (List UInt8) := do
  rejectIf (offset + len > maxU64) .outOfRange
  rejectIf (offset + len > source.size) .outOfRange
  readExact source.fd len offset

def overlayFd (e : StorageError) : DiskM Id ℕ := do
  let d ← getDisk
  match d.overlay with
  | some overlay => pure overlay.fd
  | none => throw e

-- ══ What a successful host access did

open Lib.EState (bind_ok pure_ok)

variable {s s' : DiskState Id}

@[simp] lemma getDisk_ok {d : ChunkMappedDisk Id} : getDisk s = .ok d s' ↔ s.disk = d ∧ s = s' := by
  constructor
  · intro h
    obtain ⟨rfl, rfl⟩ := pure_ok.mp h
    exact ⟨rfl, rfl⟩
  · rintro ⟨rfl, rfl⟩
    rfl

lemma getDisk_bind_ok {α : Type} {f : ChunkMappedDisk Id → DiskM Id α} {a : α} :
    (getDisk >>= f) s = .ok a s' ↔ f s.disk s = .ok a s' := by
  simp [bind_ok]

@[simp] lemma modifyDisk_ok {u : Unit} {f : ChunkMappedDisk Id → ChunkMappedDisk Id} :
    modifyDisk f s = .ok u s' ↔ { s with disk := f s.disk } = s' := by
  simp [modifyDisk]

lemma nextFault_ok {fault : Option ℕ} (h : nextFault s = .ok fault s') :
    s'.disk = s.disk ∧ s'.host.files = s.host.files := by
  replace h := get_bind_ok.mp h
  obtain ⟨u, s₂, hmod, h⟩ := bind_ok.mp h
  cases modify_ok.mp hmod
  obtain ⟨-, rfl⟩ := pure_ok.mp h
  exact ⟨rfl, rfl⟩

@[simp] lemma getFile_ok {fd : ℕ} {f : SparseFile} :
    getFile fd s = .ok f s' ↔ s.host.files fd = f ∧ s = s' := by
  constructor
  · intro h
    obtain ⟨rfl, rfl⟩ := pure_ok.mp h
    exact ⟨rfl, rfl⟩
  · rintro ⟨rfl, rfl⟩
    rfl

lemma setFile_ok {fd : ℕ} {f : SparseFile} {u : Unit} (h : setFile fd f s = .ok u s') :
    s'.disk = s.disk ∧ s'.host.files = Function.update s.host.files fd f := by
  cases modify_ok.mp h
  exact ⟨rfl, rfl⟩

variable {data : List UInt8}

lemma preadExact_ok {fd len offset : ℕ} (h : preadExact fd len offset s = .ok data s') :
    data = slice (s.host.files fd).byte offset len ∧
      s'.disk = s.disk ∧ s'.host.files = s.host.files := by
  obtain ⟨fault, s₁, hfault, h⟩ := bind_ok.mp h
  obtain ⟨hdisk, hfiles⟩ := nextFault_ok hfault
  obtain ⟨file, s₂, hfile, h⟩ := bind_ok.mp h
  obtain ⟨rfl, rfl⟩ := getFile_ok.mp hfile
  iterate 2 obtain ⟨-, h⟩ := rejectIf_bind_ok.mp h
  obtain ⟨rfl, rfl⟩ := pure_ok.mp h
  exact ⟨by rw [hfiles], hdisk, hfiles⟩

lemma readExact_ok {fd len offset : ℕ}
    (h : readExact fd len offset s = .ok data s') : data = slice (s.host.files fd).byte offset len ∧
      s'.disk = s.disk ∧ s'.host.files = s.host.files := by
  unfold readExact at h
  split at h
  · next hlen =>
    obtain ⟨rfl, rfl⟩ := pure_ok.mp h
    exact ⟨by rw [hlen, slice_zero], rfl, rfl⟩
  · obtain ⟨-, h⟩ := rejectIf_bind_ok.mp h
    exact preadExact_ok h

lemma writeExact_ok {fd offset : ℕ} {u : Unit}
    (h : writeExact fd data offset s = .ok u s') : s'.disk = s.disk ∧
      s'.host.files = Function.update s.host.files fd ((s.host.files fd).pwrite offset data) := by
  unfold writeExact at h
  split at h
  · next hnil =>
    obtain ⟨-, rfl⟩ := pure_ok.mp h
    exact ⟨rfl, by rw [hnil, SparseFile.pwrite_nil, Function.update_eq_self]⟩
  · obtain ⟨-, h⟩ := rejectIf_bind_ok.mp h
    obtain ⟨fault, s₂, hfault, h⟩ := bind_ok.mp h
    obtain ⟨hdisk, hfiles⟩ := nextFault_ok hfault
    obtain ⟨file, s₃, hfile, h⟩ := bind_ok.mp h
    obtain ⟨rfl, rfl⟩ := getFile_ok.mp hfile
    cases fault with
    | none =>
      obtain ⟨hdisk', hfiles'⟩ := setFile_ok h
      exact ⟨hdisk'.trans hdisk, by rw [hfiles', hfiles]⟩
    | some n =>
      obtain ⟨_, _, -, h⟩ := bind_ok.mp h
      exact absurd h (by simp)

lemma ftruncate_ok {fd size : ℕ} {u : Unit} (h : ftruncate fd size s = .ok u s') :
    size ≤ maxOff ∧ s'.disk = s.disk ∧
      s'.host.files = Function.update s.host.files fd ((s.host.files fd).ftruncate size) := by
  obtain ⟨hle, h⟩ := rejectIf_bind_ok.mp h
  obtain ⟨fault, s₂, hfault, h⟩ := bind_ok.mp h
  obtain ⟨hdisk, hfiles⟩ := nextFault_ok hfault
  obtain ⟨-, h⟩ := rejectIf_bind_ok.mp h
  obtain ⟨file, s₄, hfile, h⟩ := bind_ok.mp h
  obtain ⟨rfl, rfl⟩ := getFile_ok.mp hfile
  obtain ⟨hdisk', hfiles'⟩ := setFile_ok h
  exact ⟨by omega, hdisk'.trans hdisk, by rw [hfiles', hfiles]⟩

lemma FileBlockSource.readAt_ok {source : FileBlockSource} {len offset : ℕ}
    (h : source.readAt len offset s = .ok data s') :
    data = slice (s.host.files source.fd).byte offset len ∧
      s'.disk = s.disk ∧ s'.host.files = s.host.files := by
  iterate 2 obtain ⟨-, h⟩ := rejectIf_bind_ok.mp h
  exact readExact_ok h

lemma overlayFd_ok {e : StorageError} {fd : ℕ} (h : overlayFd e s = .ok fd s') :
    s = s' ∧ ∃ overlay, s.disk.overlay = some overlay ∧ overlay.fd = fd := by
  replace h := getDisk_bind_ok.mp h
  cases hov : s.disk.overlay with
  | none => simp [hov] at h
  | some overlay =>
    simp only [hov] at h
    obtain ⟨rfl, rfl⟩ := pure_ok.mp h
    exact ⟨rfl, overlay, rfl, rfl⟩

-- ══ Geometry

namespace ChunkMappedDisk

variable {d : ChunkMappedDisk Id}

lemma lt_chunkCount {c : ℕ} : c < d.chunkCount ↔ c * d.chunkSize < d.size := by
  rw [chunkCount, d.sources_length, lt_divCeil d.chunkSize_pos]

lemma source_of_ge {c : ℕ} (h : d.chunkCount ≤ c) : d.source c = .base :=
  List.getD_eq_default _ _ h

@[simp] lemma setSource_chunkCount (c : ℕ) (source : Source) :
    (d.setSource c source).chunkCount = d.chunkCount :=
  List.length_set

@[simp] lemma setSource_base (c : ℕ) (source : Source) : (d.setSource c source).base = d.base := rfl

lemma setSource_source_self {c : ℕ} (h : c < d.chunkCount) (source : Source) :
    (d.setSource c source).source c = source := by
  simp only [ChunkMappedDisk.source, setSource, List.getD_eq_getElem?_getD]
  rw [List.getElem?_set_self h]
  rfl

lemma setSource_source_ne {c c' : ℕ} (h : c' ≠ c) (source : Source) :
    (d.setSource c source).source c' = d.source c' := by
  simp only [ChunkMappedDisk.source, setSource, List.getD_eq_getElem?_getD]
  rw [List.getElem?_set_ne (Ne.symm h)]

@[simp] lemma setSource_setSource (c : ℕ) (source source' : Source) :
    (d.setSource c source).setSource c source' = d.setSource c source' := by
  simp only [setSource, List.set_set]

lemma setSource_self (c : ℕ) : d.setSource c (d.source c) = d := by
  have hset : d.sources.set c (d.source c) = d.sources := by
    rcases Nat.lt_or_ge c d.sources.length with h | h
    · rw [ChunkMappedDisk.source, List.getD_eq_getElem _ _ h, List.set_getElem_self]
    · exact List.set_eq_of_length_le h
  cases d
  simp only [setSource, mk.injEq, true_and, and_true] at hset ⊢
  exact hset

lemma chunkLen_ok {c len : ℕ} (h : d.chunkLen c = .ok len) :
    c < d.chunkCount ∧ len = chunkExtent d.chunkSize d.size c := by
  obtain ⟨hc, h⟩ := Check.ite_error_ok.mp h
  obtain ⟨-, h⟩ := Check.ite_error_ok.mp h
  have hle := d.size_le
  refine ⟨by omega, ?_⟩
  cases h
  unfold chunkExtent
  split <;> omega

lemma checkRange_ok {len offset : ℕ} (h : d.checkRange len offset = .ok ()) :
    offset + len ≤ d.size := by
  obtain ⟨-, h⟩ := Check.ite_error_ok.mp h
  obtain ⟨h, -⟩ := Check.ite_error_ok.mp h
  omega

lemma spanFor_ok {offset remaining : ℕ} {span : Span} (h : d.spanFor offset remaining = .ok span) :
    span.chunkIndex * d.chunkSize ≤ offset ∧
      offset + span.len ≤ span.chunkIndex * d.chunkSize + d.chunkSize ∧
      span.len ≤ remaining ∧ (0 < remaining → 0 < span.len) ∧
      span.chunkOffset = offset - span.chunkIndex * d.chunkSize := by
  obtain ⟨-, h⟩ := Check.ite_error_ok.mp h
  cases h
  have hpos := d.chunkSize_pos
  have hmod := Nat.mod_lt offset hpos
  have hdiv := Nat.div_add_mod' offset d.chunkSize
  simp only
  omega

end ChunkMappedDisk

end SporeVM
