import SporeVM.Disk.Basic

/-!
# The chunk-mapped disk: opening, reading, writing, zeroing and growing

The operations of `chunk_mapped_disk.zig` that touch disk contents, in the order in which the source
touches the host: a failure keeps whatever was done before it. Buffers become lists of bytes; a
`while` loop becomes a recursion whose fuel is the number of bytes left, of which every iteration
takes at least one. `u64` arguments of the constructor are `UInt64`, so that the comparisons of a
`u64` with the largest `usize` that the source makes there disappear.
-/

namespace SporeVM

open Lib (divCeil divCeil_mono)
open Lib.EState (rejectIf runIf check)

variable {Id : Type} [DecidableEq Id] (hash : List UInt8 → Id)

-- ══ Opening

def freshDisk (base : FileBlockSource) (overlay : Option Overlay) (size : UInt64) (chunkSize : ℕ)
    (hpos : 0 < chunkSize) : ChunkMappedDisk Id where
  base := base
  overlay := overlay
  size := size.toNat
  chunkSize := chunkSize
  sources := List.replicate (divCeil size.toNat chunkSize) .base
  index := .none
  pendingSnapshotIdentity := none
  committedSnapshotIdentity := none
  poisoned := false
  remote := false
  chunkSize_pos := hpos
  size_le := Nat.le_pred_of_lt size.toNat_lt
  sources_length := List.length_replicate

def init (host : Host Id) (base : FileBlockSource) (overlay : Option Overlay)
    (size chunkSize : UInt64) : Except StorageError (DiskState Id) :=
  if size = 0 then .error .badDiskSize
  else if base.size < size.toNat then .error .badDiskSize
  else if h : chunkSize.toNat = 0 ∨ chunkSize.toNat % 512 ≠ 0 then .error .badClusterSize
  else
    let s : DiskState Id := ⟨freshDisk base overlay size chunkSize.toNat (by omega), host⟩
    match overlay with
    | none => .ok s
    | some value =>
      match ftruncate value.fd size.toNat s with
      | .ok _ s' => .ok s'
      | .error e _ => .error e

def baselineFrom (d : ChunkMappedDisk Id) (root : String) (index : DiskIndex Id) :
    Except StorageError (Baseline Id) :=
  if ∃ entry ∈ index.chunks, entry.logicalChunk ≥ d.chunkCount then .error .badManifest
  else .ok ⟨root, index.chunks, index.logicalSize⟩

def checkAttach (d : ChunkMappedDisk Id) (index : DiskIndex Id) : Except StorageError Unit := do
  Lib.Check.rejectIf (d.index.isNone = false) .badManifest
  Lib.Check.rejectIf (index.logicalSize ≠ d.size ∨ index.chunkSize ≠ d.chunkSize) .badManifest
  validateDiskIndex index ⟨d.size, d.chunkSize, hashAlgorithmBlake3, rootfsObjectNamespace⟩

/-- The source map of a freshly attached index: listed chunks are unread objects, others are
zero. -/
def indexSources (count : ℕ) (chunks : List (DiskIndexChunk Id)) : List Source :=
  chunks.foldl (fun sources entry => sources.set entry.logicalChunk .cas)
    (List.replicate count .zero)

omit [DecidableEq Id] in
lemma length_indexSources (count : ℕ) (chunks : List (DiskIndexChunk Id)) :
    (indexSources count chunks).length = count := by
  have hfold : ∀ (es : List (DiskIndexChunk Id)) (sources : List Source),
      (es.foldl (fun sources entry => sources.set entry.logicalChunk .cas) sources).length =
        sources.length := by
    intro es
    induction es with
    | nil => intro sources; rfl
    | cons e es ih => intro sources; rw [List.foldl_cons, ih, List.length_set]
  rw [indexSources, hfold, List.length_replicate]

def installIndexState (d : ChunkMappedDisk Id) (casRoot : String) (baseline : Baseline Id) :
    ChunkMappedDisk Id :=
  { d with
    sources := indexSources d.sources.length baseline.digests
    index := .cas casRoot baseline
    sources_length := by rw [length_indexSources]; exact d.sources_length }

def attachCasIndex (cacheRoot : String) (index : DiskIndex Id) : DiskM Id Unit := do
  let d ← getDisk
  check (checkAttach d index)
  let baseline ← check (baselineFrom d cacheRoot index)
  modifyDisk fun d => installIndexState d cacheRoot baseline

def attachParentIndex (cacheRoot : String) (index : DiskIndex Id) : DiskM Id Unit := do
  let d ← getDisk
  check (checkAttach d index)
  let baseline ← check (baselineFrom d cacheRoot index)
  modifyDisk fun d => { d with index := .parent baseline }

def attachRemote : DiskM Id Unit := modifyDisk fun d => { d with remote := true }

-- ══ Faulting in content-addressed objects

def verifyObject (object : Option (List UInt8)) (digest : Id) (len : ℕ) :
    Except StorageError (List UInt8) :=
  match object with
  | none => .error .missingChunk
  | some data =>
    if data.length ≠ len then .error .badChunk
    else if hash data ≠ digest then .error .badChunk
    else .ok data

def installObject (root : String) (digest : Id) (data : List UInt8) : DiskM Id Unit :=
  modify fun s => { s with host := { s.host with
    objects := Function.update s.host.objects root
      (Function.update (s.host.objects root) digest (some data)) } }

/-- Fetches a missing object from the image store and installs it. A failure poisons the disk: a
head that failed a read of its own base must not be published. -/
def fetchObject (digest : Id) (len : ℕ) : DiskM Id (List UInt8) := do
  let s ← get
  match verifyObject hash (s.host.fetcher.get digest) digest len with
  | .ok data => do
    installObject s.host.fetcher.cacheRoot digest data
    pure data
  | .error e => do
    modifyDisk fun d => { d with poisoned := true }
    throw e

def readCasObject (digest : Id) (len : ℕ) : DiskM Id (List UInt8) := do
  let s ← get
  match s.disk.index with
  | .none | .parent _ => throw .badManifest
  | .cas casRoot _ =>
    match verifyObject hash (s.host.objects casRoot digest) digest len with
    | .ok data => pure data
    | .error e => do
      rejectIf (e ≠ .missingChunk) e
      rejectIf (s.disk.remote = false) e
      rejectIf (s.disk.poisoned = true) .poisoned
      fetchObject hash digest len

def faultCasChunk (c : ℕ) : DiskM Id Unit := do
  let d ← getDisk
  rejectIf (c ≥ d.chunkCount) .outOfRange
  runIf (d.source c = .cas) do
    match d.baselineId c with
    | none => throw .badManifest
    | some id =>
      let len ← check (d.chunkLen c)
      let data ← readCasObject hash id len
      rejectIf (c * d.chunkSize > maxU64) .outOfRange
      writeExact d.base.fd data (c * d.chunkSize)
      modifyDisk (·.setSource c .base)

-- ══ Reading and writing

/-- The loop shared by reads and writes: `len` bytes at `offset`, one chunk's span at a time. The
body gets the cursor into the request, the absolute offset and the span. -/
def forSpans {α : Type} (offset len : ℕ) (body : ℕ → ℕ → Span → α → DiskM Id α) :
    ℕ → ℕ → α → DiskM Id α
  | 0, _, a => pure a
  | fuel + 1, cursor, a =>
    if cursor < len then do
      let d ← getDisk
      let span ← check (d.spanFor (offset + cursor) (len - cursor))
      let a ← body cursor (offset + cursor) span a
      forSpans offset len body fuel (cursor + span.len) a
    else pure a

def prefaultCasRange (len offset : ℕ) : DiskM Id Unit := do
  let d ← getDisk
  check (d.checkRange len offset)
  forSpans offset len (fun _ _ span _ => do
    let d ← getDisk
    runIf (d.source span.chunkIndex = .cas) (faultCasChunk hash span.chunkIndex)) len 0 ()

def readSpan (absolute : ℕ) (span : Span) : DiskM Id (List UInt8) := do
  let d ← getDisk
  match d.source span.chunkIndex with
  | .base => d.base.readAt span.len absolute
  | .overlay | .overlayClean => do
    let fd ← overlayFd .shortRead
    readExact fd span.len absolute
  | .zero | .zeroDirty => pure (List.replicate span.len 0)
  | .cas => do
    faultCasChunk hash span.chunkIndex
    d.base.readAt span.len absolute

def readAt (len offset : ℕ) : DiskM Id (List UInt8) := do
  prefaultCasRange hash len offset
  forSpans offset len (fun _ absolute span buf => do
    let target ← readSpan hash absolute span
    pure (buf ++ target)) len 0 []

def readChunk (c len : ℕ) : DiskM Id (List UInt8) := do
  let d ← getDisk
  let chunkLen ← check (d.chunkLen c)
  rejectIf (len ≠ chunkLen) .outOfRange
  rejectIf (c * d.chunkSize > maxU64) .outOfRange
  readAt hash len (c * d.chunkSize)

def seedChunk (c overlayFd : ℕ) : DiskM Id Unit := do
  let d ← getDisk
  let len ← check (d.chunkLen c)
  rejectIf (c * d.chunkSize > maxU64) .outOfRange
  match d.source c with
  | .base => do
    let buf ← d.base.readAt len (c * d.chunkSize)
    writeExact overlayFd buf (c * d.chunkSize)
  | .overlay | .overlayClean => pure ()
  | .zero | .zeroDirty => writeExact overlayFd (List.replicate len 0) (c * d.chunkSize)
  | .cas => do
    faultCasChunk hash c
    let buf ← d.base.readAt len (c * d.chunkSize)
    writeExact overlayFd buf (c * d.chunkSize)

def fullChunkWrite (d : ChunkMappedDisk Id) (span : Span) : Except StorageError Bool :=
  if span.chunkOffset = 0 then do
    let chunkLen ← d.chunkLen span.chunkIndex
    pure (decide (span.len = chunkLen))
  else pure false

def writeSpan (overlayFd : ℕ) (data : List UInt8) (absolute : ℕ) (span : Span) : DiskM Id Unit := do
  let d ← getDisk
  let full ← check (fullChunkWrite d span)
  let source := d.source span.chunkIndex
  runIf (source ≠ .overlay ∧ source ≠ .overlayClean ∧ full = false)
    (seedChunk hash span.chunkIndex overlayFd)
  runIf (source = .overlayClean) (modifyDisk (·.setSource span.chunkIndex .overlay))
  writeExact overlayFd data absolute
  modifyDisk (·.setSource span.chunkIndex .overlay)

def writeAt (buf : List UInt8) (offset : ℕ) : DiskM Id Unit := do
  let fd ← overlayFd .readOnly
  let d ← getDisk
  check (d.checkRange buf.length offset)
  forSpans offset buf.length (fun cursor absolute span _ =>
    writeSpan hash fd ((buf.drop cursor).take span.len) absolute span) buf.length 0 ()

def markZeroChunk (c : ℕ) : DiskM Id Unit := do
  let d ← getDisk
  rejectIf (d.overlay.isNone = true) .readOnly
  rejectIf (c ≥ d.chunkCount) .outOfRange
  runIf (d.chunkKnownZero c = false) (modifyDisk (·.setSource c .zeroDirty))

-- ══ Zeroing a range

structure PreparedBoundary where
  chunkIndex : ℕ
  chunkStart : ℕ
  zeroStart : ℕ
  zeroLen : ℕ
  bytes : List UInt8

def prepareBoundary (offset stop c : ℕ) : DiskM Id (List PreparedBoundary) := do
  rejectIf (c > maxU64) .outOfRange
  let d ← getDisk
  rejectIf (c * d.chunkSize > maxU64) .outOfRange
  let chunkStart := c * d.chunkSize
  let chunkLen ← check (d.chunkLen c)
  rejectIf (chunkStart + chunkLen > maxU64) .outOfRange
  let chunkEnd := chunkStart + chunkLen
  let rangeStart := max offset chunkStart
  let rangeEnd := min stop chunkEnd
  if rangeStart = chunkStart ∧ rangeEnd = chunkEnd then pure []
  else if d.chunkKnownZero c = true then pure []
  else do
    let bytes ← readChunk hash c chunkLen
    pure [⟨c, chunkStart, rangeStart - chunkStart, rangeEnd - rangeStart, bytes⟩]

def memsetZero (bytes : List UInt8) (start len : ℕ) : List UInt8 :=
  bytes.take start ++ List.replicate len 0 ++ bytes.drop (start + len)

/-- The body of the zero loop for the part of `[cursor, stop)` inside one chunk; returns the new
cursor. -/
def zeroStep (boundaries : List PreparedBoundary) (stop cursor : ℕ) : DiskM Id ℕ := do
  let d ← getDisk
  let c := cursor / d.chunkSize
  rejectIf (c > maxU64) .outOfRange
  rejectIf (c * d.chunkSize > maxU64) .outOfRange
  let chunkStart := c * d.chunkSize
  let chunkLen ← check (d.chunkLen c)
  rejectIf (chunkStart + chunkLen > maxU64) .outOfRange
  let rangeEnd := min stop (chunkStart + chunkLen)
  if cursor - chunkStart = 0 ∧ rangeEnd - cursor = chunkLen then do
    markZeroChunk c
    pure rangeEnd
  else if d.chunkKnownZero c = true then pure rangeEnd
  else
    match boundaries.find? (fun boundary => boundary.chunkIndex == c) with
    | none => throw .outOfRange
    | some boundary => do
      let bytes := memsetZero boundary.bytes boundary.zeroStart boundary.zeroLen
      if bytes.all (· == 0) = true then do
        markZeroChunk c
        pure rangeEnd
      else do
        writeAt hash bytes boundary.chunkStart
        pure rangeEnd

def zeroLoop (boundaries : List PreparedBoundary) (stop : ℕ) : ℕ → ℕ → DiskM Id Unit
  | 0, _ => pure ()
  | fuel + 1, cursor =>
    if cursor < stop then do
      let cursor ← zeroStep hash boundaries stop cursor
      zeroLoop boundaries stop fuel cursor
    else pure ()

def zeroRange (offset len : ℕ) : DiskM Id Unit := do
  let d ← getDisk
  rejectIf (d.overlay.isNone = true) .readOnly
  rejectIf (offset + len > maxU64) .outOfRange
  rejectIf (offset + len > d.size) .outOfRange
  if len = 0 then pure ()
  else do
    let stop := offset + len
    let firstChunk := offset / d.chunkSize
    let lastChunk := (stop - 1) / d.chunkSize
    let first ← prepareBoundary hash offset stop firstChunk
    let last ← (if lastChunk = firstChunk then pure []
      else prepareBoundary hash offset stop lastChunk)
    zeroLoop hash (first ++ last) stop len offset

-- ══ Growing

def readGrowthBoundary (c len : ℕ) : DiskM Id (List UInt8) := do
  let d ← getDisk
  rejectIf (c ≥ d.chunkCount) .outOfRange
  let chunkLen ← check (d.chunkLen c)
  rejectIf (len ≠ chunkLen) .outOfRange
  rejectIf (c * d.chunkSize > maxU64) .outOfRange
  match d.source c with
  | .base => d.base.readAt len (c * d.chunkSize)
  | .overlay | .overlayClean => do
    let fd ← overlayFd .shortRead
    readExact fd len (c * d.chunkSize)
  | .zero | .zeroDirty => pure (List.replicate len 0)
  | .cas =>
    match d.baselineId c with
    | none => throw .badManifest
    | some id => readCasObject hash id len

/-- The source a partial tail chunk takes when the disk grows past it. A tail that is not known to
be zero is rewritten into the overlay, so that a snapshot seals it at its new length. -/
def growTail (overlayFd c tailLen : ℕ) : DiskM Id Source := do
  let d ← getDisk
  if d.chunkKnownZero c = true then
    pure (if d.source c = .zeroDirty then .zeroDirty else .zero)
  else do
    let tail ← readGrowthBoundary hash c tailLen
    rejectIf (c * d.chunkSize > maxU64) .badDiskSize
    writeExact overlayFd tail (c * d.chunkSize)
    pure .overlay

def grownSources (sources : List Source) (tail : Option (ℕ × Source)) (newCount : ℕ) :
    List Source :=
  let old := match tail with
    | none => sources
    | some (c, source) => sources.set c source
  old ++ List.replicate (newCount - sources.length) .zero

lemma length_grownSources (sources : List Source) (tail : Option (ℕ × Source)) (newCount : ℕ)
    (h : sources.length ≤ newCount) : (grownSources sources tail newCount).length = newCount := by
  unfold grownSources
  rcases tail with _ | ⟨c, source⟩
  · simp
    omega
  · simp
    omega

def ChunkMappedDisk.grow (d : ChunkMappedDisk Id) (tail : Option (ℕ × Source)) (newSize : ℕ) :
    ChunkMappedDisk Id :=
  if h : d.size ≤ newSize ∧ newSize ≤ maxU64 then
    { d with
      size := newSize
      sources := grownSources d.sources tail (divCeil newSize d.chunkSize)
      size_le := h.2
      sources_length := length_grownSources _ _ _
        (by rw [d.sources_length]; exact divCeil_mono _ h.1) }
  else d

def growKnownZero (newSize : ℕ) : DiskM Id Unit := do
  let fd ← overlayFd .readOnly
  let d ← getDisk
  rejectIf (newSize < d.size) .badDiskSize
  if newSize = d.size then pure ()
  else do
    rejectIf (d.base.size < newSize) .badDiskSize
    rejectIf (divCeil newSize d.chunkSize > maxU64) .badDiskSize
    let tail ← (if d.size % d.chunkSize = 0 then pure none
      else do
        let source ← growTail hash fd (d.chunkCount - 1) (d.size % d.chunkSize)
        pure (some (d.chunkCount - 1, source)))
    ftruncate fd newSize
    modifyDisk (·.grow tail newSize)

end SporeVM
