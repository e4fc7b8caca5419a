import SporeVM.Disk.Zeroing

/-!
# Snapshots

`snapshotIndexWithStats` publishes an index of the current disk contents. With a usable baseline it
reads only the chunks written since: a clean chunk inherits the entry the baseline has for it. The
published index becomes the next baseline, and `commitSnapshot` makes it the disk's fork authority.

The index is built by one decision per chunk, zero or a digest. `draftOf` is the pure function from
decisions to the two lists of an index, and `rescanIndex` the index of the decisions that hashing
every chunk makes. Timings and byte counters of the statistics are left out; chunks that the source
seals on parallel workers are sealed here one after the other.
-/

namespace SporeVM

open Lib (SparseFile divCeil chunkSlice)
open Lib.EState (rejectIf runIf check mapError runAll)

variable {Id : Type}

-- ══ Decisions and drafts

inductive SealResult (Id : Type)
  | zero
  | data (id : Id)
  deriving DecidableEq

def sealBytes (hash : List UInt8 → Id) (data : List UInt8) : SealResult Id :=
  if data.all (· == 0) = true then .zero else .data (hash data)

structure Draft (Id : Type) where
  chunks : List (DiskIndexChunk Id)
  zeroRanges : List DiskIndexZeroRange
  deriving DecidableEq

def Draft.record (draft : Draft Id) (c : ℕ) : SealResult Id → Draft Id
  | .zero => { draft with zeroRanges := appendZeroChunk draft.zeroRanges c }
  | .data id => { draft with chunks := draft.chunks ++ [⟨c, id⟩] }

def draftOf (decision : ℕ → SealResult Id) : ℕ → Draft Id
  | 0 => ⟨[], []⟩
  | n + 1 => (draftOf decision n).record n (decision n)

def SealResult.ofEntry : Option Id → SealResult Id
  | some id => .data id
  | none => .zero

def SealResult.toEntry : SealResult Id → Option Id
  | .zero => none
  | .data id => some id

def SealResult.Describes (hash : List UInt8 → Id) (data : List UInt8) : SealResult Id → Prop
  | .zero => data.all (· == 0) = true
  | .data id => hash data = id

lemma describes_sealBytes (hash : List UInt8 → Id) (data : List UInt8) :
    (sealBytes hash data).Describes hash data := by
  unfold sealBytes
  split
  · next hzero => exact hzero
  · exact rfl

variable {n : ℕ} {decision : ℕ → SealResult Id}

lemma draftOf_congr {decision' : ℕ → SealResult Id} (h : ∀ c, c < n → decision c = decision' c) :
    draftOf decision n = draftOf decision' n := by
  induction n with
  | zero => rfl
  | succ n ih => rw [draftOf, draftOf, ih fun c hc => h c (by omega), h n (by omega)]

lemma mem_draftOf {entry : DiskIndexChunk Id} : entry ∈ (draftOf decision n).chunks ↔
      entry.logicalChunk < n ∧ decision entry.logicalChunk = .data entry.id := by
  induction n with
  | zero => simp [draftOf]
  | succ n ih =>
    rw [draftOf]
    cases hdec : decision n with
    | zero =>
      rw [Draft.record, ih]
      constructor
      · rintro ⟨hlt, h⟩
        exact ⟨by omega, h⟩
      · rintro ⟨hlt, h⟩
        have hne : entry.logicalChunk ≠ n := by
          rintro heq
          rw [heq, hdec] at h
          cases h
        exact ⟨by omega, h⟩
    | data id =>
      simp only [Draft.record, List.mem_append, List.mem_singleton, ih]
      constructor
      · rintro (⟨hlt, h⟩ | rfl)
        · exact ⟨by omega, h⟩
        · exact ⟨by simp, hdec⟩
      · rintro ⟨hlt, h⟩
        by_cases hne : entry.logicalChunk = n
        · rw [hne, hdec] at h
          cases h
          exact .inr (by rw [← hne])
        · exact .inl ⟨by omega, h⟩

lemma inZeroRanges_draftOf {c : ℕ} :
    InZeroRanges (draftOf decision n).zeroRanges c ↔ c < n ∧ decision c = .zero := by
  induction n with
  | zero => simp [draftOf, InZeroRanges]
  | succ n ih =>
    rw [draftOf]
    cases hdec : decision n with
    | zero =>
      rw [Draft.record, inZeroRanges_appendZeroChunk, ih]
      constructor
      · rintro (⟨hlt, h⟩ | rfl)
        · exact ⟨by omega, h⟩
        · exact ⟨by omega, hdec⟩
      · rintro ⟨hlt, h⟩
        by_cases hne : c = n
        · exact .inr hne
        · exact .inl ⟨by omega, h⟩
    | data id =>
      rw [Draft.record, ih]
      constructor
      · rintro ⟨hlt, h⟩
        exact ⟨by omega, h⟩
      · rintro ⟨hlt, h⟩
        have hne : c ≠ n := by
          rintro rfl
          rw [hdec] at h
          cases h
        exact ⟨by omega, h⟩

lemma covers_draftOf (decision : ℕ → SealResult Id) (n : ℕ) :
    Covers 0 n (draftOf decision n).chunks (draftOf decision n).zeroRanges := by
  have hdigest : ∀ c, HasDigest (draftOf decision n).chunks c ↔
      c < n ∧ ∃ id, decision c = .data id := by
    intro c
    constructor
    · rintro ⟨entry, hmem, rfl⟩
      exact ⟨(mem_draftOf.mp hmem).1, entry.id, (mem_draftOf.mp hmem).2⟩
    · rintro ⟨hc, id, hdec⟩
      exact ⟨⟨c, id⟩, mem_draftOf.mpr ⟨hc, hdec⟩, rfl⟩
  refine ⟨Nat.zero_le _, fun c => ?_, fun c => ?_⟩
  · rw [hdigest, inZeroRanges_draftOf]
    cases decision c <;> simp
  · rw [hdigest, inZeroRanges_draftOf]
    rintro ⟨⟨-, id, hdata⟩, -, hzero⟩
    rw [hzero] at hdata
    cases hdata

/-- **The index of a draft** denotes the contents that its decisions describe. -/
theorem denotes_draftOf {hash : List UInt8 → Id} {A : SparseFile} {index : DiskIndex Id}
    (hsize : A.size = index.logicalSize)
    (hcount : divCeil index.logicalSize index.chunkSize = n)
    (hchunks : index.chunks = (draftOf decision n).chunks)
    (hzeros : index.zeroRanges = (draftOf decision n).zeroRanges)
    (h : ∀ c, c < n → (decision c).Describes hash
      (chunkSlice index.chunkSize index.logicalSize A.byte c)) : IndexDenotes hash index A := by
  refine ⟨hsize, ?_, ?_, ?_⟩
  · intro entry hmem
    rw [hchunks] at hmem
    obtain ⟨hlt, hdec⟩ := mem_draftOf.mp hmem
    have hentry := h _ hlt
    rw [hdec] at hentry
    exact hentry
  · intro c hc i hi
    rw [hzeros] at hc
    obtain ⟨hlt, hdec⟩ := inZeroRanges_draftOf.mp hc
    have hzero := h c hlt
    rw [hdec] at hzero
    exact Lib.chunkSlice_all_zero.mp hzero i hi
  · rw [hcount, hchunks, hzeros]
    exact covers_draftOf decision n

lemma sorted_draftOf (decision : ℕ → SealResult Id) (n : ℕ) :
    SortedChunks (draftOf decision n).chunks := by
  induction n with
  | zero => exact List.Pairwise.nil
  | succ n ih =>
    rw [draftOf]
    cases hdec : decision n with
    | zero => exact ih
    | data id =>
      refine List.pairwise_append.mpr ⟨ih, List.pairwise_singleton _ _, fun a ha b hb => ?_⟩
      obtain rfl := List.mem_singleton.mp hb
      exact (mem_draftOf.mp ha).1

lemma lookupDigest_draftOf (decision : ℕ → SealResult Id) {c : ℕ} (hc : c < n) :
    lookupDigest (draftOf decision n).chunks c = (decision c).toEntry := by
  cases hdec : decision c with
  | zero =>
    rw [SealResult.toEntry, lookupDigest_eq_none]
    rintro ⟨entry, hmem, rfl⟩
    have := (mem_draftOf.mp hmem).2
    rw [hdec] at this
    cases this
  | data id =>
    have hmem : (⟨c, id⟩ : DiskIndexChunk Id) ∈ (draftOf decision n).chunks :=
      mem_draftOf.mpr ⟨hc, hdec⟩
    exact lookupDigest_of_mem (sorted_draftOf decision n) hmem

lemma draftOf_inj {decision' : ℕ → SealResult Id} :
    draftOf decision n = draftOf decision' n ↔ ∀ c, c < n → decision c = decision' c := by
  refine ⟨fun h c hc => ?_, draftOf_congr⟩
  have hlookup := lookupDigest_draftOf decision hc
  rw [h, lookupDigest_draftOf decision' hc] at hlookup
  cases hdec : decision c <;> cases hdec' : decision' c <;> simp_all [SealResult.toEntry]

-- ══ Publishing objects

section Model

variable [DecidableEq Id] (hash : List UInt8 → Id) (stringify : DiskIndex Id → List UInt8)

def syncDir : DiskM Id Unit := do
  let fault ← nextFault
  rejectIf (fault ≠ none) .ioFailed

/-- `writePathAllIfMissing`: an object appears under its digest whole or not at all, and an existing
one must have the same bytes. -/
def writeObjectIfMissing (root : String) (id : Id) (data : List UInt8) : DiskM Id Unit := do
  let fault ← nextFault
  rejectIf (fault ≠ none) .ioFailed
  let s ← get
  match s.host.objects root id with
  | some existing => rejectIf (existing ≠ data) .badChunk
  | none => installObject root id data

inductive ParentObjectPublication
  | linked | reusedExisting | copied
  deriving DecidableEq

/-- Makes a reused object available under the snapshot's root: by a hard link, or by a verified copy
when the link fails for another reason than an existing file. -/
def publishParentObject (parentRoot dir : String) (id : Id) (expectedSize : ℕ) :
    DiskM Id ParentObjectPublication := do
  let s ← get
  match s.host.objects parentRoot id with
  | none => throw .badChunk
  | some source => do
    rejectIf (source.length ≠ expectedSize) .badChunk
    let fault ← nextFault
    match fault, s.host.objects dir id with
    | none, none => do
      installObject dir id source
      pure .linked
    | none, some existing => do
      rejectIf (existing.length ≠ expectedSize) .badChunk
      pure .reusedExisting
    | some _, _ => do
      let data ← check (verifyObject hash (some source) id expectedSize)
      writeObjectIfMissing dir id data
      pure .copied

def fetchAll : List (Id × ℕ) → DiskM Id Unit
  | [] => pure ()
  | (digest, len) :: objects => do
    let s ← get
    let fetcher := s.host.fetcher
    if (s.host.objects fetcher.cacheRoot digest).map List.length = some len then fetchAll objects
    else
      match verifyObject hash (fetcher.get digest) digest len with
      | .ok data => do
        installObject fetcher.cacheRoot digest data
        fetchAll objects
      | .error _ => throw .imageStoreIncomplete

def fetchFromStore : DiskM Id Unit := do
  let s ← get
  runIf (s.disk.remote = true) (fetchAll hash s.host.fetcher.objects)

-- ══ Sealing

def sealSnapshotChunk (dir : String) (c : ℕ) : DiskM Id (SealResult Id) := do
  let d ← getDisk
  let len ← check (d.chunkLen c)
  let data ← readChunk hash c len
  match sealBytes hash data with
  | .zero => pure .zero
  | .data id => do
    writeObjectIfMissing dir id data
    pure (.data id)

def dirtyIndices (d : ChunkMappedDisk Id) : List ℕ :=
  (List.range d.chunkCount).filter fun c =>
    !(decide (d.source c = .zero) || decide (d.source c = .zeroDirty)) &&
      !(decide (c < d.parentChunkCount) && !d.needsSnapshotSeal c)

def parallelError : StorageError → StorageError
  | .outOfMemory => .outOfMemory
  | .badChunk => .badChunk
  | .missingChunk => .missingChunk
  | .badManifest => .badManifest
  | .badClusterSize => .badClusterSize
  | .outOfRange => .outOfRange
  | .shortRead => .shortRead
  | _ => .ioFailed

def sealSnapshotChunksParallel (dir : String) (indices : List ℕ) :
    DiskM Id (List (ℕ × SealResult Id)) :=
  mapError parallelError (runAll (fun c => do
    let result ← sealSnapshotChunk hash dir c
    pure (c, result)) indices)

structure SnapshotStats where
  fullScan : Bool
  sealedCandidateChunks : ℕ
  cleanZeroChunksReused : ℕ
  dirtyZeroChunksRecorded : ℕ
  parentChunksReused : ℕ
  deriving DecidableEq

structure SnapshotLoop (Id : Type) where
  draft : Draft Id
  /-- `parent_digest_cursor.next_index`. -/
  parentDigestCursor : ℕ
  publishedParentObjects : List Id
  /-- The results of the parallel batch from `parallel_result_cursor` on. -/
  parallelBatch : Option (List (ℕ × SealResult Id))
  sealedDataObjects : Bool
  linkedParentObject : Bool
  stats : SnapshotStats

def publishReused (parentRoot dir : String) (id : Id) (len : ℕ) (v : SnapshotLoop Id) :
    DiskM Id (SnapshotLoop Id) :=
  if parentRoot = dir ∨ id ∈ v.publishedParentObjects then pure v
  else do
    let outcome ← publishParentObject hash parentRoot dir id len
    pure { v with
      publishedParentObjects := id :: v.publishedParentObjects
      linkedParentObject := v.linkedParentObject || decide (outcome = .linked) }

def reuseParentEntry (dir : String) (c : ℕ) (parentId : Option Id) (v : SnapshotLoop Id) :
    DiskM Id (SnapshotLoop Id) := do
  let d ← getDisk
  match parentId, d.currentBaseline with
  | some id, some parent => do
    let len ← check (d.chunkLen c)
    let v ← publishReused hash parent.root dir id len v
    pure { v with
      draft := v.draft.record c (.data id)
      stats := { v.stats with parentChunksReused := v.stats.parentChunksReused + 1 } }
  | some _, none => throw .assertionFailed
  | none, _ => pure { v with
      draft := v.draft.record c .zero
      stats := { v.stats with cleanZeroChunksReused := v.stats.cleanZeroChunksReused + 1 } }

def sealCandidate (dir : String) (c : ℕ) (v : SnapshotLoop Id) : DiskM Id (SnapshotLoop Id) := do
  let v := { v with stats :=
    { v.stats with sealedCandidateChunks := v.stats.sealedCandidateChunks + 1 } }
  match v.parallelBatch with
  | some [] => throw .badManifest
  | some ((index, result) :: rest) => do
    rejectIf (index ≠ c) .badManifest
    pure { v with
      draft := v.draft.record c result
      parallelBatch := some rest
      sealedDataObjects := v.sealedDataObjects || decide (result ≠ .zero) }
  | none => do
    let result ← sealSnapshotChunk hash dir c
    pure { v with
      draft := v.draft.record c result
      sealedDataObjects := v.sealedDataObjects || decide (result ≠ .zero) }

def snapshotStep (dir : String) (useParentIndex : Bool) (digests : List (DiskIndexChunk Id))
    (parentChunkCount : ℕ) (v : SnapshotLoop Id) (c : ℕ) : DiskM Id (SnapshotLoop Id) := do
  let d ← getDisk
  let parentId := (DigestIndex.cursorNext digests v.parentDigestCursor c).1
  let v := { v with parentDigestCursor :=
    (DigestIndex.cursorNext digests v.parentDigestCursor c).2 }
  if d.source c = .zero then
    pure { v with
      draft := v.draft.record c .zero
      stats := { v.stats with cleanZeroChunksReused := v.stats.cleanZeroChunksReused + 1 } }
  else if d.source c = .zeroDirty then
    pure { v with
      draft := v.draft.record c .zero
      stats := { v.stats with dirtyZeroChunksRecorded := v.stats.dirtyZeroChunksRecorded + 1 } }
  else if useParentIndex = true ∧ c < parentChunkCount ∧ d.needsSnapshotSeal c = false then
    reuseParentEntry hash dir c parentId v
  else sealCandidate hash dir c v

-- ══ Publishing the index

def writeIndexDurable (dir : String) (digest : Id) (index : DiskIndex Id) : DiskM Id Unit := do
  let fault ← nextFault
  rejectIf (fault ≠ none) .ioFailed
  let s ← get
  match s.host.indexes dir digest with
  | some existing => rejectIf (existing ≠ index) .badChunk
  | none => modify fun s => { s with host := { s.host with
      indexes := Function.update s.host.indexes dir
        (Function.update (s.host.indexes dir) digest (some index)) } }

def publishedSource : Source → Source
  | .overlay => .overlayClean
  | .zeroDirty => .zero
  | source => source

def installedIndex (next : Baseline Id) : Index Id → Index Id
  | .cas casRoot _ => .cas casRoot next
  | .none | .parent _ => .parent next

def installSnapshotBaseline (d : ChunkMappedDisk Id) (next : Baseline Id) (pendingIdentity : Id) :
    ChunkMappedDisk Id :=
  { d with
    index := installedIndex next d.index
    pendingSnapshotIdentity := some pendingIdentity
    sources := d.sources.map publishedSource
    sources_length := by rw [List.length_map]; exact d.sources_length }

def indexOf (d : ChunkMappedDisk Id) (draft : Draft Id) : DiskIndex Id where
  kind := diskIndexKind
  logicalSize := d.size
  chunkSize := d.chunkSize
  hashAlgorithm := hashAlgorithmBlake3
  objectNamespace := rootfsObjectNamespace
  chunks := draft.chunks
  zeroRanges := draft.zeroRanges

def startBatch (dir : String) : DiskM Id (Option (List (ℕ × SealResult Id))) := do
  let d ← getDisk
  if d.canReuseParentIndex = true ∧ (dirtyIndices d).all (fun c => decide (d.source c ≠ .cas)) =
    true
  then do
    let results ← sealSnapshotChunksParallel hash dir (dirtyIndices d)
    pure (some results)
  else pure none

def parentDigests (d : ChunkMappedDisk Id) : List (DiskIndexChunk Id) :=
  match d.currentBaseline with
  | some parent => parent.digests
  | none => []

def buildDraft (dir : String) : DiskM Id (Draft Id × SnapshotStats) := do
  let d ← getDisk
  let parallelBatch ← startBatch hash dir
  let v ← (List.range d.chunkCount).foldlM
    (snapshotStep hash dir d.canReuseParentIndex (parentDigests d) d.parentChunkCount)
    ⟨⟨[], []⟩, 0, [], parallelBatch, false, false, ⟨!d.canReuseParentIndex, 0, 0, 0, 0⟩⟩
  rejectIf (∃ rest ∈ v.parallelBatch, rest ≠ []) .badManifest
  runIf (v.sealedDataObjects = true) syncDir
  runIf (v.linkedParentObject = true) syncDir
  pure (v.draft, v.stats)

/-- The part of `snapshotIndexWithStats` that decides the chunks. -/
def snapshotDraft (dir : String) : DiskM Id (Draft Id × SnapshotStats) := do
  fetchFromStore hash
  syncDir
  buildDraft hash dir

def snapshotIndexWithStats (dir : String) (device : RootfsDevice) (quiesced : Bool) :
    DiskM Id (SporeDisk Id × SnapshotStats) := do
  rejectIf (quiesced = false) .assertionFailed
  let d ← getDisk
  rejectIf (d.poisoned = true) .poisoned
  let (draft, stats) ← snapshotDraft hash dir
  let index := indexOf d draft
  let digest ← check (encodeCanonical hash stringify index)
  syncDir
  writeIndexDurable dir digest index
  let next ← check (baselineFrom d dir index)
  modifyDisk fun d => installSnapshotBaseline d next digest
  pure (⟨diskKindChunkIndex, device, d.size, digest, d.chunkSize, hashAlgorithmBlake3,
    rootfsObjectNamespace⟩, stats)

def snapshotIndex (dir : String) (device : RootfsDevice) (quiesced : Bool) :
    DiskM Id (SporeDisk Id) := do
  let (disk, _) ← snapshotIndexWithStats hash stringify dir device quiesced
  pure disk

def commitSnapshot : DiskM Id Unit :=
  modifyDisk fun d =>
    match d.pendingSnapshotIdentity with
    | none => d
    | some next =>
      { d with pendingSnapshotIdentity := none, committedSnapshotIdentity := some next }

end Model

end SporeVM
