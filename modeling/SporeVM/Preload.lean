import SporeVM.Disk.IndexShape
import SporeVM.Lib.Yields

/-!
# Preloading a rootfs file into chunks and assembling it again

`preloadFd` of `rootfs_cas.zig` cuts a regular file into content-addressed chunks and publishes the
index of them. Chunks that lie in a hole of the file are not read: `lseek` says where the next data
is. `materializeFlatFromChunks` assembles a flat file from an index and its objects.

What `lseek` answers is arbitrary but for one thing: what it skips as a hole reads as zeros. Reads
and writes are exact. Indexes are kept in decoded form; `stringify` stands for their canonical text.
Statistics and timings are left out.
-/

namespace SporeVM.Preload

open Lib
open Lib.Check (ite_error_ok)
open Lib.EState (rejectIf check bind_ok pure_ok rejectIf_ok modify_ok get_ok check_ok outcome
  run_of_reply check_bind_ok get_bind_ok rejectIf_bind_ok)
open Function

structure SourceFile where
  file : SparseFile
  /-- `SEEK_DATA` from an offset. -/
  seekData : ℕ → Option ℕ
  /-- `SEEK_HOLE` from an offset. -/
  seekHole : ℕ → Option ℕ
  size_le : file.size ≤ maxOff
  holes_zero : ∀ off start, seekData off = some start → ∀ i, off ≤ i → i < start → file.byte i = 0

variable {n : ℕ} {file : SparseFile} {src : SourceFile} {Id : Type}

-- ══ Holes

structure SparseScanState where
  supported : Bool := true
  haveExtent : Bool := false
  dataStart : ℕ := 0
  dataEnd : ℕ := 0
  deriving DecidableEq

structure SparseDataExtent where
  start : ℕ
  stop : ℕ
  deriving DecidableEq

def castOff (n : ℕ) : Option ℕ := if n > maxOff then none else some n

/-- The end of the data that starts at `dataStart`; without an answer it is the end of the file. -/
def dataEndAt (src : SourceFile) (dataStart fileSize : ℕ) : Option ℕ :=
  match src.seekHole dataStart with
  | some stop => some stop
  | none => castOff fileSize

def nextSparseDataExtent (src : SourceFile) (start fileSize : ℕ) : Option SparseDataExtent := do
  let offset ← castOff start
  let dataStart ← src.seekData offset
  let dataEnd ← dataEndAt src dataStart fileSize
  if dataEnd ≤ dataStart then none else some ⟨dataStart, dataEnd⟩

/-- Whether the chunk lies before the data of the current extent. A new extent is looked up when
the chunk starts past the last one; when that fails, holes are no longer looked for. -/
def chunkIsSparseHole (src : SourceFile) (state : SparseScanState) (start len fileSize : ℕ) :
    Bool × SparseScanState :=
  if ¬ state.supported then (false, state)
  else if len = 0 then (true, state)
  else if start + len > maxU64 then (false, state)
  else if ¬ state.haveExtent ∨ start ≥ state.dataEnd then
    match nextSparseDataExtent src start fileSize with
    | none => (false, { state with supported := false })
    | some extent =>
      (start + len ≤ extent.start,
        { state with haveExtent := true, dataStart := extent.start, dataEnd := extent.stop })
  else (start + len ≤ state.dataStart, state)

def ScanOk (src : SourceFile) (start : ℕ) (state : SparseScanState) : Prop :=
  state.haveExtent = true → ∀ i, start ≤ i → i < state.dataStart → src.file.byte i = 0

lemma ScanOk.later {start start' : ℕ} {state : SparseScanState} (h : ScanOk src start state)
    (hle : start ≤ start') : ScanOk src start' state :=
  fun hextent i hi => h hextent i (by omega)

lemma nextSparseDataExtent_zero {start fileSize : ℕ} {extent : SparseDataExtent}
    (h : nextSparseDataExtent src start fileSize = some extent) :
    ∀ i, start ≤ i → i < extent.start → src.file.byte i = 0 := by
  obtain ⟨offset, hoffset, hseek⟩ := Option.bind_eq_some_iff.mp h
  obtain ⟨dataStart, hstart, hend⟩ := Option.bind_eq_some_iff.mp hseek
  obtain ⟨dataEnd, -, hextent⟩ := Option.bind_eq_some_iff.mp hend
  unfold castOff at hoffset
  split at hoffset
  · cases hoffset
  cases hoffset
  split at hextent
  · cases hextent
  cases hextent
  exact src.holes_zero start dataStart hstart

lemma chunkIsSparseHole_spec {state state' : SparseScanState} {start len fileSize : ℕ}
    {hole : Bool} (hscan : ScanOk src start state)
    (h : chunkIsSparseHole src state start len fileSize = (hole, state')) :
    (hole = true → ∀ i, start ≤ i → i < start + len → src.file.byte i = 0) ∧
      ScanOk src start state' := by
  unfold chunkIsSparseHole at h
  split at h
  · cases h
    exact ⟨by simp, hscan⟩
  split at h
  · cases h
    exact ⟨fun _ i hlo hhi => by omega, hscan⟩
  split at h
  · cases h
    exact ⟨by simp, hscan⟩
  split at h
  · cases hnext : nextSparseDataExtent src start fileSize with
    | none =>
      rw [hnext] at h
      cases h
      exact ⟨by simp, hscan⟩
    | some extent =>
      rw [hnext] at h
      cases h
      have hzero := nextSparseDataExtent_zero hnext
      refine ⟨fun hhole i hlo hhi => hzero i hlo ?_, fun _ => hzero⟩
      have := of_decide_eq_true hhole
      omega
  · next hextent =>
    cases h
    rw [not_or, not_not] at hextent
    refine ⟨fun hhole i hlo hhi => hscan hextent.1 i hlo ?_, hscan⟩
    have := of_decide_eq_true hhole
    omega

-- ══ The cache

structure CasCache (Id : Type) where
  objects : Id → Option (List UInt8)
  /-- Published indexes in decoded form. -/
  indexes : Id → Option (DiskIndex Id)
  /-- Completeness stamps. -/
  complete : Id → Bool
  /-- Assembled flat files. -/
  flat : Id → Option SparseFile

abbrev PreloadM (Id : Type) := EStateM StorageError (CasCache Id)

structure PreloadResult (Id : Type) where
  indexDigest : Id
  rootfsDigest : Id
  rootfsSize : ℕ
  chunkSize : ℕ
  chunkCount : ℕ
  deriving DecidableEq

structure MissingObject (Id : Type) where
  logicalChunk : ℕ
  id : Id
  deriving DecidableEq

structure PreloadLoop (Id : Type) where
  draft : Draft Id := ⟨[], []⟩
  missing : List (MissingObject Id) := []
  scan : SparseScanState := {}

def chunkCount (size chunkSize : ℕ) : Except StorageError ℕ :=
  if chunkSize = 0 then .error .badManifest
  else if size = 0 then .ok 0
  else if size + (chunkSize - 1) > maxU64 then .error .badManifest
  else .ok ((size + (chunkSize - 1)) / chunkSize)

def readChunk (src : SourceFile) (chunkSize i : ℕ) : List UInt8 :=
  slice src.file.byte (i * chunkSize) (min chunkSize (src.file.size - i * chunkSize))

section Model

variable [DecidableEq Id] (hash : List UInt8 → Id) (stringify : DiskIndex Id → List UInt8)

def recordSealed (i : ℕ) (data : List UInt8) (v : PreloadLoop Id) :
    SealResult Id → PreloadM Id (PreloadLoop Id)
  | .zero => pure { v with draft := v.draft.record i .zero }
  | .data id => do
    let s ← get
    if s.objects id = some data then
      pure { v with draft := v.draft.record i (.data id) }
    else
      pure
        { v with
          draft := v.draft.record i (.data id)
          missing := v.missing ++ [⟨i, id⟩] }

def scanChunk (src : SourceFile) (chunkSize : ℕ) (v : PreloadLoop Id) (i : ℕ) :
    PreloadM Id (PreloadLoop Id) := do
  rejectIf (i * chunkSize > maxU64) .badManifest
  let probe := chunkIsSparseHole src v.scan (i * chunkSize)
    (min chunkSize (src.file.size - i * chunkSize)) src.file.size
  if probe.1 then
    pure { v with draft := v.draft.record i .zero, scan := probe.2 }
  else
    recordSealed i (readChunk src chunkSize i) { v with scan := probe.2 }
      (sealBytes hash (readChunk src chunkSize i))

def writeMissing (src : SourceFile) (chunkSize : ℕ) (missing : MissingObject Id) :
    PreloadM Id Unit := do
  rejectIf (hash (readChunk src chunkSize missing.logicalChunk) ≠ missing.id) .badChunk
  modify fun s =>
    { s with
      objects := update s.objects missing.id
        (some (readChunk src chunkSize missing.logicalChunk)) }

def writeAllMissing (src : SourceFile) (chunkSize : ℕ) : List (MissingObject Id) → PreloadM Id Unit
  | [] => pure ()
  | missing :: rest => do
    writeMissing hash src chunkSize missing
    writeAllMissing src chunkSize rest

def publishIndex (digest : Id) (index : DiskIndex Id) : PreloadM Id Unit := do
  let s ← get
  rejectIf (∃ old ∈ s.indexes digest, old ≠ index) .badChunk
  modify fun s =>
    { s with
      indexes := update s.indexes digest (some index)
      complete := update s.complete digest true }

def manifestIndex (size chunkSize : ℕ) (draft : Draft Id) : DiskIndex Id where
  kind := diskIndexKind
  logicalSize := size
  chunkSize := chunkSize
  hashAlgorithm := hashAlgorithmBlake3
  objectNamespace := rootfsObjectNamespace
  chunks := draft.chunks
  zeroRanges := draft.zeroRanges

def preloadFd (src : SourceFile) (chunkSize : ℕ) : PreloadM Id (PreloadResult Id) := do
  let count ← check (chunkCount src.file.size chunkSize)
  let v ← (List.range count).foldlM (scanChunk hash src chunkSize) {}
  writeAllMissing hash src chunkSize v.missing
  let digest ← check (encodeCanonical hash stringify
    (manifestIndex src.file.size chunkSize v.draft))
  publishIndex digest (manifestIndex src.file.size chunkSize v.draft)
  pure
    { indexDigest := digest
      rootfsDigest := digest
      rootfsSize := src.file.size
      chunkSize
      chunkCount := count }

-- ══ Assembling

structure Storage (Id : Type) where
  kind : String
  device : RootfsDevice
  logicalSize : ℕ
  chunkSize : ℕ
  hashAlgorithm : String
  indexDigest : Id
  baseIdentity : Id
  objectNamespace : String
  deriving DecidableEq

structure Artifact (Id : Type) where
  format : String
  digest : Id
  size : ℕ
  deriving DecidableEq

structure Rootfs (Id : Type) where
  device : RootfsDevice
  artifact : Artifact Id
  storage : Option (Storage Id)
  deriving DecidableEq

def artifactFormatExt4 : String := "ext4"

def storageKindChunkedExt4 : String := "chunked-ext4-rootfs-v0"

def storageDescriptor (device : RootfsDevice) (result : PreloadResult Id) : Storage Id where
  kind := storageKindChunkedExt4
  device := device
  logicalSize := result.rootfsSize
  chunkSize := result.chunkSize
  hashAlgorithm := hashAlgorithmBlake3
  indexDigest := result.indexDigest
  baseIdentity := result.indexDigest
  objectNamespace := rootfsObjectNamespace

def validateStorage (storage : Storage Id) : Except StorageError Unit := do
  Check.rejectIf (storage.kind ≠ storageKindChunkedExt4) .badManifest
  Check.rejectIf (storage.logicalSize = 0 ∨ storage.logicalSize > maxU64) .badManifest
  Check.rejectIf (storage.chunkSize ≠ diskChunkSize) .badManifest
  Check.rejectIf (storage.hashAlgorithm ≠ hashAlgorithmBlake3) .badManifest
  Check.rejectIf (storage.baseIdentity ≠ storage.indexDigest) .badManifest
  Check.rejectIf (storage.objectNamespace ≠ rootfsObjectNamespace) .badManifest

def Storage.descriptor (storage : Storage Id) : IndexDescriptor where
  logicalSize := storage.logicalSize
  chunkSize := storage.chunkSize
  hashAlgorithm := storage.hashAlgorithm
  objectNamespace := storage.objectNamespace

def chunkIds (count : ℕ) (chunks : List (DiskIndexChunk Id)) : List (Option Id) :=
  chunks.foldl (fun ids entry => ids.set entry.logicalChunk (some entry.id))
    (List.replicate count none)

def checkIndex (storage : Storage Id) (index : DiskIndex Id) :
    Except StorageError (List (Option Id)) := do
  validateStorage storage
  Check.rejectIf (hash (stringify index) ≠ storage.indexDigest) .badManifest
  validateDiskIndex index storage.descriptor
  let count ← chunkCount storage.logicalSize storage.chunkSize
  pure (chunkIds count index.chunks)

def loadManifestIndex (storage : Storage Id) : PreloadM Id (List (Option Id)) := do
  let s ← get
  match s.indexes storage.indexDigest with
  | none => throw .missingChunk
  | some index => check (checkIndex hash stringify storage index)

def storageChunkLen (storage : Storage Id) (logicalChunk : ℕ) : Except StorageError ℕ := do
  Check.rejectIf (logicalChunk * storage.chunkSize > maxU64) .badManifest
  Check.rejectIf (logicalChunk * storage.chunkSize ≥ storage.logicalSize) .badManifest
  pure (min storage.chunkSize (storage.logicalSize - logicalChunk * storage.chunkSize))

def readObject (id : Id) (len : ℕ) : PreloadM Id (List UInt8) := do
  let s ← get
  match s.objects id with
  | none => throw .missingChunk
  | some object => do
    rejectIf (object.length ≠ len) .badChunk
    rejectIf (hash object ≠ id) .badChunk
    pure object

def placeChunk (storage : Storage Id) (i len : ℕ) (file : SparseFile) :
    Option Id → PreloadM Id SparseFile
  | none => pure file
  | some id => do
    let object ← readObject hash id len
    pure (file.pwrite (i * storage.chunkSize) object)

def assembleChunk (storage : Storage Id) (ids : List (Option Id)) (file : SparseFile) (i : ℕ) :
    PreloadM Id SparseFile := do
  let len ← check (storageChunkLen storage i)
  placeChunk hash storage i len file (ids.getD i none)

def openTrustedFromCache (s : CasCache Id) (artifact : Artifact Id) : Bool :=
  match s.flat artifact.digest with
  | none => false
  | some file => file.size = artifact.size

def assembleFlat (rootfs : Rootfs Id) (storage : Storage Id) : PreloadM Id Unit := do
  let ids ← loadManifestIndex hash stringify storage
  rejectIf (storage.logicalSize > maxOff) .badManifest
  let file ← (List.range ids.length).foldlM (assembleChunk hash storage ids)
    (SparseFile.zeros storage.logicalSize)
  modify fun s => { s with flat := update s.flat rootfs.artifact.digest (some file) }

def assembleUnlessTrusted (rootfs : Rootfs Id) (storage : Storage Id) : PreloadM Id Unit := do
  let s ← get
  if openTrustedFromCache s rootfs.artifact then pure ()
  else assembleFlat hash stringify rootfs storage

def materializeStorage (rootfs : Rootfs Id) (storage : Storage Id) : PreloadM Id Unit := do
  rejectIf (rootfs.artifact.format ≠ artifactFormatExt4) .badManifest
  rejectIf (storage.device ≠ rootfs.device) .badManifest
  rejectIf (storage.logicalSize ≠ rootfs.artifact.size) .badManifest
  rejectIf (storage.indexDigest ≠ rootfs.artifact.digest) .badManifest
  assembleUnlessTrusted hash stringify rootfs storage

def materializeFlatFromChunks (rootfs : Rootfs Id) : PreloadM Id Unit :=
  match rootfs.storage with
  | none => throw .badManifest
  | some storage => materializeStorage hash stringify rootfs storage

def preloadedRootfs (device : RootfsDevice) (result : PreloadResult Id) : Rootfs Id where
  device := device
  artifact :=
    { format := artifactFormatExt4, digest := result.rootfsDigest, size := result.rootfsSize }
  storage := some (storageDescriptor device result)

-- ══ What a preload leaves behind

variable {hash stringify} {src : SourceFile} {cs : ℕ} {s s' : CasCache Id}

lemma readChunk_eq (src : SourceFile) (cs i : ℕ) :
    readChunk src cs i = chunkSlice cs src.file.size src.file.byte i := by
  have hlen : min cs (src.file.size - i * cs) = chunkExtent cs src.file.size i := by
    unfold chunkExtent
    omega
  rw [readChunk, chunkSlice, hlen]

def decisionOf (hash : List UInt8 → Id) (src : SourceFile) (cs c : ℕ) : SealResult Id :=
  sealBytes hash (readChunk src cs c)

structure Scanned (hash : List UInt8 → Id) (src : SourceFile) (cs n : ℕ) (v : PreloadLoop Id)
    (s : CasCache Id) : Prop where
  draft : v.draft = draftOf (decisionOf hash src cs) n
  scan : ScanOk src (n * cs) v.scan
  stored : ∀ c < n, ∀ id, decisionOf hash src cs c = .data id →
    s.objects id = some (readChunk src cs c) ∨ ⟨c, id⟩ ∈ v.missing

variable {v v' : PreloadLoop Id}

section

omit [DecidableEq Id]

lemma Scanned.next {n : ℕ} (h : Scanned hash src cs n v s)
    (hdraft : v'.draft = v.draft.record n (decisionOf hash src cs n))
    (hscan : ScanOk src (n * cs) v'.scan) (hmissing : ∀ m ∈ v.missing, m ∈ v'.missing)
    (hstored : ∀ id, decisionOf hash src cs n = .data id → s.objects id = some (readChunk src cs n)
      ∨ ⟨n, id⟩ ∈ v'.missing) : Scanned hash src cs (n + 1) v' s where
  draft := by rw [hdraft, h.draft, draftOf]
  scan := hscan.later (by rw [Nat.succ_mul]; omega)
  stored c hc id hid := by
    rcases Nat.lt_succ_iff_lt_or_eq.mp hc with hc | rfl
    · exact (h.stored c hc id hid).imp_right fun hmem => hmissing _ hmem
    · exact hstored id hid

lemma recordSealed_ok (h : Scanned hash src cs n v s)
    (hrun : recordSealed n (readChunk src cs n) v (decisionOf hash src cs n) s = .ok v' s') :
    s' = s ∧ Scanned hash src cs (n + 1) v' s := by
  cases hdec : decisionOf hash src cs n with
  | zero =>
    rw [hdec] at hrun
    obtain ⟨rfl, rfl⟩ := pure_ok.mp hrun
    refine ⟨rfl, h.next (by rw [hdec]) h.scan (fun m hm => hm) fun id hid => ?_⟩
    rw [hdec] at hid
    cases hid
  | data id =>
    rw [hdec] at hrun
    replace hrun := get_bind_ok.mp hrun
    split at hrun
    · next hsame =>
      obtain ⟨rfl, rfl⟩ := pure_ok.mp hrun
      refine ⟨rfl, h.next (by rw [hdec]) h.scan (fun m hm => hm) fun id' hid => .inl ?_⟩
      rw [hdec] at hid
      cases hid
      exact hsame
    · obtain ⟨rfl, rfl⟩ := pure_ok.mp hrun
      refine ⟨rfl, h.next (by rw [hdec]) h.scan (fun m hm => List.mem_append_left _ hm)
        fun id' hid => .inr ?_⟩
      rw [hdec] at hid
      cases hid
      exact List.mem_append_right _ (by simp)

/-- **A hole makes no difference**: an iteration records what sealing the bytes gives. -/
theorem scanChunk_ok {n : ℕ} (h : Scanned hash src cs n v s)
    (hrun : scanChunk hash src cs v n s = .ok v' s') :
    s' = s ∧ Scanned hash src cs (n + 1) v' s := by
  obtain ⟨-, hrun⟩ := rejectIf_bind_ok.mp hrun
  obtain ⟨hole, scan, hprobe⟩ : ∃ hole scan, chunkIsSparseHole src v.scan (n * cs)
      (min cs (src.file.size - n * cs)) src.file.size = (hole, scan) := ⟨_, _, rfl⟩
  obtain ⟨hzero, hscan⟩ := chunkIsSparseHole_spec h.scan hprobe
  rw [hprobe] at hrun
  have hscanned : Scanned hash src cs n { v with scan := scan } s := ⟨h.draft, hscan, h.stored⟩
  split at hrun
  · next hhole =>
    obtain ⟨rfl, rfl⟩ := pure_ok.mp hrun
    have hdec : decisionOf hash src cs n = .zero := by
      refine if_pos ?_
      exact slice_all_zero.mpr (hzero hhole)
    refine ⟨rfl, h.next (by rw [hdec]) hscan (fun m hm => hm) fun id hid => ?_⟩
    rw [hdec] at hid
    cases hid
  · exact recordSealed_ok hscanned hrun

def Stored (hash : List UInt8 → Id) (src : SourceFile) (cs n : ℕ) (s : CasCache Id) : Prop :=
  ∀ c < n, ∀ id, decisionOf hash src cs c = .data id → s.objects id = some (readChunk src cs c)

lemma hash_of_decision {c : ℕ} {id : Id} (h : decisionOf hash src cs c = .data id) :
    hash (readChunk src cs c) = id := by
  have hdescribes := describes_sealBytes hash (readChunk src cs c)
  rw [show sealBytes hash (readChunk src cs c) = .data id from h] at hdescribes
  exact hdescribes

end

lemma writeAllMissing_ok (hinj : Injective hash) (missing : List (MissingObject Id))
    {u : Unit} (h : ∀ c < n, ∀ id, decisionOf hash src cs c = .data id → s.objects id =
      some (readChunk src cs c) ∨ ⟨c, id⟩ ∈ missing)
    (hrun : writeAllMissing hash src cs missing s = .ok u s') : Stored hash src cs n s' := by
  induction missing generalizing s with
  | nil =>
    obtain ⟨-, rfl⟩ := pure_ok.mp hrun
    exact fun c hc id hid => (h c hc id hid).resolve_right (by simp)
  | cons m rest ih =>
    obtain ⟨_, s₁, hwrite, hrun⟩ := bind_ok.mp hrun
    obtain ⟨hmatch, hmodify⟩ := rejectIf_bind_ok.mp hwrite
    have hs₁ := modify_ok.mp hmodify
    refine ih (fun c hc id hid => ?_) hrun
    subst hs₁
    dsimp only
    -- what is stored under a digest is the chunk that has it
    by_cases heq : id = m.id
    · subst heq
      have hsame := hinj ((not_not.mp hmatch).trans (hash_of_decision hid).symm)
      exact .inl (by rw [update_self, hsame])
    · rw [update_of_ne heq]
      rcases h c hc id hid with hstored | hmem
      · exact .inl hstored
      · rcases List.mem_cons.mp hmem with hm | hmem
        · exact absurd (congrArg MissingObject.id hm) heq
        · exact .inr hmem

lemma publishIndex_ok {digest : Id} {index : DiskIndex Id} {u : Unit}
    (hrun : publishIndex digest index s = .ok u s') :
    s'.objects = s.objects ∧ s'.indexes digest = some index ∧ s'.flat = s.flat := by
  obtain ⟨-, hrun⟩ := rejectIf_bind_ok.mp hrun
  obtain rfl := modify_ok.mp hrun
  exact ⟨rfl, update_self .., rfl⟩

def fileIndex (hash : List UInt8 → Id) (src : SourceFile) (cs : ℕ) : DiskIndex Id :=
  manifestIndex src.file.size cs (draftOf (decisionOf hash src cs) (divCeil src.file.size cs))

omit [DecidableEq Id] in
lemma chunkCount_ok {size count : ℕ} (h : chunkCount size cs = .ok count) :
    0 < cs ∧ divCeil size cs ≤ maxU64 ∧ count = divCeil size cs := by
  obtain ⟨hcs, h⟩ := ite_error_ok.mp h
  refine ⟨Nat.pos_of_ne_zero hcs, ?_⟩
  split at h
  · next hzero =>
    cases h
    rw [hzero, divCeil, Nat.div_eq_of_lt (by omega)]
    exact ⟨Nat.zero_le _, rfl⟩
  · obtain ⟨hle, h⟩ := ite_error_ok.mp h
    cases h
    refine ⟨(divCeil_le hcs).trans (by omega), ?_⟩
    rw [divCeil, Nat.add_sub_assoc (Nat.pos_of_ne_zero hcs)]

omit [DecidableEq Id] in
lemma scanChunks_ok {count : ℕ}
    (h : (List.range count).foldlM (scanChunk hash src cs) {} s = .ok v s') :
    s' = s ∧ Scanned hash src cs count v s :=
  EState.foldlM_range_ok
    (I := fun n v t => t = s ∧ Scanned hash src cs n v s)
    (fun n v t v' t' _ hI hstep => by
      obtain ⟨rfl, hI⟩ := hI
      exact scanChunk_ok hI hstep)
    ⟨rfl, ⟨rfl, fun h => (by cases h), fun c hc => absurd hc (Nat.not_lt_zero c)⟩⟩ h

variable {result : PreloadResult Id}

/-- **A preload** publishes the index of the file under its digest, with every object it lists. -/
theorem preloadFd_ok (hinj : Injective hash)
    (hrun : preloadFd hash stringify src cs s = .ok result s') :
    result = ⟨hash (stringify (fileIndex hash src cs)), hash (stringify (fileIndex hash src cs)),
        src.file.size, cs, divCeil src.file.size cs⟩ ∧
      validateIndexShape (fileIndex hash src cs) = .ok () ∧
      s'.indexes result.indexDigest = some (fileIndex hash src cs) ∧
      Stored hash src cs (divCeil src.file.size cs) s' := by
  obtain ⟨count, hcount, hloop⟩ := check_bind_ok.mp hrun
  obtain ⟨-, -, rfl⟩ := chunkCount_ok hcount
  obtain ⟨v, s₁, hscan, hobjects⟩ := bind_ok.mp hloop
  obtain ⟨hsame, hscanned⟩ := scanChunks_ok hscan
  rw [hsame] at hobjects
  obtain ⟨_, s₂, hwrite, hindexed⟩ := bind_ok.mp hobjects
  have hstored := writeAllMissing_ok hinj v.missing hscanned.stored hwrite
  obtain ⟨digest, s₃, hcheck, hpublished⟩ := bind_ok.mp hindexed
  obtain ⟨hencode, hs₃⟩ := check_ok.mp hcheck
  rw [← hs₃] at hpublished
  obtain ⟨_, s₄, hpublish, hreturn⟩ := bind_ok.mp hpublished
  obtain ⟨rfl, rfl⟩ := pure_ok.mp hreturn
  rw [hscanned.draft] at hencode hpublish
  have hdigest := encodeCanonical_ok hencode
  obtain ⟨_, hshape, -⟩ := Check.bind_ok.mp hencode
  obtain ⟨hobjects, hindex, -⟩ := publishIndex_ok hpublish
  refine ⟨by rw [hdigest]; rfl, hshape, hindex, ?_⟩
  intro c hc id hid
  rw [hobjects]
  exact hstored c hc id hid

-- ══ The assembled file

section

omit [DecidableEq Id]

lemma getElem_foldl_set (entries : List (DiskIndexChunk Id)) (hsorted : SortedChunks entries)
    (ids : List (Option Id)) {c : ℕ} (hc : c < ids.length) :
    (entries.foldl (fun ids entry => ids.set entry.logicalChunk (some entry.id)) ids).getD c none =
      (lookupDigest entries c).or (ids.getD c none) := by
  induction entries generalizing ids with
  | nil => simp [lookupDigest]
  | cons entry entries ih =>
    obtain ⟨hfirst, hsorted⟩ := List.pairwise_cons.mp hsorted
    rw [List.foldl_cons, ih hsorted _ (by simpa using hc)]
    by_cases heq : entry.logicalChunk = c
    · have hnone : lookupDigest entries c = none := by
        rw [lookupDigest_eq_none]
        rintro ⟨e, he, hec⟩
        have := hfirst e he
        omega
      have hsome : lookupDigest (entry :: entries) c = some entry.id := by
        simp [lookupDigest, heq]
      rw [hnone, hsome, heq]
      simp [hc]
    · have hskip : lookupDigest (entry :: entries) c = lookupDigest entries c := by
        rw [lookupDigest, List.find?_cons_of_neg (by simpa using heq), lookupDigest]
      rw [hskip]
      simp [List.getElem?_set_ne heq]

lemma length_chunkIds (count : ℕ) (entries : List (DiskIndexChunk Id)) :
    (chunkIds count entries).length = count := by
  unfold chunkIds
  have hlen : ∀ ids : List (Option Id),
      (entries.foldl (fun ids entry => ids.set entry.logicalChunk (some entry.id)) ids).length =
        ids.length := by
    induction entries with
    | nil => exact fun _ => rfl
    | cons entry entries ih =>
      intro ids
      rw [List.foldl_cons, ih, List.length_set]
  rw [hlen, List.length_replicate]

lemma chunkIds_draftOf (decision : ℕ → SealResult Id) {c : ℕ} (hc : c < n) :
    (chunkIds n (draftOf decision n).chunks).getD c none = (decision c).toEntry := by
  rw [chunkIds, getElem_foldl_set _ (sorted_draftOf decision n) _ (by simpa using hc),
    lookupDigest_draftOf decision hc]
  simp [hc]

structure Assembled (src : SourceFile) (cs n : ℕ) (file : SparseFile) : Prop where
  size : file.size = src.file.size
  done : ∀ i, i < n * cs → file.byte i = src.file.byte i
  rest : ∀ i, n * cs ≤ i → file.byte i = 0

lemma Assembled.skip (h : Assembled src cs n file) (hzero : decisionOf hash src cs n = .zero) :
    Assembled src cs (n + 1) file  where
  size := h.size
  done i hi := by
    rcases Nat.lt_or_ge i (n * cs) with hlt | hge
    · exact h.done i hlt
    · rw [Nat.succ_mul] at hi
      have hall := describes_sealBytes hash (readChunk src cs n)
      rw [show sealBytes hash (readChunk src cs n) = .zero from hzero, readChunk_eq] at hall
      rw [h.rest i hge]
      rcases Nat.lt_or_ge i src.file.size with hin | hout
      · exact (chunkSlice_all_zero.mp hall i ⟨hge, hi, hin⟩).symm
      · exact (src.file.zero_past_end i hout).symm
  rest i hi := h.rest i (by rw [Nat.succ_mul] at hi; omega)

end

lemma Assembled.write (h : Assembled src cs n file) (hn : n * cs < src.file.size) :
    Assembled src cs (n + 1) (file.pwrite (n * cs) (readChunk src cs n)) := by
  have hlen : (readChunk src cs n).length = min cs (src.file.size - n * cs) := by
    rw [readChunk, length_slice]
  refine ⟨?_, fun i hi => ?_, fun i hi => ?_⟩
  · rw [file.pwrite_size_of_le _ _ (by rw [hlen, h.size]; omega), h.size]
  · rw [Nat.succ_mul] at hi
    by_cases hin : n * cs ≤ i ∧ i < n * cs + (readChunk src cs n).length
    · rw [file.pwrite_byte_in _ _ _ hin.1 hin.2, readChunk, getD_slice _ _ _ _ (by omega)]
      congr 1
      omega
    · rw [file.pwrite_byte_out _ _ _ (by omega)]
      rcases Nat.lt_or_ge i (n * cs) with hlt | hge
      · exact h.done i hlt
      · rw [h.rest i hge, src.file.zero_past_end i (by omega)]
  · rw [Nat.succ_mul] at hi
    rw [file.pwrite_byte_out _ _ _ (by omega)]
    exact h.rest i (by omega)

lemma readObject_run {id : Id} {object : List UInt8} (hobject : s.objects id = some object)
    (hdigest : hash object = id) : readObject hash id object.length s = .ok object s := by
  refine bind_ok.mpr ⟨s, s, get_ok.mpr ⟨rfl, rfl⟩, ?_⟩
  rw [hobject]
  refine bind_ok.mpr ⟨(), s, rejectIf_ok.mpr ⟨by simp, rfl⟩, ?_⟩
  exact bind_ok.mpr ⟨(), s, rejectIf_ok.mpr ⟨not_not.mpr hdigest, rfl⟩, pure_ok.mpr ⟨rfl, rfl⟩⟩

lemma assembleChunk_run {storage : Storage Id} (hsize : storage.logicalSize = src.file.size)
    (hcs : storage.chunkSize = cs) (hn : n < divCeil src.file.size cs) (hpos : 0 < cs)
    (hstored : Stored hash src cs (divCeil src.file.size cs) s) {ids : List (Option Id)}
    (hids : ids.getD n none = (decisionOf hash src cs n).toEntry) (h : Assembled src cs n file) :
    ∃ file', assembleChunk hash storage ids file n s = .ok file' s ∧
      Assembled src cs (n + 1) file' := by
  have hstart := (lt_divCeil hpos).mp hn
  have hle := src.size_le
  have hlen : storageChunkLen storage n = .ok (readChunk src cs n).length := by
    refine Check.rejectIf_bind_ok.mpr ⟨?_, ?_⟩
    · rw [hcs]
      unfold maxOff at hle
      unfold maxU64
      omega
    refine Check.rejectIf_bind_ok.mpr ⟨by rw [hcs, hsize]; omega, ?_⟩
    rw [hcs, hsize, readChunk, length_slice]
    rfl
  unfold assembleChunk
  rw [hids]
  cases hdec : decisionOf hash src cs n with
  | zero =>
    exact ⟨file, bind_ok.mpr ⟨_, s, check_ok.mpr ⟨hlen, rfl⟩, pure_ok.mpr ⟨rfl, rfl⟩⟩, h.skip hdec⟩
  | data id =>
    refine ⟨_, bind_ok.mpr ⟨_, s, check_ok.mpr ⟨hlen, rfl⟩, ?_⟩, h.write hstart⟩
    refine bind_ok.mpr ⟨_, s, readObject_run (hstored n hn id hdec) (hash_of_decision hdec), ?_⟩
    rw [hcs]
    exact pure_ok.mpr ⟨rfl, rfl⟩

omit [DecidableEq Id] in
lemma Assembled.eq_file (hpos : 0 < cs) (h : Assembled src cs (divCeil src.file.size cs) file) :
    file = src.file := by
  refine SparseFile.ext h.size fun i => ?_
  rcases Nat.lt_or_ge i src.file.size with hi | hi
  · refine h.done i ?_
    by_contra hge
    have hlt := div_lt_divCeil hpos hi
    have hin := inChunk_div hpos hi
    have := Nat.mul_le_mul_right cs (Nat.succ_le_of_lt hlt)
    rw [Nat.succ_mul] at this
    unfold InChunk at hin
    omega
  · rw [src.file.zero_past_end i hi, file.zero_past_end i (by rw [h.size]; exact hi)]

lemma checkIndex_run (hne : src.file.size ≠ 0) (device : RootfsDevice)
    (hshape : validateIndexShape (fileIndex hash src diskChunkSize) = .ok ())
    (hdigest : result.indexDigest = hash (stringify (fileIndex hash src diskChunkSize)))
    (hsize : result.rootfsSize = src.file.size) (hcs : result.chunkSize = diskChunkSize) :
    checkIndex hash stringify (storageDescriptor device result) (fileIndex hash src diskChunkSize) =
      .ok (chunkIds (divCeil src.file.size diskChunkSize)
        (fileIndex hash src diskChunkSize).chunks) := by
  have hle := src.size_le
  have hpos : 0 < diskChunkSize := by decide
  have hvalid : validateStorage (storageDescriptor device result) = .ok () := by
    refine Check.rejectIf_bind_ok.mpr ⟨not_not.mpr rfl, ?_⟩
    refine Check.rejectIf_bind_ok.mpr ⟨?_, ?_⟩
    · unfold maxOff at hle
      unfold maxU64
      rw [storageDescriptor, hsize]
      dsimp only
      omega
    refine Check.rejectIf_bind_ok.mpr ⟨not_not.mpr hcs, ?_⟩
    iterate 2 refine Check.rejectIf_bind_ok.mpr ⟨not_not.mpr rfl, ?_⟩
    exact Check.rejectIf_ok.mpr (not_not.mpr rfl)
  have hindex : validateDiskIndex (fileIndex hash src diskChunkSize)
      (storageDescriptor device result).descriptor = .ok () := by
    refine Check.rejectIf_bind_ok.mpr ⟨?_, ?_⟩
    · rw [Storage.descriptor, storageDescriptor, hcs]
      exact hpos.ne'
    refine Check.rejectIf_bind_ok.mpr ⟨not_not.mpr hsize.symm, ?_⟩
    refine Check.rejectIf_bind_ok.mpr ⟨not_not.mpr hcs.symm, ?_⟩
    iterate 2 refine Check.rejectIf_bind_ok.mpr ⟨not_not.mpr rfl, ?_⟩
    exact hshape
  have hcount : chunkCount (storageDescriptor device result).logicalSize
      (storageDescriptor device result).chunkSize =
        .ok (divCeil src.file.size diskChunkSize) := by
    change chunkCount result.rootfsSize result.chunkSize = _
    rw [hsize, hcs]
    unfold chunkCount
    rw [if_neg hpos.ne', if_neg hne, if_neg, divCeil, Nat.add_sub_assoc hpos]
    have hsmall : diskChunkSize ≤ 2 ^ 62 := by decide
    unfold maxOff at hle
    unfold maxU64
    omega
  refine Check.bind_ok.mpr ⟨(), hvalid, ?_⟩
  refine Check.rejectIf_bind_ok.mpr ⟨not_not.mpr hdigest.symm, ?_⟩
  refine Check.bind_ok.mpr ⟨(), hindex, ?_⟩
  exact Check.bind_ok.mpr ⟨_, hcount, rfl⟩

lemma assembleFlat_run (hne : src.file.size ≠ 0) (device : RootfsDevice)
    (hshape : validateIndexShape (fileIndex hash src diskChunkSize) = .ok ())
    (hdigest : result.indexDigest = hash (stringify (fileIndex hash src diskChunkSize)))
    (hsize : result.rootfsSize = src.file.size) (hcs : result.chunkSize = diskChunkSize)
    (hindex : s.indexes result.indexDigest = some (fileIndex hash src diskChunkSize))
    (hstored : Stored hash src diskChunkSize (divCeil src.file.size diskChunkSize) s) :
    ∃ s', assembleFlat hash stringify (preloadedRootfs device result)
        (storageDescriptor device result) s = .ok () s' ∧
      s'.flat result.rootfsDigest = some src.file := by
  have hpos : 0 < diskChunkSize := by decide
  have hcheck := checkIndex_run hne device hshape hdigest hsize hcs
  obtain ⟨file, hloop, hfile⟩ := EState.foldlM_range_run
    (f := assembleChunk hash (storageDescriptor device result)
      (chunkIds (divCeil src.file.size diskChunkSize) (fileIndex hash src diskChunkSize).chunks))

    (a := SparseFile.zeros src.file.size)
    (fun n file hn h => assembleChunk_run hsize hcs hn hpos hstored (chunkIds_draftOf _ hn) h)
    ⟨rfl, fun i hi => absurd hi (by omega), fun _ _ => rfl⟩
  refine ⟨_, bind_ok.mpr ⟨chunkIds (divCeil src.file.size diskChunkSize)
    (fileIndex hash src diskChunkSize).chunks, s, ?_, bind_ok.mpr ⟨(), s, rejectIf_ok.mpr ⟨?_, rfl⟩,
    bind_ok.mpr ⟨file, s, ?_, modify_ok.mpr rfl⟩⟩⟩, ?_⟩
  · refine bind_ok.mpr ⟨s, s, get_ok.mpr ⟨rfl, rfl⟩, ?_⟩
    rw [show s.indexes (storageDescriptor device result).indexDigest =
      some (fileIndex hash src diskChunkSize) from hindex]
    exact check_ok.mpr ⟨hcheck, rfl⟩
  · have := src.size_le
    rw [storageDescriptor, hsize]
    dsimp only
    omega
  · rw [length_chunkIds, show (storageDescriptor device result).logicalSize = src.file.size from
      hsize]
    exact hloop
  · rw [preloadedRootfs]
    dsimp only
    rw [update_self, hfile.eq_file hpos]

lemma materialize_preloaded (hinj : Injective hash) (hne : src.file.size ≠ 0)
    (device : RootfsDevice) (hrun : preloadFd hash stringify src diskChunkSize s = .ok result s')
    (htrusted : ∀ f, s'.flat result.rootfsDigest = some f → f.size = src.file.size → f = src.file) :
    ∃ s'', materializeFlatFromChunks hash stringify (preloadedRootfs device result)
    s' = .ok () s'' ∧
      s''.flat result.rootfsDigest = some src.file := by
  obtain ⟨hresult, hshape, hindex, hstored⟩ := preloadFd_ok hinj hrun
  have hdigest : result.rootfsDigest = result.indexDigest := by rw [hresult]
  have hsize : result.rootfsSize = src.file.size := by rw [hresult]
  have hbody : ∃ s'', assembleUnlessTrusted hash stringify (preloadedRootfs device result)
      (storageDescriptor device result) s' = .ok () s'' ∧
      s''.flat result.rootfsDigest = some src.file := by
    cases hopen : openTrustedFromCache s' (preloadedRootfs device result).artifact with
    | true =>
      refine ⟨s', bind_ok.mpr ⟨s', s', get_ok.mpr ⟨rfl, rfl⟩, ?_⟩, ?_⟩
      · rw [hopen]
        exact pure_ok.mpr ⟨rfl, rfl⟩
      · rw [openTrustedFromCache, preloadedRootfs] at hopen
        cases hflat : s'.flat result.rootfsDigest with
        | none =>
          rw [hflat] at hopen
          cases hopen
        | some f =>
          rw [hflat] at hopen
          rw [htrusted f hflat ((of_decide_eq_true hopen).trans hsize)]
    | false =>
      obtain ⟨s'', hassemble, hflat⟩ := assembleFlat_run hne device hshape
        (congrArg PreloadResult.indexDigest hresult) hsize (by rw [hresult]) hindex hstored
      refine ⟨s'', bind_ok.mpr ⟨s', s', get_ok.mpr ⟨rfl, rfl⟩, ?_⟩, hflat⟩
      rw [hopen]
      exact hassemble
  obtain ⟨s'', hrest, hflat⟩ := hbody
  refine ⟨s'', ?_, hflat⟩
  iterate 3 refine bind_ok.mpr ⟨(), s', rejectIf_ok.mpr ⟨not_not.mpr rfl, rfl⟩, ?_⟩
  exact bind_ok.mpr ⟨(), s', rejectIf_ok.mpr ⟨not_not.mpr hdigest.symm, rfl⟩, hrest⟩

end Model

def emptyCache : CasCache (List UInt8) :=
  ⟨fun _ => none, fun _ => none, fun _ => false, fun _ => none⟩

def plainSource (data : List UInt8) (h : data.length ≤ maxOff) : SourceFile where
  file := SparseFile.ofList data
  seekData off := some off
  seekHole _ := none
  size_le := h
  holes_zero off start hstart i hlo hhi := by
    cases hstart
    omega

def device : RootfsDevice := ⟨"virtio-blk", "rootfs", 2, 1⟩

def sampleText (index : DiskIndex (List UInt8)) : List UInt8 :=
  UInt8.ofNat (index.logicalSize + 1) :: index.chunks.flatMap (·.id)

/-- An empty file can be preloaded, but a storage of size zero is refused. -/
theorem empty_file_not_materialized :
    ∃ result s', preloadFd id sampleText (plainSource [] (Nat.zero_le _)) diskChunkSize emptyCache =
        .ok result s' ∧
      (outcome (materializeFlatFromChunks id sampleText (preloadedRootfs device result)) s').1 =
        .error .badManifest := by
  have hreply : (outcome (preloadFd id sampleText (plainSource [] (Nat.zero_le _)) diskChunkSize)
      emptyCache).1 = .ok ⟨[1], [1], 0, diskChunkSize, 0⟩ := by decide +kernel
  exact ⟨_, _, run_of_reply hreply, by decide +kernel⟩

/-- **Preload and assembly.** A file that is not empty, whatever its holes are, comes back byte for
byte from the storage its preload describes; a flat file that the cache already trusts under that
digest is taken to be the one assembled before. And the digest depends on the bytes and the length
of the file only, not on its holes and not on what the cache held. -/
theorem preload_materialize_roundTrip [DecidableEq Id] (hash : List UInt8 → Id)
    (stringify : DiskIndex Id → List UInt8) (hinj : Injective hash) :
    (∀ (src : SourceFile) (device : RootfsDevice) (s s' : CasCache Id) (result : PreloadResult Id),
      src.file.size ≠ 0 → preloadFd hash stringify src diskChunkSize s = .ok result s' →
      (∀ f, s'.flat result.rootfsDigest = some f → f.size = src.file.size → f = src.file) →
      ∃ s'', materializeFlatFromChunks hash stringify (preloadedRootfs device result) s' =
          .ok () s'' ∧ s''.flat result.rootfsDigest = some src.file) ∧
    ∀ (src src' : SourceFile) (cs : ℕ) (s s' t t' : CasCache Id)
    (result result' : PreloadResult Id),
      src.file = src'.file → preloadFd hash stringify src cs s = .ok result s' →
      preloadFd hash stringify src' cs t = .ok result' t' →
      result.indexDigest = result'.indexDigest := by
  refine ⟨fun src device s s' result hne hrun htrusted =>
    materialize_preloaded hinj hne device hrun htrusted, ?_⟩
  intro src src' cs s s' t t' result result' hfile hrun hrun'
  have hindex : fileIndex hash src cs = fileIndex hash src' cs := by
    unfold fileIndex decisionOf readChunk
    rw [hfile]
  rw [(preloadFd_ok hinj hrun).1, (preloadFd_ok hinj hrun').1, hindex]

/-- Three bytes, preloaded and assembled. -/
theorem preload_materialize_roundTrip_three_bytes :
    ∃ result s', preloadFd id sampleText (plainSource [1, 0, 2] (by decide))
    diskChunkSize emptyCache =
        .ok result s' ∧
      ∃ s'', materializeFlatFromChunks id sampleText (preloadedRootfs device result) s' =
          .ok () s'' ∧ s''.flat result.rootfsDigest = some (SparseFile.ofList [1, 0, 2]) := by
  have hreply : (outcome (preloadFd id sampleText (plainSource [1, 0, 2] (by decide)) diskChunkSize)
      emptyCache).1 = .ok ⟨[4, 1, 0, 2], [4, 1, 0, 2], 3, diskChunkSize, 1⟩ := by decide +kernel
  exact ⟨_, _, run_of_reply hreply, (preload_materialize_roundTrip id sampleText
    injective_id).1 _ device _ _ _ (by decide) (run_of_reply hreply) fun f hf =>
      by cases hf⟩

end SporeVM.Preload
