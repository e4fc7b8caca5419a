import SporeVM.Disk.SnapshotRefine

/-!
# Runs of a chunk-mapped disk

A disk is opened over a base file, with or without an index, and then serves any sequence of
operations. `Op.exec` runs an operation of the source; `Op.flat` is what it means on a flat byte
array. Every run of successful operations answers as the array does, and every snapshot along it
publishes an index of the array.
-/

namespace SporeVM

open Lib
open Lib.Check (ite_error_ok)
open Lib.EState (bind_ok pure_ok runAll specAll check_bind_ok get_bind_ok bind_pure_ok)
open Function

variable {Id : Type}

-- ══ Opening a disk

def baseContents (host : Host Id) (base : FileBlockSource) (size : ℕ) : SparseFile :=
  (host.files base.fd).ftruncate size

/-- A disk that was just opened on a host, and its contents. The overlay is a file of its own. An
attached parent index describes the base file; a content-addressed index denotes the contents. -/
inductive Opened (hash : List UInt8 → Id) (host : Host Id) : DiskState Id → SparseFile → Prop
  | init {base : FileBlockSource} {overlay : Option Overlay}
      {size chunkSize : UInt64} {s : DiskState Id}
      (hinit : init host base overlay size chunkSize = .ok s)
      (hoverlay : ∀ o, overlay = some o → o.fd ≠ base.fd) :
      Opened hash host s (baseContents host base size.toNat)
  | attachCasIndex {base : FileBlockSource} {overlay : Option Overlay}
      {size chunkSize : UInt64} {s s' : DiskState Id} {root : String} {index : DiskIndex Id}
      {A : SparseFile} (hinit : SporeVM.init host base overlay size chunkSize = .ok s)
      (hoverlay : ∀ o, overlay = some o → o.fd ≠ base.fd)
      (hattach : SporeVM.attachCasIndex root index s = .ok () s')
      (hindex : IndexDenotes hash index A) : Opened hash host s' A
  | attachParentIndex {base : FileBlockSource} {overlay : Option Overlay}
      {size chunkSize : UInt64} {s s' : DiskState Id} {root : String} {index : DiskIndex Id}
      (hinit : SporeVM.init host base overlay size chunkSize = .ok s)
      (hoverlay : ∀ o, overlay = some o → o.fd ≠ base.fd)
      (hattach : SporeVM.attachParentIndex root index s = .ok () s')
      (hindex : IndexDenotes hash index (baseContents host base size.toNat)) :
      Opened hash host s' (baseContents host base size.toNat)
  | attachRemote {s s' : DiskState Id} {A : SparseFile} (hopen : Opened hash host s A)
      (hattach : SporeVM.attachRemote s = .ok () s') : Opened hash host s' A

variable {hash : List UInt8 → Id}
  {s : DiskState Id} {host : Host Id} {base : FileBlockSource} {overlay : Option Overlay}

variable {size chunkSize : UInt64}

lemma init_ok (h : init host base overlay size chunkSize = .ok s) :
    (∃ hpos, s.disk = freshDisk base overlay size chunkSize.toNat hpos) ∧
      (∀ o, overlay = some o → (s.host.files o.fd).size = size.toNat) ∧
      ∀ fd, (∀ o, overlay = some o → o.fd ≠ fd) → s.host.files fd = host.files fd := by
  unfold init at h
  split at h
  · cases h
  split at h
  · cases h
  split at h
  · cases h
  next hcs =>
  have hpos : 0 < chunkSize.toNat := by omega
  cases overlay with
  | none =>
    cases h
    exact ⟨⟨hpos, rfl⟩, by simp, fun _ _ => rfl⟩
  | some o =>
    simp only at h
    split at h
    · next u s' hrun =>
      cases h
      obtain ⟨-, hdisk, hfiles⟩ := ftruncate_ok hrun
      refine ⟨⟨hpos, hdisk⟩, ?_, ?_⟩
      · rintro o' ho'
        cases ho'
        rw [hfiles, update_self, SparseFile.ftruncate_size]
      · intro fd hfd
        rw [hfiles, update_of_ne (Ne.symm (hfd o rfl))]
    · cases h

lemma init_source (h : init host base overlay size chunkSize = .ok s)
    (c : ℕ) (hc : c < s.disk.chunkCount) : s.disk.source c = .base := by
  obtain ⟨⟨hpos, hdisk⟩, -, -⟩ := init_ok h
  rw [hdisk] at hc ⊢
  exact List.getD_replicate _ (by simpa [ChunkMappedDisk.chunkCount, freshDisk] using hc)

variable {d : ChunkMappedDisk Id} {A : SparseFile} {files : ℕ → SparseFile}

lemma Inv.fresh (hsize : A.size = d.size) (hne : ∀ o, d.overlay = some o → o.fd ≠ d.base.fd)
    (hover : ∀ o, d.overlay = some o → (files o.fd).size ≤ d.size)
    (hsorted : ∀ b, d.currentBaseline = some b → SortedChunks b.digests)
    (hle : ∀ b, d.currentBaseline = some b → b.logicalSize ≤ d.size)
    (hchunk : ∀ c, c < d.chunkCount → ChunkShows hash d files A c ∧ BaselineAgrees hash d A c ∧
      (d.source c = .cas → d.canReuseParentIndex = true ∧ c < d.parentChunkCount)) :
    Inv hash d files (Contents.fresh A)  where
  size_eq := hsize
  clean_size := hsize.le
  based_size := hsize.le
  settled _ := rfl
  overlay_ne_base := hne
  overlay_size := hover
  sorted := hsorted
  baseline_le := hle
  chunk c hc := by
    obtain ⟨hshow, hagree, hunread⟩ := hchunk c hc
    exact ⟨hshow, hagree, fun _ _ _ => rfl, fun _ _ _ => rfl, hunread⟩

lemma sim_of_init (h : init host base overlay size chunkSize = .ok s)
    (hoverlay : ∀ o, overlay = some o → o.fd ≠ base.fd) :
    Sim hash s (Contents.fresh (baseContents host base size.toNat)) := by
  obtain ⟨⟨hpos, hdisk⟩, hsize, hfiles⟩ := init_ok h
  have hover : s.disk.overlay = overlay := by rw [hdisk]; rfl
  have hsource := init_source h
  have hnone : s.disk.currentBaseline = none := by rw [hdisk]; rfl
  have hbase : s.disk.base = base := by rw [hdisk]; rfl
  have hdsize : s.disk.size = size.toNat := by rw [hdisk]; rfl
  refine Inv.fresh hdsize.symm ?_ ?_ (by simp [hnone]) (by simp [hnone]) fun c hc => ⟨?_, ?_, ?_⟩
  · rw [hover, hbase]
    exact hoverlay
  · intro o ho
    rw [hsize o (hover ▸ ho), hdsize]
  · simp only [ChunkShows, hsource c hc]
    intro i hi
    have hlt : i < size.toNat := hdsize ▸ hi.lt_size
    rw [hbase, hfiles base.fd hoverlay, baseContents, SparseFile.ftruncate_byte_of_lt _ hlt]
  · intro _ hreuse
    simp [ChunkMappedDisk.canReuseParentIndex, hnone] at hreuse
  · simp [hsource c hc]

variable {index : DiskIndex Id}

lemma checkAttach_ok (h : checkAttach d index = .ok ()) :
    index.logicalSize = d.size ∧ index.chunkSize = d.chunkSize ∧ SortedChunks index.chunks := by
  obtain ⟨_, -, h⟩ := Check.bind_ok.mp h
  obtain ⟨hguard, h⟩ := Check.rejectIf_bind_ok.mp h
  simp only [ne_eq, not_or, not_not] at hguard
  unfold validateDiskIndex at h
  iterate 5 obtain ⟨_, -, h⟩ := Check.bind_ok.mp h
  obtain ⟨-, hsorted, -⟩ := covers_of_validateIndexShape h
  exact ⟨hguard.1, hguard.2, hsorted⟩

variable {root : String}

lemma entryDescribes_of_denotes
    (hindex : IndexDenotes hash index A) (hsorted : SortedChunks index.chunks)
    (hsize : index.logicalSize = d.size) (hcs : index.chunkSize = d.chunkSize)
    (hbaseline : d.currentBaseline = some ⟨root, index.chunks, index.logicalSize⟩) {c : ℕ}
    (hc : c < d.chunkCount) : EntryDescribes hash d A c := by
  have hid : d.baselineId c = lookupDigest index.chunks c := by
    rw [ChunkMappedDisk.baselineId, hbaseline]
    exact DigestIndex.get_eq_lookupDigest hsorted c
  unfold EntryDescribes
  rw [hid]
  cases hlookup : lookupDigest index.chunks c with
  | some id =>
    have := hindex.digest _ (mem_of_lookupDigest hlookup)
    rwa [hsize, hcs] at this
  | none =>
    have hcount : c < divCeil index.logicalSize index.chunkSize := by
      rw [hsize, hcs, ← d.sources_length]
      exact hc
    rcases (hindex.covers.covered c).mpr ⟨Nat.zero_le _, hcount⟩ with hd | hz
    · exact absurd hd (lookupDigest_eq_none.mp hlookup)
    · have := hindex.zero c hz
      rwa [hsize, hcs] at this

lemma indexSources_getD (count : ℕ) (chunks : List (DiskIndexChunk Id)) (c : ℕ) (hc : c < count) :
    (indexSources count chunks).getD c .base = .cas ∧ HasDigest chunks c ∨
      (indexSources count chunks).getD c .base = .zero ∧ ¬ HasDigest chunks c := by
  -- Folding from the left, the claim is about the entries already set.
  have hfold : ∀ (entries : List (DiskIndexChunk Id)) (sources : List Source),
      c < sources.length →
      (entries.foldl (fun sources entry => sources.set entry.logicalChunk .cas) sources).getD c
        .base
          = .cas ∧ HasDigest entries c ∨
        (entries.foldl (fun sources entry => sources.set entry.logicalChunk .cas) sources).getD c
          .base
          = sources.getD c .base ∧ ¬ HasDigest entries c := by
    intro entries
    induction entries with
    | nil =>
      intro sources _
      exact .inr ⟨rfl, by simp [HasDigest]⟩
    | cons entry entries ih =>
      intro sources hlt
      rw [List.foldl_cons]
      have hset : (sources.set entry.logicalChunk .cas).getD c .base =
          if entry.logicalChunk = c then .cas else sources.getD c .base := by
        rw [List.getD_eq_getElem _ _ (by simpa using hlt), List.getElem_set,
          List.getD_eq_getElem _ _ hlt]
      rcases ih (sources.set entry.logicalChunk .cas) (by simpa using hlt) with ⟨h, hd⟩ | ⟨h, hd⟩
      · exact .inl ⟨h, hasDigest_cons.mpr (.inr hd)⟩
      · rw [h, hset]
        by_cases heq : entry.logicalChunk = c
        · exact .inl ⟨if_pos heq, hasDigest_cons.mpr (.inl heq)⟩
        · refine .inr ⟨if_neg heq, fun hcons => ?_⟩
          exact (hasDigest_cons.mp hcons).elim heq hd
  rcases hfold chunks (List.replicate count .zero) (by simpa using hc) with h | ⟨h, hd⟩
  · exact .inl h
  · refine .inr ⟨?_, hd⟩
    rw [indexSources, h, List.getD_replicate _ hc]

lemma Inv.attachCas {G : Contents} (h : Inv hash d files G)
    (hindex : IndexDenotes hash index A) (hsorted : SortedChunks index.chunks)
    (hsize : index.logicalSize = d.size) (hcs : index.chunkSize = d.chunkSize) :
    Inv hash (installIndexState d root ⟨root, index.chunks, index.logicalSize⟩) files
      (Contents.fresh A) := by
  refine Inv.fresh (hindex.size.trans hsize) h.overlay_ne_base h.overlay_size ?_ ?_ fun c hc => ?_
  · rintro b hb
    cases hb
    exact hsorted
  · rintro b hb
    cases hb
    exact hsize.le
  have hcount : c < d.chunkCount := by
    rwa [ChunkMappedDisk.chunkCount, installIndexState, length_indexSources] at hc
  have hentry := entryDescribes_of_denotes hindex hsorted hsize hcs
    (d := installIndexState d root ⟨root, index.chunks, index.logicalSize⟩) rfl hc
  have hid : (installIndexState d root ⟨root, index.chunks, index.logicalSize⟩).baselineId c =
      lookupDigest index.chunks c := DigestIndex.get_eq_lookupDigest hsorted c
  refine ⟨?_, fun _ _ _ => hentry, fun _ => ?_⟩
  · unfold EntryDescribes at hentry
    rw [hid] at hentry
    unfold ChunkShows
    rcases indexSources_getD d.sources.length index.chunks c hcount with ⟨hsource, hd⟩ |
      ⟨hsource, hd⟩
    · have hsource : (installIndexState d root
          ⟨root, index.chunks, index.logicalSize⟩).source c = .cas := hsource
      rw [hsource, hid]
      cases hlookup : lookupDigest index.chunks c with
      | none => exact absurd hd (lookupDigest_eq_none.mp hlookup)
      | some id =>
        rw [hlookup] at hentry
        exact congrArg some hentry.symm
    · have hsource : (installIndexState d root
          ⟨root, index.chunks, index.logicalSize⟩).source c = .zero := hsource
      rw [hsource]
      rw [lookupDigest_eq_none.mpr hd] at hentry
      exact hentry
  · have hpos := ChunkMappedDisk.lt_chunkCount.mp hcount
    constructor
    · change decide (index.logicalSize ≠ 0 ∧ index.logicalSize ≤ d.size) = true
      rw [decide_eq_true_eq, hsize]
      exact ⟨by omega, Nat.le_refl _⟩
    · change c < divCeil index.logicalSize d.chunkSize
      rw [hsize, ← d.sources_length]
      exact hcount

lemma Inv.attachParent
    (h : Inv hash d files (Contents.fresh A)) (hbase : ∀ c, c < d.chunkCount → d.source c = .base)
    (hindex : IndexDenotes hash index A) (hsorted : SortedChunks index.chunks)
    (hsize : index.logicalSize = d.size) (hcs : index.chunkSize = d.chunkSize) :
    Inv hash { d with index := .parent ⟨root, index.chunks, index.logicalSize⟩ } files
      (Contents.fresh A) := by
  refine Inv.fresh h.size_eq h.overlay_ne_base h.overlay_size ?_ ?_ fun c hc => ?_
  · rintro b hb
    cases hb
    exact hsorted
  · rintro b hb
    cases hb
    exact hsize.le
  have hc : c < d.chunkCount := hc
  have hshow := (h.chunk c hc).shows
  have hsource := hbase c hc
  refine ⟨?_, fun _ _ _ => ?_, fun hcas => ?_⟩
  · unfold ChunkShows at hshow
    rw [hsource] at hshow
    have hsource' : ({ d with index := .parent ⟨root, index.chunks, index.logicalSize⟩ } :
        ChunkMappedDisk Id).source c = .base := hsource
    unfold ChunkShows
    rw [hsource']
    exact hshow
  · exact entryDescribes_of_denotes hindex hsorted hsize hcs
      (d := { d with index := .parent ⟨root, index.chunks, index.logicalSize⟩ }) rfl hc
  · have hcas : d.source c = .cas := hcas
    rw [hsource] at hcas
    cases hcas

lemma attach_ok {s s' : DiskState Id} {u : Unit}
    {install : Baseline Id → ChunkMappedDisk Id → ChunkMappedDisk Id}
    (h : (do
      let d ← getDisk
      EState.check (checkAttach d index)
      let baseline ← EState.check (baselineFrom d root index)
      modifyDisk (install baseline)) s = .ok u s') :
    s' = { s with disk := install ⟨root, index.chunks, index.logicalSize⟩ s.disk } ∧
      index.logicalSize = s.disk.size ∧ index.chunkSize = s.disk.chunkSize ∧
      SortedChunks index.chunks := by
  replace h := getDisk_bind_ok.mp h
  obtain ⟨_, hattach, h⟩ := check_bind_ok.mp h
  obtain ⟨baseline, hbaseline, h⟩ := check_bind_ok.mp h
  obtain ⟨-, hbaseline⟩ := ite_error_ok.mp hbaseline
  cases hbaseline
  cases modifyDisk_ok.mp h
  exact ⟨rfl, checkAttach_ok hattach⟩

/-- **Opening.** A disk that was just opened stands for its initial contents. -/
theorem sim_of_opened {host : Host Id} {s : DiskState Id} {A : SparseFile}
    (h : Opened hash host s A) : Sim hash s (Contents.fresh A) := by
  induction h with
  | init hinit hoverlay => exact sim_of_init hinit hoverlay
  | attachCasIndex hinit hoverlay hattach hindex =>
    obtain ⟨rfl, hsize, hcs, hsorted⟩ := attach_ok hattach
    exact Inv.attachCas (sim_of_init hinit hoverlay) hindex hsorted hsize hcs
  | attachParentIndex hinit hoverlay hattach hindex =>
    obtain ⟨rfl, hsize, hcs, hsorted⟩ := attach_ok hattach
    exact Inv.attachParent (sim_of_init hinit hoverlay) (init_source hinit) hindex hsorted hsize hcs
  | attachRemote hopen hattach ih =>
    cases modifyDisk_ok.mp hattach
    exact ⟨ih.size_eq, ih.clean_size, ih.based_size, ih.settled, ih.overlay_ne_base,
      ih.overlay_size,
      ih.sorted, ih.baseline_le, fun c hc => ⟨(ih.chunk c hc).shows, (ih.chunk c hc).agrees,
        (ih.chunk c hc).clean, (ih.chunk c hc).based, (ih.chunk c hc).unread⟩⟩

-- ══ Operations

inductive Op
  | readAt (len offset : ℕ)
  | writeAt (buf : List UInt8) (offset : ℕ)
  | zeroRange (offset len : ℕ)
  | growKnownZero (newSize : ℕ)
  | snapshotIndex (dir : String) (device : RootfsDevice) (quiesced : Bool)
  | commitSnapshot

def Op.exec [DecidableEq Id] (hash : List UInt8 → Id) (stringify : DiskIndex Id → List UInt8) :
    Op → DiskM Id (List UInt8)
  | .readAt len offset => SporeVM.readAt hash len offset
  | .writeAt buf offset => do
    SporeVM.writeAt hash buf offset
    pure []
  | .zeroRange offset len => do
    SporeVM.zeroRange hash offset len
    pure []
  | .growKnownZero newSize => do
    SporeVM.growKnownZero hash newSize
    pure []
  | .snapshotIndex dir device quiesced => do
    let _ ← SporeVM.snapshotIndex hash stringify dir device quiesced
    pure []
  | .commitSnapshot => do
    SporeVM.commitSnapshot
    pure []

def Op.flat : Op → SparseFile → List UInt8 × SparseFile
  | .readAt len offset, A => (slice A.byte offset len, A)
  | .writeAt buf offset, A => ([], A.pwrite offset buf)
  | .zeroRange offset len, A => ([], A.zeroed offset len)
  | .growKnownZero newSize, A => ([], A.ftruncate newSize)
  | .snapshotIndex _ _ _, A => ([], A)
  | .commitSnapshot, A => ([], A)

def Op.apply : Op → Contents → List UInt8 × Contents
  | .snapshotIndex _ _ _, G => ([], { G with clean := G.now })
  | .commitSnapshot, G => ([], { G with based := G.clean })
  | op, G => ((op.flat G.now).1, { G with now := (op.flat G.now).2 })

variable [DecidableEq Id] {stringify : DiskIndex Id → List UInt8}

/-- **One operation.** It replies as the array does and leaves the rest of the host alone. -/
theorem exec_ok (hinj : Injective hash) {op : Op} {s' : DiskState Id} {G : Contents}
    {reply : List UInt8} (hsim : Sim hash s G) (h : op.exec hash stringify s = .ok reply s') :
    reply = (op.apply G).1 ∧ Sim hash s' (op.apply G).2 ∧ Footprint s s' := by
  cases op with
  | readAt len offset =>
    obtain ⟨-, hreply, hsim', hframe⟩ := readAt_ok hinj hsim h
    exact ⟨hreply, hsim', hframe.footprint⟩
  | writeAt buf offset =>
    obtain ⟨_, hrun, rfl⟩ := bind_pure_ok.mp h
    obtain ⟨-, hsim', hframe⟩ := writeAt_ok hinj hsim hrun
    exact ⟨rfl, hsim', hframe.footprint⟩
  | zeroRange offset len =>
    obtain ⟨_, hrun, rfl⟩ := bind_pure_ok.mp h
    obtain ⟨-, hsim', hframe⟩ := zeroRange_ok hinj hsim hrun
    exact ⟨rfl, hsim', hframe.footprint⟩
  | growKnownZero newSize =>
    obtain ⟨_, hrun, rfl⟩ := bind_pure_ok.mp h
    obtain ⟨-, hsim', hframe⟩ := growKnownZero_ok hinj hsim hrun
    exact ⟨rfl, hsim', hframe.footprint⟩
  | snapshotIndex dir device quiesced =>
    obtain ⟨_, hrun, rfl⟩ := bind_pure_ok.mp h
    obtain ⟨⟨disk, stats⟩, s₂, hsnapshot, hret⟩ := bind_ok.mp hrun
    obtain ⟨-, rfl⟩ := pure_ok.mp hret
    obtain ⟨-, -, hsim', hfoot⟩ := snapshotIndexWithStats_ok hinj hsim hsnapshot
    exact ⟨rfl, hsim', hfoot⟩
  | commitSnapshot =>
    obtain ⟨_, hrun, rfl⟩ := bind_pure_ok.mp h
    obtain ⟨hsim', hfoot⟩ := commitSnapshot_ok hsim hrun
    exact ⟨rfl, hsim', hfoot⟩

lemma apply_flat (op : Op) (G : Contents) :
    (op.apply G).1 = (op.flat G.now).1 ∧ (op.apply G).2.now = (op.flat G.now).2 := by
  cases op <;> exact ⟨rfl, rfl⟩

/-- **Runs.** A run of successful operations replies as the arrays do. -/
theorem runAll_exec_ok (hinj : Injective hash) {ops : List Op} {s' : DiskState Id}
    {G : Contents} {replies : List (List UInt8)} (hsim : Sim hash s G)
    (h : runAll (Op.exec hash stringify) ops s = .ok replies s') :
    replies = (specAll Op.apply ops G).1 ∧ Sim hash s' (specAll Op.apply ops G).2 := by
  refine EState.runAll_simulates ?_ ops s G replies s' hsim h
  intro op t G' reply t' ht hrun
  obtain ⟨hreply, ht', -⟩ := exec_ok hinj ht hrun
  exact ⟨hreply, ht'⟩

lemma specAll_apply_flat (ops : List Op) (G : Contents) :
    (specAll Op.apply ops G).1 = (specAll Op.flat ops G.now).1 ∧
      (specAll Op.apply ops G).2.now = (specAll Op.flat ops G.now).2 := by
  induction ops generalizing G with
  | nil => exact ⟨rfl, rfl⟩
  | cons op ops ih =>
    obtain ⟨hreply, hnow⟩ := apply_flat op G
    obtain ⟨hreplies, hrest⟩ := ih (op.apply G).2
    simp only [specAll, hreply, hreplies, hrest, hnow, and_self]

/-- **Refinement.** Every run of successful operations on an opened disk replies as a flat byte
array does that starts as the disk's initial contents. -/
theorem run_reads_flat_array (hinj : Injective hash) {host : Host Id}
    {s s' : DiskState Id} {A : SparseFile} (hopen : Opened hash host s A) {ops : List Op}
    {replies : List (List UInt8)} (hrun : runAll (Op.exec hash stringify) ops s = .ok replies s') :
    replies = (specAll Op.flat ops A).1 := by
  have hreplies := (runAll_exec_ok hinj (sim_of_opened hopen) hrun).1
  rw [hreplies, (specAll_apply_flat ops (Contents.fresh A)).1]
  rfl

def sampleHost : Host (List UInt8) where
  files fd := if fd = 0 then SparseFile.zeros 600 else SparseFile.zeros 0
  objects root digest := if root = "cache" ∧ digest = [1, 2, 3] then some [1, 2, 3] else none
  indexes _ _ := none
  fetcher := ⟨"cache", [], fun _ => none⟩
  faults := []

def sampleIndex (id : List UInt8) : DiskIndex (List UInt8) where
  kind := diskIndexKind
  logicalSize := 3
  chunkSize := 512
  hashAlgorithm := hashAlgorithmBlake3
  objectNamespace := rootfsObjectNamespace
  chunks := [⟨0, id⟩]
  zeroRanges := []

def sampleText (index : DiskIndex (List UInt8)) : List UInt8 := [UInt8.ofNat index.logicalSize]

def sampleDevice : RootfsDevice := ⟨"virtio-mmio", "rootfs", 2, 1⟩

def sampleInit : Except StorageError (DiskState (List UInt8)) :=
  init sampleHost ⟨0, 600⟩ (some ⟨1, "/tmp"⟩) 3 512

lemma sampleIndex_denotes (A : SparseFile) (hsize : A.size = 3) :
    IndexDenotes id (sampleIndex (slice A.byte 0 3)) A := by
  refine ⟨hsize, ?_, ?_, ?_⟩
  · intro entry hmem
    obtain rfl := List.mem_singleton.mp hmem
    simp [sampleIndex, chunkSlice, chunkExtent]
  · rintro c ⟨range, hmem, -⟩
    simp [sampleIndex] at hmem
  · have hcount : divCeil 3 512 = 1 := by decide
    change Covers 0 (divCeil 3 512) [⟨0, slice A.byte 0 3⟩] []
    rw [hcount]
    exact (covers_nil 1).cons_chunk rfl

def sampleOps : List Op :=
  [.readAt 3 0, .writeAt [9] 1, .zeroRange 0 1, .snapshotIndex "cache" sampleDevice true,
    .commitSnapshot, .growKnownZero 5, .readAt 5 0]

def sampleReplies : List (List UInt8) := [[1, 2, 3], [], [], [], [], [], [0, 9, 3, 0, 0]]

lemma opened_sample {α : Type} {x : DiskM (List UInt8) α} {reply : α}
    (h : EState.replyFrom sampleInit (do
      attachCasIndex "cache" (sampleIndex [1, 2, 3])
      x) = some reply) :
    ∃ s s', Opened id sampleHost s (SparseFile.ofList [1, 2, 3]) ∧ x s = .ok reply s' := by
  obtain ⟨s₀, s', hinit, hrun⟩ := EState.ok_of_replyFrom h
  obtain ⟨_, s, hattach, hrun⟩ := bind_ok.mp hrun
  exact ⟨s, s', .attachCasIndex hinit (by simp) hattach
    (sampleIndex_denotes (SparseFile.ofList [1, 2, 3]) rfl), hrun⟩

theorem run_reads_flat_array_sample : ∃ s s', Opened id sampleHost s (SparseFile.ofList [1, 2, 3]) ∧
      runAll (Op.exec id sampleText) sampleOps s = .ok sampleReplies s' ∧
      sampleReplies = (specAll Op.flat sampleOps (SparseFile.ofList [1, 2, 3])).1 := by
  have hreply : EState.replyFrom sampleInit (do
      attachCasIndex "cache" (sampleIndex [1, 2, 3])
      runAll (Op.exec id sampleText) sampleOps) = some sampleReplies := by
    decide +kernel
  obtain ⟨s, s', hopen, hrun⟩ := opened_sample hreply
  exact ⟨s, s', hopen, hrun, run_reads_flat_array injective_id hopen hrun⟩

/-- **Snapshots.** A snapshot after any run publishes an index that denotes the current contents:
listed digests are digests of the current bytes, zero ranges are zero, and every chunk is in exactly
one of the two. It equals the index of a full rescan exactly when no chunk it lists is zero, and
always after a full scan. -/
theorem snapshot_denotes_contents (hinj : Injective hash) {host : Host Id}
    {s s₁ s₂ : DiskState Id} {A : SparseFile} (hopen : Opened hash host s A) {ops : List Op}
    {replies : List (List UInt8)}
    (hrun : runAll (Op.exec hash stringify) ops s = .ok replies s₁) {dir : String}
    {device : RootfsDevice} {quiesced : Bool} {disk : SporeDisk Id} {stats : SnapshotStats}
    (hsnapshot : snapshotIndexWithStats hash stringify dir device quiesced s₁ =
      .ok (disk, stats) s₂) : ∃ index, s₂.host.indexes dir disk.base = some index ∧
      IndexDenotes hash index (specAll Op.flat ops A).2 ∧
      (index = rescanIndex hash s₁.disk (specAll Op.flat ops A).2 ↔ ∀ entry ∈ index.chunks,
        ∃ i, s₁.disk.Holds entry.logicalChunk i ∧ (specAll Op.flat ops A).2.byte i ≠ 0) ∧
      (stats.fullScan = true → index = rescanIndex hash s₁.disk (specAll Op.flat ops A).2) := by
  have hsim := (runAll_exec_ok hinj (sim_of_opened hopen) hrun).2
  obtain ⟨⟨index, hpublished, hdenotes, hrescan, hfull, -⟩, -⟩ :=
    snapshotIndexWithStats_ok hinj hsim hsnapshot
  rw [(specAll_apply_flat ops (Contents.fresh A)).2] at hdenotes hrescan hfull
  exact ⟨index, hpublished, hdenotes, hrescan, hfull⟩

theorem snapshot_denotes_contents_sample :
    ∃ s s₁ s₂ disk stats, Opened id sampleHost s (SparseFile.ofList [1, 2, 3]) ∧
      runAll (Op.exec id sampleText) sampleOps s = .ok sampleReplies s₁ ∧
      snapshotIndexWithStats id sampleText "cache" sampleDevice true s₁ = .ok (disk, stats) s₂ ∧
      ∃ index, s₂.host.indexes "cache" disk.base = some index ∧
        IndexDenotes id index (specAll Op.flat sampleOps (SparseFile.ofList [1, 2, 3])).2 := by
  have hreply : (EState.replyFrom sampleInit (do
      attachCasIndex "cache" (sampleIndex [1, 2, 3])
      let replies ← runAll (Op.exec id sampleText) sampleOps
      let result ← snapshotIndexWithStats id sampleText "cache" sampleDevice true
      pure (replies, result))).map Prod.fst = some sampleReplies := by
    decide +kernel
  obtain ⟨⟨replies, result⟩, hreply, rfl⟩ := Option.map_eq_some_iff.mp hreply
  obtain ⟨s, s₂, hopen, hrun⟩ := opened_sample hreply
  obtain ⟨_, s₁, hops, hrun⟩ := bind_ok.mp hrun
  obtain ⟨⟨disk, stats⟩, _, hsnapshot, hrun⟩ := bind_ok.mp hrun
  obtain ⟨hpair, rfl⟩ := pure_ok.mp hrun
  cases hpair
  obtain ⟨index, hpublished, hdenotes, -⟩ :=
    snapshot_denotes_contents injective_id hopen hops hsnapshot
  exact ⟨s, s₁, _, disk, stats, hopen, hops, hsnapshot, index, hpublished, hdenotes⟩

/-- A clean chunk that the parent index lists by digest although it is zero keeps its digest, where
a full rescan records a zero range. -/
theorem inherited_zero_chunk_keeps_digest :
    ∃ s s' disk stats index, Opened id sampleHost s (SparseFile.zeros 3) ∧
      snapshotIndexWithStats id sampleText "cache" sampleDevice true s = .ok (disk, stats) s' ∧
      s'.host.indexes "cache" disk.base = some index ∧
      index ≠ rescanIndex id s.disk (SparseFile.zeros 3) := by
  have hreply : EState.replyFrom sampleInit (do
      attachParentIndex "cache" (sampleIndex [0, 0, 0])
      let s ← get
      let result ← snapshotIndexWithStats id sampleText "cache" sampleDevice true
      let s' ← get
      pure (s'.host.indexes "cache" result.1.base, rescanIndex id s.disk (SparseFile.zeros 3))) =
      some (some (sampleIndex [0, 0, 0]),
        { sampleIndex [] with chunks := [], zeroRanges := [⟨0, 1⟩] }) := by
    decide +kernel
  obtain ⟨s₀, s₁, hinit, hrun⟩ := EState.ok_of_replyFrom hreply
  obtain ⟨_, s, hattach, hrun⟩ := bind_ok.mp hrun
  replace hrun := get_bind_ok.mp hrun
  obtain ⟨⟨disk, stats⟩, s', hsnapshot, hrun⟩ := bind_ok.mp hrun
  replace hrun := get_bind_ok.mp hrun
  obtain ⟨hpair, rfl⟩ := pure_ok.mp hrun
  obtain ⟨hindex, hrescan⟩ := Prod.mk.inj hpair
  have hcontents : baseContents sampleHost ⟨0, 600⟩ (3 : UInt64).toNat = SparseFile.zeros 3 := by
    refine SparseFile.ext rfl fun i => ?_
    simp [baseContents, SparseFile.ftruncate, sampleHost, SparseFile.zeros]
  have hopen : Opened id sampleHost s (SparseFile.zeros 3) := by
    rw [← hcontents]
    refine .attachParentIndex hinit (by simp) hattach ?_
    rw [hcontents]
    exact sampleIndex_denotes (SparseFile.zeros 3) rfl
  refine ⟨s, s', disk, stats, _, hopen, hsnapshot, hindex, ?_⟩
  rw [hrescan]
  decide

end SporeVM
