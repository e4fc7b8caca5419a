import SporeVM.Disk.Ops

/-!
# The simulation relation between a chunk-mapped disk and flat byte arrays

`Inv hash d files G` relates a disk and its host files to the byte arrays the disk stands for: its
contents now, the contents of its latest snapshot, and the contents of its fork authority, the
latest committed snapshot. Before the first snapshot both are the contents the disk was opened with.

The invariant says of every chunk that its source leads to the bytes of the array, that the baseline
entry a snapshot would reuse for it records the truth, and that a chunk classified as clean still
has the bytes of the latest snapshot.
-/

namespace SporeVM

open Lib (SparseFile InChunk chunkExtent chunkSlice)

variable {Id : Type} (hash : List UInt8 → Id)

namespace ChunkMappedDisk

def Holds (d : ChunkMappedDisk Id) (c i : ℕ) : Prop := InChunk d.chunkSize d.size c i

def chunkOf (d : ChunkMappedDisk Id) (A : SparseFile) (c : ℕ) : List UInt8 :=
  chunkSlice d.chunkSize d.size A.byte c

end ChunkMappedDisk

def ChunkShows (d : ChunkMappedDisk Id) (files : ℕ → SparseFile) (A : SparseFile) (c : ℕ) : Prop :=
  match d.source c with
  | .base => ∀ i, d.Holds c i → (files d.base.fd).byte i = A.byte i
  | .overlay | .overlayClean =>
    ∃ o, d.overlay = some o ∧ ∀ i, d.Holds c i → (files o.fd).byte i = A.byte i
  | .zero | .zeroDirty => ∀ i, d.Holds c i → A.byte i = 0
  | .cas => d.baselineId c = some (hash (d.chunkOf A c))

def EntryDescribes (d : ChunkMappedDisk Id) (A : SparseFile) (c : ℕ) : Prop :=
  match d.baselineId c with
  | none => ∀ i, d.Holds c i → A.byte i = 0
  | some id => hash (d.chunkOf A c) = id

def BaselineAgrees (d : ChunkMappedDisk Id) (A : SparseFile) (c : ℕ) : Prop :=
  d.source c = .base ∨ d.source c = .overlayClean ∨ d.source c = .cas →
    d.canReuseParentIndex = true → c < d.parentChunkCount → EntryDescribes hash d A c

structure Contents where
  /-- What the disk reads now. -/
  now : SparseFile
  /-- What it read at its latest snapshot. -/
  clean : SparseFile
  /-- What it read at its latest committed snapshot. -/
  based : SparseFile

def Contents.fresh (A : SparseFile) : Contents := ⟨A, A, A⟩

structure ChunkOk (d : ChunkMappedDisk Id) (files : ℕ → SparseFile) (G : Contents) (c : ℕ) :
    Prop where
  shows : ChunkShows hash d files G.now c
  agrees : BaselineAgrees hash d G.now c
  clean : sourceIsDirty (d.source c) = false → ∀ i, d.Holds c i → G.now.byte i = G.clean.byte i
  based : d.source c = .base ∨ d.source c = .cas →
    ∀ i, d.Holds c i → G.now.byte i = G.based.byte i
  /-- An unread object is always one that a snapshot reuses. -/
  unread : d.source c = .cas → d.canReuseParentIndex = true ∧ c < d.parentChunkCount

structure Inv (d : ChunkMappedDisk Id) (files : ℕ → SparseFile) (G : Contents) : Prop where
  size_eq : G.now.size = d.size
  clean_size : G.clean.size ≤ d.size
  based_size : G.based.size ≤ d.size
  /-- A snapshot is pending exactly while it is not yet the fork authority. -/
  settled : d.pendingSnapshotIdentity = none → G.clean = G.based
  overlay_ne_base : ∀ o, d.overlay = some o → o.fd ≠ d.base.fd
  /-- Growth relies on the overlay having no bytes past the disk's end. -/
  overlay_size : ∀ o, d.overlay = some o → (files o.fd).size ≤ d.size
  sorted : ∀ b, d.currentBaseline = some b → SortedChunks b.digests
  baseline_le : ∀ b, d.currentBaseline = some b → b.logicalSize ≤ d.size
  chunk : ∀ c, c < d.chunkCount → ChunkOk hash d files G c

def Index.isCas : Index Id → Bool
  | .cas _ _ => true
  | .none | .parent _ => false

structure SameDisk (d d' : ChunkMappedDisk Id) : Prop where
  base : d'.base = d.base
  overlay : d'.overlay = d.overlay
  chunkSize : d'.chunkSize = d.chunkSize
  index : d'.index = d.index
  pending : d'.pendingSnapshotIdentity = d.pendingSnapshotIdentity
  committed : d'.committedSnapshotIdentity = d.committedSnapshotIdentity

lemma SameDisk.refl (d : ChunkMappedDisk Id) : SameDisk d d := ⟨rfl, rfl, rfl, rfl, rfl, rfl⟩

lemma SameDisk.setSource (d : ChunkMappedDisk Id) (c : ℕ) (source : Source) :
    SameDisk d (d.setSource c source) :=
  ⟨rfl, rfl, rfl, rfl, rfl, rfl⟩

variable {d : ChunkMappedDisk Id} {c' : ℕ}

lemma setSource_unread {c : ℕ} {source : Source} (hne : source ≠ .cas)
    (h : (d.setSource c source).source c' = .cas) : d.source c' = .cas := by
  by_cases hc : c' = c
  · subst hc
    rcases Nat.lt_or_ge c' d.chunkCount with hlt | hge
    · rw [ChunkMappedDisk.setSource_source_self hlt] at h
      exact absurd h hne
    · rw [ChunkMappedDisk.source_of_ge (by simpa using hge)] at h
      cases h
  · rwa [ChunkMappedDisk.setSource_source_ne hc] at h

variable {d' : ChunkMappedDisk Id}

lemma SameDisk.trans {d'' : ChunkMappedDisk Id} (h : SameDisk d d') (h' : SameDisk d' d'') :
    SameDisk d d'' :=
  ⟨h'.base.trans h.base, h'.overlay.trans h.overlay, h'.chunkSize.trans h.chunkSize,
    h'.index.trans h.index, h'.pending.trans h.pending, h'.committed.trans h.committed⟩

lemma SameDisk.currentBaseline (h : SameDisk d d') : d'.currentBaseline = d.currentBaseline := by
  rw [ChunkMappedDisk.currentBaseline, ChunkMappedDisk.currentBaseline, h.index]

lemma SameDisk.baselineId (h : SameDisk d d') (c : ℕ) : d'.baselineId c = d.baselineId c := by
  rw [ChunkMappedDisk.baselineId, ChunkMappedDisk.baselineId, h.currentBaseline]

lemma SameDisk.parentChunkCount (h : SameDisk d d') : d'.parentChunkCount = d.parentChunkCount := by
  rw [ChunkMappedDisk.parentChunkCount, ChunkMappedDisk.parentChunkCount, h.currentBaseline,
    h.chunkSize]

/-- What no operation on contents changes: those parts of the disk, every file but its base and
overlay, and the base file too unless the disk faults objects into it. No chunk becomes unread. -/
structure Frame (s s' : DiskState Id) : Prop extends SameDisk s.disk s'.disk where
  unread : ∀ c, s'.disk.source c = .cas → s.disk.source c = .cas
  others : ∀ fd, fd ≠ s.disk.base.fd → (∀ o, s.disk.overlay = some o → fd ≠ o.fd) →
    s'.host.files fd = s.host.files fd
  baseFile : s.disk.index.isCas = false →
    s'.host.files s.disk.base.fd = s.host.files s.disk.base.fd

lemma Frame.refl (s : DiskState Id) : Frame s s :=
  ⟨SameDisk.refl _, fun _ h => h, fun _ _ _ => rfl, fun _ => rfl⟩

variable {s s' : DiskState Id}

lemma Frame.trans {s'' : DiskState Id} (h : Frame s s') (h' : Frame s' s'') : Frame s s'' where
  toSameDisk := h.toSameDisk.trans h'.toSameDisk
  unread c hc := h.unread c (h'.unread c hc)
  others fd hb ho := by
    rw [h'.others fd (by rwa [h.base]) (by rwa [h.overlay]), h.others fd hb ho]
  baseFile hcas := by
    have := h'.baseFile (by rw [h.index]; exact hcas)
    rw [h.base] at this
    rw [this, h.baseFile hcas]

lemma Frame.of_eq (hdisk : s'.disk = s.disk) (hfiles : s'.host.files = s.host.files) : Frame s s' :=
  ⟨hdisk ▸ SameDisk.refl _, fun _ h => hdisk ▸ h, fun _ _ _ => by rw [hfiles],
    fun _ => by rw [hfiles]⟩

structure Footprint (s s' : DiskState Id) : Prop where
  base : s'.disk.base = s.disk.base
  overlay : s'.disk.overlay = s.disk.overlay
  chunkSize : s'.disk.chunkSize = s.disk.chunkSize
  isCas : s'.disk.index.isCas = s.disk.index.isCas
  others : ∀ fd, fd ≠ s.disk.base.fd → (∀ o, s.disk.overlay = some o → fd ≠ o.fd) →
    s'.host.files fd = s.host.files fd
  baseFile : s.disk.index.isCas = false →
    s'.host.files s.disk.base.fd = s.host.files s.disk.base.fd

lemma Footprint.trans {s'' : DiskState Id} (h : Footprint s s') (h' : Footprint s' s'') :
    Footprint s s'' where
  base := h'.base.trans h.base
  overlay := h'.overlay.trans h.overlay
  chunkSize := h'.chunkSize.trans h.chunkSize
  isCas := h'.isCas.trans h.isCas
  others fd hb ho := by
    rw [h'.others fd (by rwa [h.base]) (by rwa [h.overlay]), h.others fd hb ho]
  baseFile hcas := by
    have := h'.baseFile (by rw [h.isCas]; exact hcas)
    rw [h.base] at this
    rw [this, h.baseFile hcas]

lemma Frame.footprint (h : Frame s s') : Footprint s s' :=
  ⟨h.base, h.overlay, h.chunkSize, by rw [h.index], h.others, h.baseFile⟩

section SetSource

variable {d : ChunkMappedDisk Id} {files files' : ℕ → SparseFile} {A A' : SparseFile}
  {G : Contents} {c : ℕ}

variable (hcs : d'.chunkSize = d.chunkSize)
  (hext : chunkExtent d'.chunkSize d'.size c' = chunkExtent d.chunkSize d.size c')

include hcs hext

lemma holds_congr {i : ℕ} : d'.Holds c' i ↔ d.Holds c' i := by
  rw [ChunkMappedDisk.Holds, ChunkMappedDisk.Holds, Lib.inChunk_iff, Lib.inChunk_iff, hext, hcs]

lemma chunkOf_congr (hA : ∀ i, d.Holds c' i → A'.byte i = A.byte i) :
    d'.chunkOf A' c' = d.chunkOf A c' := by
  rw [ChunkMappedDisk.chunkOf, chunkSlice, hext, hcs]
  exact Lib.chunkSlice_eq_iff.mpr hA

lemma chunkShows_congr (hbase : d'.base = d.base) (hover : d'.overlay = d.overlay)
    (hid : d'.baselineId c' = d.baselineId c') (hsource : d'.source c' = d.source c')
    (hb : ∀ i, d.Holds c' i → (files' d.base.fd).byte i = (files d.base.fd).byte i)
    (ho : ∀ o, d.overlay = some o → ∀ i, d.Holds c' i → (files' o.fd).byte i = (files o.fd).byte i)
    (hA : ∀ i, d.Holds c' i → A'.byte i = A.byte i) (h : ChunkShows hash d files A c') :
    ChunkShows hash d' files' A' c' := by
  have hholds := fun i => holds_congr (i := i) hcs hext
  have hchunk := chunkOf_congr hcs hext hA
  unfold ChunkShows at h ⊢
  rw [hsource, hbase, hover, hid, hchunk]
  cases hs : d.source c' with
  | base =>
    rw [hs] at h
    intro i hi
    have hi := (hholds i).mp hi
    rw [hb i hi, hA i hi, h i hi]
  | overlay | overlayClean =>
    rw [hs] at h
    obtain ⟨o, heq, h⟩ := h
    refine ⟨o, heq, fun i hi => ?_⟩
    have hi := (hholds i).mp hi
    rw [ho o heq i hi, hA i hi, h i hi]
  | zero | zeroDirty =>
    rw [hs] at h
    intro i hi
    have hi := (hholds i).mp hi
    rw [hA i hi, h i hi]
  | cas =>
    rw [hs] at h
    exact h

lemma entryDescribes_congr (hid : d'.baselineId c' = d.baselineId c')
    (hA : ∀ i, d.Holds c' i → A'.byte i = A.byte i)
    (h : EntryDescribes hash d A c') : EntryDescribes hash d' A' c' := by
  have hchunk := chunkOf_congr hcs hext hA
  unfold EntryDescribes at h ⊢
  rw [hid, hchunk]
  cases hs : d.baselineId c' with
  | none =>
    rw [hs] at h
    intro i hi
    have hi := (holds_congr hcs hext).mp hi
    rw [hA i hi, h i hi]
  | some id =>
    rw [hs] at h
    exact h

omit hcs hext

variable {hash : List UInt8 → Id}

/-- **Chunk update.** The invariant survives any change confined to one chunk, of its source, of the
files and of the array, if the changed chunk is right afterwards. -/
theorem Inv.setSource (h : Inv hash d files G) (source : Source)
    (hbase : ∀ i, ¬ d.Holds c i → (files' d.base.fd).byte i = (files d.base.fd).byte i)
    (hover : ∀ o, d.overlay = some o → (files' o.fd).size ≤ d.size ∧ ∀ i, ¬ d.Holds c i →
      (files' o.fd).byte i = (files o.fd).byte i)
    (hsize : A'.size = G.now.size) (hA : ∀ i, ¬ d.Holds c i → A'.byte i = G.now.byte i)
    (hchunk : ChunkOk hash (d.setSource c source) files' { G with now := A' } c) :
    Inv hash (d.setSource c source) files' { G with now := A' }  where
  size_eq := hsize.trans h.size_eq
  clean_size := h.clean_size
  based_size := h.based_size
  settled := h.settled
  overlay_ne_base := h.overlay_ne_base
  overlay_size o ho := (hover o ho).1
  sorted := h.sorted
  baseline_le := h.baseline_le
  chunk c' hc' := by
    by_cases hne : c' = c
    · subst hne
      exact hchunk
    have hout : ∀ i, d.Holds c' i → ¬ d.Holds c i := fun i hi hi' => hne (hi.unique hi')
    have hc' : c' < d.chunkCount := by simpa using hc'
    have hsource := ChunkMappedDisk.setSource_source_ne (d := d) hne source
    have hold := h.chunk c' hc'
    refine ⟨?_, ?_, ?_, ?_, ?_⟩
    · exact chunkShows_congr hash (d := d) rfl rfl rfl rfl rfl hsource
        (fun i hi => hbase i (hout i hi)) (fun o ho i hi => (hover o ho).2 i (hout i hi))
        (fun i hi => hA i (hout i hi)) hold.shows
    · intro hclean hreuse hlt
      rw [hsource] at hclean
      exact entryDescribes_congr hash (d := d) rfl rfl rfl (fun i hi => hA i (hout i hi))
        (hold.agrees hclean hreuse hlt)
    · intro hclean i hi
      rw [hsource] at hclean
      exact (hA i (hout i hi)).trans (hold.clean hclean i hi)
    · intro hbased i hi
      rw [hsource] at hbased
      exact (hA i (hout i hi)).trans (hold.based hbased i hi)
    · intro hcas
      rw [hsource] at hcas
      exact hold.unread hcas

lemma ChunkOk.of_dirty (hdirty : sourceIsDirty (d.source c) = true)
    (hshow : ChunkShows hash d files G.now c) : ChunkOk hash d files G c := by
  refine ⟨hshow, fun hsource => ?_, fun hclean => ?_, fun hbased => ?_, fun hcas => ?_⟩
  · rcases hsource with h | h | h <;> rw [h] at hdirty <;> cases hdirty
  · rw [hdirty] at hclean
    cases hclean
  · rcases hbased with h | h <;> rw [h] at hdirty <;> cases hdirty
  · rw [hcas] at hdirty
    cases hdirty

/-- **Known zero chunks.** What the disk treats as zero without reading it is zero. -/
theorem Inv.knownZero (h : Inv hash d files G) (hzero : d.chunkKnownZero c = true) :
    ∀ i, d.Holds c i → G.now.byte i = 0 := by
  unfold ChunkMappedDisk.chunkKnownZero at hzero
  split at hzero
  · cases hzero
  next hge =>
  have hc : c < d.chunkCount := by omega
  have hshow := (h.chunk c hc).shows
  unfold ChunkShows at hshow
  cases hs : d.source c with
  | base | overlayClean =>
    simp only [hs, Bool.and_eq_true, decide_eq_true_eq, Option.isNone_iff_eq_none] at hzero
    obtain ⟨⟨hreuse, hlt⟩, hnone⟩ := hzero
    have hentry := (h.chunk c hc).agrees (by simp [hs]) hreuse hlt
    simpa only [EntryDescribes, hnone] using hentry
  | overlay | cas => simp [hs] at hzero
  | zero | zeroDirty => simpa only [hs] using hshow

end SetSource

end SporeVM
