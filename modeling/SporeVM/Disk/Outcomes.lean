import SporeVM.Lib.Triple
import SporeVM.Disk.Runs

/-!
# Failed operations

An operation that fails half-way leaves a disk that still stands for some byte array, with the same
latest snapshot and the same fork authority, and it has written to no file but the disk's own. Only
the current contents may have changed.

`Kept` is that statement about a state; every command of an operation keeps it, whatever its
outcome, because the overlay is written only at chunks that are not classified as clean.
-/

namespace SporeVM

open Lib
open Lib.EState (Triple Keeps bind_ok pure_ok Stays)
open ChunkMappedDisk (setSource_self setSource_source_self chunkLen_ok checkRange_ok)
open Function

variable {Id : Type} {hash : List UInt8 → Id}

-- ══ Files of a disk

def ChunkMappedDisk.Writes (d : ChunkMappedDisk Id) (fd : ℕ) : Prop :=
  (∃ o, d.overlay = some o ∧ o.fd = fd) ∨ (d.base.fd = fd ∧ d.index.isCas = true)

def ChunkMappedDisk.Reads (d : ChunkMappedDisk Id) (fd : ℕ) : Prop :=
  (∃ o, d.overlay = some o ∧ o.fd = fd) ∨ d.base.fd = fd

variable {fd : ℕ}

lemma ChunkMappedDisk.Writes.reads {d : ChunkMappedDisk Id} (h : d.Writes fd) : d.Reads fd :=
  h.imp id And.left

lemma Footprint.refl (s : DiskState Id) : Footprint s s := (Frame.refl s).footprint

variable {s' s : DiskState Id}

lemma Footprint.file (h : Footprint s s') (hfd : ¬ s.disk.Writes fd) :
    s'.host.files fd = s.host.files fd := by
  have hover : ∀ o, s.disk.overlay = some o → fd ≠ o.fd :=
    fun o ho heq => hfd (.inl ⟨o, ho, heq.symm⟩)
  by_cases hbase : fd = s.disk.base.fd
  · subst hbase
    refine h.baseFile ?_
    rw [← Bool.not_eq_true]
    exact fun hcas => hfd (.inr ⟨rfl, hcas⟩)
  · exact h.others fd hbase hover

lemma Footprint.writes (h : Footprint s s') (fd : ℕ) : s'.disk.Writes fd ↔ s.disk.Writes fd := by
  simp only [ChunkMappedDisk.Writes, h.overlay, h.base, h.isCas]

lemma Footprint.reads (h : Footprint s s') (fd : ℕ) : s'.disk.Reads fd ↔ s.disk.Reads fd := by
  simp only [ChunkMappedDisk.Reads, h.overlay, h.base]

variable {t : DiskState Id}

lemma Footprint.update (h : Footprint s s')
    (hne : ∀ o, s.disk.overlay = some o → o.fd ≠ s.disk.base.fd) (hfd : s.disk.Writes fd)
    (hdisk : t.disk = s'.disk) {f : SparseFile}
    (hfiles : t.host.files = update s'.host.files fd f) : Footprint s t := by
  refine ⟨hdisk ▸ h.base, hdisk ▸ h.overlay, hdisk ▸ h.chunkSize, hdisk ▸ h.isCas, ?_, ?_⟩
  · intro fd' hb ho
    have hneq : fd' ≠ fd := by
      rintro rfl
      rcases hfd with ⟨o, ho', heq⟩ | ⟨heq, -⟩
      · exact ho o ho' heq.symm
      · exact hb heq.symm
    rw [hfiles, update_of_ne hneq]
    exact h.others fd' hb ho
  · intro hcas
    have hneq : s.disk.base.fd ≠ fd := by
      rintro rfl
      rcases hfd with ⟨o, ho', heq⟩ | ⟨-, hcas'⟩
      · exact hne o ho' heq
      · rw [hcas] at hcas'
        cases hcas'
    rw [hfiles, update_of_ne hneq]
    exact h.baseFile hcas

-- ══ Single changes

variable {data : List UInt8}

section Changes

variable {d : ChunkMappedDisk Id} {files : ℕ → SparseFile} {G : Contents} {o : Overlay} {c : ℕ}
  {absolute : ℕ} (h : Inv hash d files G)

include h

variable (hc : c < d.chunkCount)

include hc

lemma Inv.overlay_rewrite
    (ho : d.overlay = some o) (hin : ∀ i, absolute ≤ i → i < absolute + data.length → d.Holds c i)
    (hsame : d.source c = .overlay ∨ d.source c = .overlayClean → ∀ i, d.Holds c i →
      ((files o.fd).pwrite absolute data).byte i = (files o.fd).byte i) :
    Inv hash d (update files o.fd ((files o.fd).pwrite absolute data)) G := by
  obtain ⟨hbase, hover⟩ := overlay_pwrite h ho hin
  have hold := h.chunk c hc
  suffices hset : Inv hash (d.setSource c (d.source c))
      (update files o.fd ((files o.fd).pwrite absolute data)) { G with now := G.now } by
    rwa [setSource_self] at hset
  refine h.setSource (d.source c) hbase hover rfl (fun _ _ => rfl) ?_
  rw [setSource_self]
  refine ⟨?_, hold.agrees, hold.clean, hold.based, hold.unread⟩
  have hshow := hold.shows
  unfold ChunkShows at hshow ⊢
  cases hs : d.source c with
  | base =>
    rw [hs] at hshow
    intro i hi
    rw [update_of_ne (Ne.symm (h.overlay_ne_base o ho))]
    exact hshow i hi
  | overlay | overlayClean =>
    rw [hs] at hshow
    obtain ⟨o', ho', hshow⟩ := hshow
    cases ho.symm.trans ho'
    refine ⟨o, ho, fun i hi => ?_⟩
    rw [update_self, hsame (by simp [hs]) i hi]
    exact hshow i hi
  | zero | zeroDirty | cas =>
    rw [hs] at hshow
    exact hshow

/-- **Overlay writes.** After a write into the overlay inside one chunk the disk stands for some
array, unless the chunk is a clean overlay chunk and its bytes have changed. -/
theorem Inv.overlay_write
    (ho : d.overlay = some o) (hin : ∀ i, absolute ≤ i → i < absolute + data.length → d.Holds c i)
    (hclean : d.source c = .overlayClean → ∀ i, d.Holds c i →
      ((files o.fd).pwrite absolute data).byte i = (files o.fd).byte i) :
    ∃ now, Inv hash d (update files o.fd ((files o.fd).pwrite absolute data))
      { G with now := now } := by
  by_cases hsource : d.source c = .overlay
  · -- The chunk is dirty: the array takes the written bytes.
    refine ⟨G.now.pwrite absolute data, ?_⟩
    have hshow := (h.chunk c hc).shows
    simp only [ChunkShows, hsource] at hshow
    obtain ⟨o', ho', hshow⟩ := hshow
    cases ho.symm.trans ho'
    have := h.write hc ho hin fun i hi _ => hshow i hi
    rwa [← hsource, setSource_self] at this
  · exact ⟨G.now, h.overlay_rewrite hc ho hin fun hs => hclean (hs.resolve_left hsource)⟩

lemma Inv.adopt (ho : d.overlay = some o) :
    ∃ now, Inv hash (d.setSource c .overlay) files { G with now := now } := by
  have hlen : (d.chunkOf (files o.fd) c).length = chunkExtent d.chunkSize d.size c :=
    length_chunkSlice
  have hsource := setSource_source_self hc .overlay
  refine ⟨G.now.pwrite (c * d.chunkSize) (d.chunkOf (files o.fd) c),
    h.setSource .overlay (fun _ _ => rfl) (fun o' ho' => ⟨h.overlay_size o' ho', fun _ _ => rfl⟩)
      ?_ (fun i hi => pwrite_chunk_out hlen hi) (ChunkOk.of_dirty (by rw [hsource]; rfl) ?_)⟩
  · refine SparseFile.pwrite_size_of_le _ _ _ ?_
    rw [hlen, h.size_eq, chunkExtent]
    have := ChunkMappedDisk.lt_chunkCount.mp hc
    omega
  · simp only [ChunkShows, hsource]
    exact ⟨o, ho, fun i hi => (pwrite_chunk_in rfl hi).symm⟩

lemma Inv.discard :
    ∃ now, Inv hash (d.setSource c .zeroDirty) files { G with now := now } := by
  have hsource := setSource_source_self hc .zeroDirty
  refine ⟨G.now.zeroed (c * d.chunkSize) (chunkExtent d.chunkSize d.size c),
    h.setSource .zeroDirty (fun _ _ => rfl) (fun o' ho' => ⟨h.overlay_size o' ho', fun _ _ => rfl⟩)
    rfl ?_ (ChunkOk.of_dirty (by rw [hsource]; rfl) ?_)⟩
  · intro i hi
    refine SparseFile.zeroed_byte_out _ _ _ _ ?_
    rw [ChunkMappedDisk.Holds, inChunk_iff] at hi
    omega
  · simp only [ChunkShows, hsource]
    intro i hi
    have hrange := inChunk_iff.mp hi
    exact SparseFile.zeroed_byte_in _ _ _ _ hrange.1 hrange.2

lemma Inv.base_write (hsource : d.source c = .cas)
    (hin : ∀ i, absolute ≤ i → i < absolute + data.length → d.Holds c i) :
    Inv hash d (update files d.base.fd ((files d.base.fd).pwrite absolute data)) G := by
  have hold := h.chunk c hc
  suffices hset : Inv hash (d.setSource c (d.source c))
      (update files d.base.fd ((files d.base.fd).pwrite absolute data))
      { G with now := G.now } by
    rwa [setSource_self] at hset
  refine h.setSource (d.source c) ?_ ?_ rfl (fun _ _ => rfl) ?_
  · intro i hi
    rw [update_self]
    refine SparseFile.pwrite_byte_out _ _ _ _ ?_
    by_contra hcon
    exact hi (hin i (by omega) (by omega))
  · intro o' ho'
    rw [update_of_ne (h.overlay_ne_base o' ho')]
    exact ⟨h.overlay_size o' ho', fun _ _ => rfl⟩
  · rw [setSource_self]
    refine ⟨?_, hold.agrees, hold.clean, hold.based, hold.unread⟩
    have hshow := hold.shows
    simp only [ChunkShows, hsource] at hshow ⊢
    exact hshow

omit hc

lemma Inv.poisoned (b : Bool) :
    Inv hash { d with poisoned := b } files G where
  size_eq := h.size_eq
  clean_size := h.clean_size
  based_size := h.based_size
  settled := h.settled
  overlay_ne_base := h.overlay_ne_base
  overlay_size := h.overlay_size
  sorted := h.sorted
  baseline_le := h.baseline_le
  chunk c hc :=
    ⟨(h.chunk c hc).shows, (h.chunk c hc).agrees, (h.chunk c hc).clean, (h.chunk c hc).based,
      (h.chunk c hc).unread⟩

end Changes

-- ══ Commands that change no contents

structure Closed (P : DiskState Id → Prop) : Prop where
  quiet : ∀ {t t' : DiskState Id}, P t → Quiet t t' → P t'
  poison : ∀ {t : DiskState Id}, P t → P { t with disk := { t.disk with poisoned := true } }

variable {offset : ℕ}

section Commands

variable {P : DiskState Id → Prop} (hP : Closed P)

lemma getDisk_keeps : Keeps P getDisk fun d => ∃ t, P t ∧ t.disk = d :=
  Keeps.get.bind fun t h => .pure ⟨t, h, rfl⟩

include hP

lemma modifyHost_keeps {f : Host Id → Host Id} (h : ∀ host, (f host).files = host.files) :
    Stays P (modify fun t => { t with host := f t.host } : DiskM Id Unit) :=
  Keeps.modify fun t ht => hP.quiet ht ⟨rfl, h t.host⟩

lemma nextFault_keeps : Stays P nextFault :=
  Keeps.get.bind fun _ _ =>
    (modifyHost_keeps hP (f := fun host => { host with faults := host.faults.tail })
      fun _ => rfl).bind fun _ _ => Stays.pure

variable {len : ℕ}

lemma readExact_keeps : Keeps P (readExact fd len offset) fun data => data.length = len := by
  unfold readExact
  split
  · next hlen => exact .pure hlen.symm
  · exact .guard <| (nextFault_keeps hP).bind fun _ _ =>
      (Keeps.get.bind fun _ _ => Stays.pure : Stays P (getFile fd)).bind
        fun _ _ => .guard <| .guard <|
          Keeps.pure (length_slice _ _ _)

lemma readAt_source_keeps {source : FileBlockSource} :
    Keeps P (source.readAt len offset) fun data => data.length = len :=
  Keeps.guard <| .guard <| readExact_keeps hP

lemma syncDir_keeps : Stays P syncDir :=
  (nextFault_keeps hP).bind fun _ _ => Keeps.rejectIf.stays

lemma writeExact_keeps (h : ∀ t t' n, P t → t'.disk = t.disk → t'.host.files =
      update t.host.files fd ((t.host.files fd).pwrite offset (data.take n)) → P t') :
    Stays P (writeExact fd data offset) := by
  unfold writeExact
  split
  · exact .pure
  refine .guard <| (nextFault_keeps hP).bind fun fault _ => ?_
  intro t ht
  cases fault with
  | none =>
    refine ⟨h t _ data.length ht rfl ?_, trivial⟩
    rw [List.take_length]
  | some n => exact h t _ n ht rfl rfl

lemma ftruncate_errors {size : ℕ} : Triple P (ftruncate fd size) (fun _ _ => True) P :=
  Keeps.rejectIf.bind_triple fun _ _ => (nextFault_keeps hP).bind_triple fun _ _ =>
    Keeps.rejectIf.bind_triple fun _ _ => fun _ _ => trivial

variable [DecidableEq Id]

lemma installObject_keeps {root : String} {digest : Id} :
    Stays P (installObject root digest data) :=
  modifyHost_keeps hP (f := fun host => { host with
    objects := update host.objects root
      (update (host.objects root) digest (some data)) }) fun _ => rfl

lemma fetchObject_keeps {digest : Id} :
    Keeps P (fetchObject hash digest len) fun data => data.length = len := by
  refine Keeps.get.bind fun t _ => ?_
  cases hverify : verifyObject hash (t.host.fetcher.get digest) digest len with
  | ok data =>
    exact (installObject_keeps hP).bind fun _ _ => .pure (verifyObject_ok hverify).1
  | error e => exact .bind (Keeps.modify fun _ => hP.poison) fun _ _ => .throw

lemma readCasObject_keeps {digest : Id} : Keeps P (readCasObject hash digest len)
      fun data => data.length = len ∧ ∃ t, P t ∧ t.disk.index.isCas = true := by
  refine Keeps.get.bind fun t ht => ?_
  cases hindex : t.disk.index with
  | none | parent => exact .throw
  | cas casRoot baseline =>
    have hcas : ∃ t, P t ∧ t.disk.index.isCas = true := ⟨t, ht, by rw [hindex]; rfl⟩
    simp only
    cases hverify : verifyObject hash (t.host.objects casRoot digest) digest len with
    | ok data => exact .pure ⟨(verifyObject_ok hverify).1, hcas⟩
    | error e =>
      exact .guard <| .guard <|
        Keeps.guard <| (fetchObject_keeps hP).mono fun _ hlen => ⟨hlen, hcas⟩

lemma writeObjectIfMissing_keeps (root : String) (id : Id) (data : List UInt8) :
    Stays P (writeObjectIfMissing root id data) := by
  refine (nextFault_keeps hP).bind fun _ _ => .guard <| Keeps.get.bind fun t _ => ?_
  cases t.host.objects root id with
  | some existing => exact Keeps.rejectIf.stays
  | none => exact installObject_keeps hP

lemma publishParentObject_keeps (parentRoot dir : String) (id : Id) (size : ℕ) :
    Stays P (publishParentObject hash parentRoot dir id size) := by
  refine Keeps.get.bind fun t _ => ?_
  cases t.host.objects parentRoot id with
  | none => exact .throw
  | some source =>
    refine .guard <| (nextFault_keeps hP).bind fun fault _ => ?_
    cases fault with
    | none =>
      cases t.host.objects dir id with
      | none => exact (installObject_keeps hP).bind fun _ _ => Stays.pure
      | some existing => exact Keeps.guard <| Stays.pure
    | some n =>
      exact Stays.check.bind fun _ _ =>
        (writeObjectIfMissing_keeps hP _ _ _).bind fun _ _ => Stays.pure

lemma fetchFromStore_keeps : Stays P (fetchFromStore hash) := by
  have hall : ∀ objects, Stays P (fetchAll hash objects) := by
    intro objects
    induction objects with
    | nil => exact .pure
    | cons object objects ih =>
      obtain ⟨digest, len⟩ := object
      refine Keeps.get.bind fun t _ => ?_
      dsimp only
      split
      · exact ih
      cases verifyObject hash (t.host.fetcher.get digest) digest len with
      | ok data => exact (installObject_keeps hP).bind fun _ _ => ih
      | error e => exact .throw
  exact Keeps.get.bind fun _ _ => Keeps.runIf fun _ => hall _

lemma writeIndexDurable_keeps (dir : String) (digest : Id) (index : DiskIndex Id) :
    Stays P (writeIndexDurable dir digest index) := by
  refine (nextFault_keeps hP).bind fun _ _ => .guard <| Keeps.get.bind fun t _ => ?_
  cases t.host.indexes dir digest with
  | some existing => exact Keeps.rejectIf.stays
  | none =>
    exact modifyHost_keeps hP (f := fun host => { host with
      indexes := update host.indexes dir
        (update (host.indexes dir) digest (some index)) }) fun _ => rfl

end Commands

-- ══ Reads

namespace Reads

variable [DecidableEq Id] {P : DiskState Id → Prop} (hP : Closed P)
  (hfault : ∀ c, Stays P (faultCasChunk hash c))

omit [DecidableEq Id] in
lemma forSpans {α : Type} {offset len : ℕ} {body : ℕ → ℕ → Span → α → DiskM Id α}
    (hbody : ∀ cursor absolute span a, Stays P (body cursor absolute span a)) :
    ∀ fuel cursor a, Stays P (SporeVM.forSpans offset len body fuel cursor a) := by
  intro fuel
  induction fuel with
  | zero => exact fun _ _ => .pure
  | succ fuel ih =>
    intro cursor a
    unfold SporeVM.forSpans
    split
    · exact getDisk_keeps.bind fun _ _ => Stays.check.bind fun _ _ =>
        (hbody _ _ _ _).bind fun _ _ => ih _ _
    · exact .pure

include hfault

lemma prefaultCasRange (len offset : ℕ) : Stays P (SporeVM.prefaultCasRange hash len offset) :=
  getDisk_keeps.bind fun _ _ => Stays.check.bind fun _ _ =>
    forSpans (fun _ _ _ _ => getDisk_keeps.bind fun _ _ => .runIf fun _ => hfault _) _ _ _

include hP

lemma readAt (len offset : ℕ) : Stays P (SporeVM.readAt hash len offset) := by
  refine (prefaultCasRange hfault _ _).bind fun _ _ => forSpans (fun _ _ span _ =>
    Keeps.bind (Q := fun _ => True) (getDisk_keeps.bind fun d _ => ?_) fun _ _ =>
      Stays.pure) _ _ _
  have hbase : ∀ n off, Stays P (d.base.readAt n off) := fun _ _ => (readAt_source_keeps hP).stays
  cases d.source span.chunkIndex with
  | base => exact hbase _ _
  | overlay | overlayClean =>
    refine .bind (Q := fun _ => True) (getDisk_keeps.bind fun d _ => ?_) fun _ _ =>
      (readExact_keeps hP).stays
    cases d.overlay with
    | none => exact .throw
    | some o => exact Stays.pure
  | zero | zeroDirty => exact Stays.pure
  | cas => exact (hfault _).bind fun _ _ => hbase _ _

end Reads

-- ══ Zeroing

namespace Zeroes

variable [DecidableEq Id] {P : DiskState Id → Prop}
  (hread : ∀ c len, Stays P (readChunk hash c len))
  (hmark : ∀ c, Stays P (markZeroChunk c))
  (hwrite : ∀ buf offset, Stays P (writeAt hash buf offset))

include hread in
lemma prepareBoundary (offset stop c : ℕ) :
    Stays P (SporeVM.prepareBoundary hash offset stop c) := by
  refine .guard <| getDisk_keeps.bind fun d _ => .guard <|
    Stays.check.bind fun len _ => .guard <| ?_
  dsimp only
  split
  · exact Stays.pure
  split
  · exact Stays.pure
  · exact (hread _ _).bind fun _ _ => Stays.pure

include hmark hwrite

lemma zeroStep (boundaries : List PreparedBoundary) (stop cursor : ℕ) :
    Stays P (SporeVM.zeroStep hash boundaries stop cursor) := by
  refine getDisk_keeps.bind fun d _ => .guard <| .guard <|
    Stays.check.bind fun len _ => .guard <| ?_
  have hmarked : ∀ c next, Stays P (do
      markZeroChunk c
      pure next : DiskM Id ℕ) :=
    fun c _ => (hmark c).bind fun _ _ => Stays.pure
  dsimp only
  split
  · exact hmarked _ _
  split
  · exact Stays.pure
  split
  · exact .throw
  split
  · exact hmarked _ _
  · exact (hwrite _ _).bind fun _ _ => Stays.pure

include hread

lemma zeroRange (offset len : ℕ) : Stays P (SporeVM.zeroRange hash offset len) := by
  have hloop : ∀ boundaries stop fuel cursor,
      Stays P (zeroLoop hash boundaries stop fuel cursor) := by
    intro boundaries stop fuel
    induction fuel with
    | zero => exact fun _ => .pure
    | succ fuel ih =>
      intro cursor
      unfold zeroLoop
      split
      · exact (zeroStep hmark hwrite _ _ _).bind fun _ _ => ih _
      · exact .pure
  refine getDisk_keeps.bind fun d _ => .guard <| .guard <| Keeps.guard <| ?_
  split
  · exact Stays.pure
  refine (prepareBoundary hread _ _ _).bind fun first _ => .bind (Q := fun _ => True) ?_
    fun last _ => hloop _ _ _ _
  split
  · exact Stays.pure
  · exact prepareBoundary hread _ _ _

end Zeroes

-- ══ Snapshots

section Snapshots

variable [DecidableEq Id] {P : DiskState Id → Prop} (hP : Closed P)

include hP

lemma reuseParentEntry_keeps (dir : String) (c : ℕ) (parentId : Option Id) (v : SnapshotLoop Id) :
    Stays P (reuseParentEntry hash dir c parentId v) := by
  refine getDisk_keeps.bind fun d _ => ?_
  cases parentId with
  | none => exact Stays.pure
  | some id =>
    cases d.currentBaseline with
    | none => exact .throw
    | some parent =>
      refine Stays.check.bind fun len _ => Keeps.bind (Q := fun _ => True) ?_ fun _ _ => Stays.pure
      unfold publishReused
      split
      · exact Stays.pure
      · exact (publishParentObject_keeps hP _ _ _ _).bind fun _ _ => Stays.pure

variable (hread : ∀ c len, Stays P (readChunk hash c len))

include hread

lemma sealSnapshotChunk_keeps (dir : String) (c : ℕ) : Stays P (sealSnapshotChunk hash dir c) := by
  refine getDisk_keeps.bind fun d _ => Stays.check.bind fun len _ =>
    (hread _ _).bind fun data _ => ?_
  cases sealBytes hash data with
  | zero => exact Stays.pure
  | data id => exact (writeObjectIfMissing_keeps hP _ _ _).bind fun _ _ => Stays.pure

lemma sealCandidate_keeps (dir : String) (c : ℕ) (v : SnapshotLoop Id) :
    Stays P (sealCandidate hash dir c v) := by
  unfold sealCandidate
  dsimp only
  split
  · exact .throw
  · exact Keeps.guard <| Stays.pure
  · exact (sealSnapshotChunk_keeps hP hread _ _).bind fun _ _ => Stays.pure

lemma snapshotStep_keeps (dir : String) (useParentIndex : Bool)
    (digests : List (DiskIndexChunk Id)) (parentChunkCount : ℕ) (v : SnapshotLoop Id) (c : ℕ) :
    Stays P (snapshotStep hash dir useParentIndex digests parentChunkCount v c) := by
  refine getDisk_keeps.bind fun d _ => ?_
  split
  · exact Stays.pure
  split
  · exact Stays.pure
  split
  · exact reuseParentEntry_keeps hP _ _ _ _
  · exact sealCandidate_keeps hP hread _ _ _

lemma buildDraft_keeps (dir : String) : Stays P (buildDraft hash dir) := by
  have hbatch : Stays P (startBatch hash dir) := by
    refine getDisk_keeps.bind fun d _ => ?_
    split
    · exact (Keeps.mapError (Keeps.runAll (fun c => (sealSnapshotChunk_keeps hP hread dir c).bind
        fun _ _ => Stays.pure) _)).bind fun _ _ => Stays.pure
    · exact Stays.pure
  refine getDisk_keeps.bind fun d _ => hbatch.bind fun batch _ =>
    (Keeps.foldlM (fun v c => snapshotStep_keeps hP hread _ _ _ _ v c) _ _).bind fun v _ =>
      Keeps.guard <| (Keeps.runIf fun _ => syncDir_keeps hP).bind
        fun _ _ => (Keeps.runIf fun _ => syncDir_keeps hP).bind fun _ _ => Stays.pure

lemma snapshotDraft_keeps (dir : String) : Stays P (snapshotDraft hash dir) :=
  (fetchFromStore_keeps hP).bind fun _ _ => (syncDir_keeps hP).bind fun _ _ =>
    buildDraft_keeps hP hread dir

lemma snapshotIndexWithStats_errors {stringify : DiskIndex Id → List UInt8} (dir : String)
    (device : RootfsDevice) (quiesced : Bool) :
    Triple P (snapshotIndexWithStats hash stringify dir device quiesced) (fun _ _ => True) P :=
  Keeps.rejectIf.bind_triple fun _ _ => getDisk_keeps.bind_triple fun _ _ =>
    Keeps.rejectIf.bind_triple fun _ _ => (snapshotDraft_keeps hP hread dir).bind_triple
      fun ⟨_, _⟩ _ => Stays.check.bind_triple fun _ _ =>
        (syncDir_keeps hP).bind_triple fun _ _ =>
          (writeIndexDurable_keeps hP _ _ _).bind_triple fun _ _ =>
            Stays.check.bind_triple fun _ _ _ _ => trivial

end Snapshots

-- ══ The kept property

/-- The state `t` that an operation started in `s` may leave: it stands for some array, with the
snapshots of `G`, and it lies in the footprint of `s`. -/
structure Kept (hash : List UInt8 → Id) (s : DiskState Id) (G : Contents) (t : DiskState Id) :
    Prop where
  sim : ∃ now, Sim hash t { G with now := now }
  foot : Footprint s t
  size : t.disk.size = s.disk.size
  pending : t.disk.pendingSnapshotIdentity = s.disk.pendingSnapshotIdentity
  committed : t.disk.committedSnapshotIdentity = s.disk.committedSnapshotIdentity

structure Still (hash : List UInt8 → Id) (s : DiskState Id) (G : Contents) (t : DiskState Id) :
    Prop where
  kept : Kept hash s G t
  sim : Sim hash t G

def Scratch (hash : List UInt8 → Id) (s : DiskState Id) (G : Contents) (c : ℕ)
    (t : DiskState Id) : Prop :=
  Kept hash s G t ∧ t.disk.source c ≠ .overlayClean

section Kept

variable {s t : DiskState Id} {G : Contents} {c : ℕ} {o : Overlay}

lemma Kept.refl (h : Sim hash s G) : Kept hash s G s :=
  ⟨⟨G.now, h⟩, Footprint.refl s, rfl, rfl, rfl⟩

variable (h : Kept hash s G t)

include h

lemma Kept.chunkSize : t.disk.chunkSize = s.disk.chunkSize :=
  h.foot.chunkSize

lemma Kept.chunkCount : t.disk.chunkCount = s.disk.chunkCount := by
  rw [ChunkMappedDisk.chunkCount, ChunkMappedDisk.chunkCount, t.disk.sources_length,
    s.disk.sources_length, h.size, h.chunkSize]

lemma Kept.holds {i : ℕ} : t.disk.Holds c i ↔ s.disk.Holds c i := by
  rw [ChunkMappedDisk.Holds, ChunkMappedDisk.Holds, h.size, h.chunkSize]

lemma Kept.overlay_ne_base : ∀ o, s.disk.overlay = some o → o.fd ≠ s.disk.base.fd := by
  obtain ⟨now, hsim⟩ := h.sim
  rw [← h.foot.overlay, ← h.foot.base]
  exact hsim.overlay_ne_base

lemma Kept.setSource {source : Source}
    (hsim : ∃ now, Inv hash (t.disk.setSource c source) t.host.files { G with now := now }) :
    Kept hash s G { t with disk := t.disk.setSource c source } :=
  ⟨hsim, ⟨h.foot.base, h.foot.overlay, h.foot.chunkSize, h.foot.isCas, h.foot.others,
    h.foot.baseFile⟩, h.size, h.pending, h.committed⟩

lemma Kept.write (hfd : s.disk.Writes fd) {t' : DiskState Id}
    {f : SparseFile} (hdisk : t'.disk = t.disk)
    (hfiles : t'.host.files = update t.host.files fd f)
    (hsim : ∃ now, Inv hash t.disk (update t.host.files fd f) { G with now := now }) :
    Kept hash s G t' := by
  refine ⟨?_, h.foot.update h.overlay_ne_base hfd hdisk hfiles, by rw [hdisk, h.size],
    by rw [hdisk, h.pending], by rw [hdisk, h.committed]⟩
  unfold Sim
  rw [hdisk, hfiles]
  exact hsim

omit h

lemma Kept.closed : Closed (Kept hash s G) where
  quiet h hquiet := by
    obtain ⟨now, hsim⟩ := h.sim
    exact ⟨⟨now, hsim.quiet hquiet⟩, h.foot.trans hquiet.frame.footprint, by rw [hquiet.1, h.size],
      by rw [hquiet.1, h.pending], by rw [hquiet.1, h.committed]⟩
  poison h := by
    obtain ⟨now, hsim⟩ := h.sim
    exact ⟨⟨now, hsim.poisoned true⟩, ⟨h.foot.base, h.foot.overlay, h.foot.chunkSize, h.foot.isCas,
      h.foot.others, h.foot.baseFile⟩, h.size, h.pending, h.committed⟩

lemma Scratch.closed : Closed (Scratch hash s G c) where
  quiet h hquiet := ⟨Kept.closed.quiet h.1 hquiet, by rw [hquiet.1]; exact h.2⟩
  poison h := ⟨Kept.closed.poison h.1, h.2⟩

/-- **Scribbling.** Any write into the overlay inside a chunk that is not clean is harmless. -/
theorem overlay_write_keeps (ho : s.disk.overlay = some o) (hc : c < s.disk.chunkCount)
    (hin : ∀ i, offset ≤ i → i < offset + data.length → s.disk.Holds c i) :
    Stays (Scratch hash s G c) (writeExact o.fd data offset) := by
  refine writeExact_keeps Scratch.closed fun t t' n ht hdisk hfiles => ?_
  obtain ⟨⟨now, hsim⟩, hfoot, -, -, -⟩ := ht.1
  have hin' : ∀ i, offset ≤ i → i < offset + (data.take n).length → t.disk.Holds c i := by
    intro i hlo hhi
    have hle := List.length_take_le' n data
    exact ht.1.holds.mpr (hin i hlo (by omega))
  have hwrite := hsim.overlay_write (by rw [ht.1.chunkCount]; exact hc) (hfoot.overlay.trans ho)
    hin' fun hclean => absurd hclean ht.2
  exact ⟨ht.1.write (.inl ⟨o, ho, rfl⟩) hdisk hfiles hwrite, by rw [hdisk]; exact ht.2⟩

lemma setSource_overlay_scratch (ho : s.disk.overlay = some o) (hc : c < s.disk.chunkCount)
    (h : Kept hash s G t) : Scratch hash s G c { t with disk := t.disk.setSource c .overlay } := by
  obtain ⟨now, hsim⟩ := h.sim
  have hc : c < t.disk.chunkCount := by rw [h.chunkCount]; exact hc
  refine ⟨h.setSource (hsim.adopt hc (h.foot.overlay.trans ho)), ?_⟩
  simp [setSource_source_self hc]

end Kept

-- ══ Reads and writes

section Operations

variable [DecidableEq Id] {s : DiskState Id} {G : Contents}

omit [DecidableEq Id] in
lemma overlayFd_keeps {e : StorageError} :
    Keeps (Kept hash s G) (overlayFd e) fun fd => ∃ o, s.disk.overlay = some o ∧ o.fd = fd := by
  refine getDisk_keeps.bind fun d hd => ?_
  obtain ⟨t, ht, rfl⟩ := hd
  cases hov : t.disk.overlay with
  | none => exact .throw
  | some o => exact .pure ⟨o, ht.foot.overlay.symm.trans hov, rfl⟩

lemma faultCasChunk_errors {P : DiskState Id → Prop} (hP : Closed P)
    (hkept : ∀ {t}, P t → Kept hash s G t)
    (hwrite : ∀ {t t'}, P t → t'.disk = t.disk → (∀ F, Sim hash t F → Sim hash t' F) →
      Kept hash s G t' → P t') (c : ℕ) : Triple P (faultCasChunk hash c) (fun _ _ => True) P := by
  intro t ht
  by_cases hcas : t.disk.source c = .cas
  case neg =>
    -- Any other chunk is left as it is.
    suffices hskip : Stays (fun t => P t ∧ t.disk.source c ≠ .cas) (faultCasChunk hash c) from
      hskip.errors.weaken (fun _ h => h) (fun _ _ h => h) (fun _ h => h.1) t ⟨ht, hcas⟩
    refine getDisk_keeps.bind fun d hd => .guard <| .runIf fun hrun => ?_
    obtain ⟨t, ht, rfl⟩ := hd
    exact absurd hrun ht.2
  have hclosed : Closed fun t => P t ∧ t.disk.source c = .cas :=
    ⟨fun h hquiet => ⟨hP.quiet h.1 hquiet, by rw [hquiet.1]; exact h.2⟩,
      fun h => ⟨hP.poison h.1, h.2⟩⟩
  suffices hfault : Triple (fun t => P t ∧ t.disk.source c = .cas) (faultCasChunk hash c)
      (fun _ _ => True) fun t => P t ∧ t.disk.source c = .cas from
    hfault.weaken (fun _ h => h) (fun _ _ h => h) (fun _ h => h.1) t ⟨ht, hcas⟩
  refine getDisk_keeps.bind_triple fun d hd => Keeps.rejectIf.bind_triple fun _ hc => ?_
  obtain ⟨t₀, ht₀, rfl⟩ := hd
  have hk₀ := hkept ht₀.1
  rw [EState.runIf, if_pos ht₀.2]
  cases t₀.disk.baselineId c with
  | none => exact Keeps.throw.errors (Q := fun _ => True)
  | some id =>
    refine (Keeps.check (Q := fun len => len = chunkExtent s.disk.chunkSize s.disk.size c)
      fun len hlen => ?_).bind_triple fun len hlen =>
        (readCasObject_keeps hclosed).bind_triple fun data hdata =>
          Keeps.rejectIf.bind_triple fun _ _ => .bind
            (Keeps.errors (Q := fun _ => True) ?_) fun _ _ _ => trivial
    · rw [← hk₀.size, ← hk₀.chunkSize]
      exact (chunkLen_ok hlen).2
    obtain ⟨hlength, t₁, ht₁, hindex⟩ := hdata
    have hcount : c < s.disk.chunkCount := by
      rw [← hk₀.chunkCount]
      omega
    have hwrites : s.disk.Writes t₀.disk.base.fd :=
      .inr ⟨by rw [hk₀.foot.base], by rw [← (hkept ht₁.1).foot.isCas, hindex]⟩
    refine writeExact_keeps hclosed fun t t' n ht hdisk hfiles => ?_
    have hk := hkept ht.1
    obtain ⟨now, hsim⟩ := hk.sim
    have hbase : t₀.disk.base = t.disk.base := by rw [hk₀.foot.base, hk.foot.base]
    rw [hbase, hk₀.chunkSize] at hfiles
    have hin : ∀ i, c * s.disk.chunkSize ≤ i →
        i < c * s.disk.chunkSize + (data.take n).length → t.disk.Holds c i := by
      intro i hlo hhi
      have hle := List.length_take_le' n data
      exact hk.holds.mpr (inChunk_iff.mpr ⟨hlo, by omega⟩)
    have hsame : ∀ F, Sim hash t F → Inv hash t.disk (update t.host.files
        t.disk.base.fd ((t.host.files t.disk.base.fd).pwrite (c * s.disk.chunkSize)
          (data.take n))) F :=
      fun F hF => hF.base_write (by rw [hk.chunkCount]; exact hcount) ht.2 hin
    refine ⟨hwrite ht.1 hdisk (fun F hF => ?_)
      (hk.write (hbase ▸ hwrites) hdisk hfiles ⟨now, hsame _ hsim⟩), by rw [hdisk]; exact ht.2⟩
    unfold Sim
    rw [hdisk, hfiles]
    exact hsame F hF

variable (hinj : Injective hash)

include hinj

lemma faultCasChunk_kept {t' : DiskState Id} {c : ℕ} {u : Unit} (ht : Kept hash s G t)
    (hrun : faultCasChunk hash c t = .ok u t') : Kept hash s G t' := by
  obtain ⟨now, hsim⟩ := ht.sim
  obtain ⟨-, hsim', hframe, -, -⟩ := faultCasChunk_ok hinj hsim hrun
  have hsize : t'.disk.size = t.disk.size := by rw [← hsim'.size_eq, hsim.size_eq]
  exact ⟨⟨now, hsim'⟩, ht.foot.trans hframe.footprint, hsize.trans ht.size,
    hframe.pending.trans ht.pending, hframe.committed.trans ht.committed⟩

lemma faultCasChunk_keeps (c : ℕ) : Stays (Kept hash s G) (faultCasChunk hash c) :=
  Triple.of_ok (fun _ _ _ ht hrun => ⟨faultCasChunk_kept hinj ht hrun, trivial⟩)
    (faultCasChunk_errors Kept.closed (fun h => h) (fun _ _ _ h => h) c)

omit hinj [DecidableEq Id] in
lemma Still.closed : Closed (Still hash s G) where
  quiet h hquiet := ⟨Kept.closed.quiet h.kept hquiet, h.sim.quiet hquiet⟩
  poison h := ⟨Kept.closed.poison h.kept, h.sim.poisoned true⟩

lemma faultCasChunk_still (c : ℕ) : Stays (Still hash s G) (faultCasChunk hash c) :=
  Triple.of_ok (fun _ _ _ ht hrun => ⟨⟨faultCasChunk_kept hinj ht.kept hrun,
      (faultCasChunk_ok hinj ht.sim hrun).2.1⟩, trivial⟩)
    (faultCasChunk_errors Still.closed Still.kept (fun h _ hsim hk => ⟨hk, hsim _ h.sim⟩) c)

lemma faultCasChunk_scratch (c : ℕ) : Stays (Scratch hash s G c) (faultCasChunk hash c) := by
  refine .of_ok ?_ (faultCasChunk_errors Scratch.closed And.left
    (fun h hdisk _ hk => ⟨hk, by rw [hdisk]; exact h.2⟩) c)
  intro t u t' ht hrun
  obtain ⟨now, hsim⟩ := ht.1.sim
  obtain ⟨hc, -, -, hsame, hbase⟩ := faultCasChunk_ok hinj hsim hrun
  refine ⟨⟨faultCasChunk_kept hinj ht.1 hrun, ?_⟩, trivial⟩
  by_cases hcas : t.disk.source c = .cas
  · rw [hbase hcas, setSource_source_self hc]
    decide
  · rw [hsame hcas]
    exact ht.2

variable {o : Overlay}

lemma seedChunk_scratch (ho : s.disk.overlay = some o) (c : ℕ) :
    Stays (Scratch hash s G c) (seedChunk hash c o.fd) := by
  refine getDisk_keeps.bind fun d hd => ?_
  obtain ⟨t, ht, rfl⟩ := hd
  refine (Keeps.check (Q := fun len => c < s.disk.chunkCount ∧
    len = chunkExtent s.disk.chunkSize s.disk.size c) fun len hlen => ?_).bind fun len hlen =>
      Keeps.guard <| ?_
  · rw [← ht.1.chunkCount, ← ht.1.size, ← ht.1.chunkSize]
    exact chunkLen_ok hlen
  have hwrite : ∀ data : List UInt8, data.length = len →
      Stays (Scratch hash s G c) (writeExact o.fd data (c * t.disk.chunkSize)) := by
    intro data hdata
    refine overlay_write_keeps ho hlen.1 fun i hlo hhi => ?_
    rw [ht.1.chunkSize] at hlo hhi
    exact inChunk_iff.mpr ⟨hlo, by omega⟩
  have hcopy : Stays (Scratch hash s G c) (do
      let buf ← t.disk.base.readAt len (c * t.disk.chunkSize)
      writeExact o.fd buf (c * t.disk.chunkSize)) :=
    (readAt_source_keeps Scratch.closed).bind fun buf hbuf => hwrite buf hbuf
  cases t.disk.source c with
  | base => exact hcopy
  | overlay | overlayClean => exact Stays.pure
  | zero | zeroDirty => exact hwrite _ List.length_replicate
  | cas => exact (faultCasChunk_scratch hinj c).bind fun _ _ => hcopy

lemma writeSpan_keeps (ho : s.disk.overlay = some o) {absolute : ℕ}
    {span : Span} (hspan : SpanWithin s.disk absolute span) (hlen : data.length ≤ span.len) :
    Stays (Kept hash s G) (writeSpan hash o.fd data absolute span) := by
  have hc := hspan.lt_chunkCount
  have hlast : Stays (Scratch hash s G span.chunkIndex) (do
      writeExact o.fd data absolute
      modifyDisk (·.setSource span.chunkIndex .overlay)) :=
    (overlay_write_keeps ho hc fun i hlo hhi => hspan.holds hlo (by omega)).bind fun _ _ =>
      Keeps.modify fun t ht => setSource_overlay_scratch ho hc ht.1
  intro t ht
  by_cases hclean : t.disk.source span.chunkIndex = .overlayClean
  · suffices hrun : Triple (fun t => Kept hash s G t ∧
        t.disk.source span.chunkIndex = .overlayClean) (writeSpan hash o.fd data absolute span)
        (fun _ => Scratch hash s G span.chunkIndex) (Kept hash s G) from
      hrun.weaken (fun _ h => h) (fun _ _ h => ⟨h.1, trivial⟩) (fun _ h => h) t ⟨ht, hclean⟩
    refine getDisk_keeps.before (fun _ h => h.1) fun d hd => ?_
    obtain ⟨t₀, ht₀, rfl⟩ := hd
    refine Stays.check.before (fun _ h => h.1) fun full _ =>
      (Keeps.runIf fun hseed => absurd ht₀.2 hseed.2.1).before (fun _ h => h.1) fun _ _ => ?_
    rw [EState.runIf, if_pos ht₀.2]
    refine .bind (Q := fun _ => Scratch hash s G span.chunkIndex)
      (Triple.modify fun t ht => setSource_overlay_scratch ho hc ht.1) fun _ => ?_
    exact hlast.weaken (fun _ h => h) (fun _ _ h => h.1) fun _ h => h.1
  · suffices hrun : Stays (Scratch hash s G span.chunkIndex)
        (writeSpan hash o.fd data absolute span) from
      hrun.weaken (fun _ h => h) (fun _ _ h => ⟨h.1.1, trivial⟩) (fun _ h => h.1) t ⟨ht, hclean⟩
    refine getDisk_keeps.bind fun d hd => Stays.check.bind fun full _ =>
      (Keeps.runIf fun _ => seedChunk_scratch hinj ho _).bind fun _ _ =>
        (Keeps.runIf fun hrun => ?_).bind fun _ _ => hlast
    obtain ⟨t₀, ht₀, rfl⟩ := hd
    exact absurd hrun ht₀.2

omit hinj [DecidableEq Id] in
lemma forSpans_keeps {α : Type} {offset len : ℕ} {body : ℕ → ℕ → Span → α → DiskM Id α}
    (hin : offset + len ≤ s.disk.size)
    (hbody : ∀ cursor absolute span a, SpanWithin s.disk absolute span →
      Stays (Kept hash s G) (body cursor absolute span a)) : ∀ fuel cursor a,
      Stays (Kept hash s G) (forSpans offset len body fuel cursor a) := by
  intro fuel
  induction fuel with
  | zero => exact fun _ _ => .pure
  | succ fuel ih =>
    intro cursor a
    unfold forSpans
    split
    · next hlt =>
      refine getDisk_keeps.bind fun d hd => (Keeps.check
        fun span hspan => ?_).bind
          fun span hspan => (hbody cursor (offset + cursor) span a hspan).bind fun a' _ => ih _ _
      obtain ⟨t, ht, rfl⟩ := hd
      have hwithin := spanWithin_of_spanFor hspan (by omega) (by rw [ht.size]; omega)
      exact ⟨ht.chunkSize ▸ hwithin.start, ht.chunkSize ▸ hwithin.stop,
        ht.chunkSize ▸ hwithin.offset, hwithin.pos, ht.size ▸ hwithin.within⟩
    · exact .pure

omit hinj [DecidableEq Id] in
lemma checkRange_keeps {d : ChunkMappedDisk Id} (hsize : d.size = s.disk.size) {len offset : ℕ} :
    Keeps (Kept hash s G) (EState.check (d.checkRange len offset))
      fun _ => offset + len ≤ s.disk.size :=
  Keeps.check fun _ h => hsize ▸ checkRange_ok h

lemma readAt_keeps (len offset : ℕ) : Stays (Kept hash s G) (readAt hash len offset) :=
  Reads.readAt Kept.closed (faultCasChunk_keeps hinj) len offset

lemma readChunk_keeps (c len : ℕ) : Stays (Kept hash s G) (readChunk hash c len) :=
  getDisk_keeps.bind fun _ _ => Stays.check.bind fun _ _ =>
    Keeps.guard <| .guard <| readAt_keeps hinj _ _

lemma writeAt_keeps (buf : List UInt8) (offset : ℕ) :
    Stays (Kept hash s G) (writeAt hash buf offset) := by
  refine overlayFd_keeps.bind fun fd hfd => getDisk_keeps.bind fun d hd => ?_
  obtain ⟨t, ht, rfl⟩ := hd
  obtain ⟨o, ho, rfl⟩ := hfd
  refine (checkRange_keeps ht.size).bind fun _ hin => forSpans_keeps hin
    (fun cursor absolute span _ hspan => writeSpan_keeps hinj ho hspan ?_) _ _ _
  exact List.length_take_le _ _

-- ══ Zeroing and growing

omit hinj [DecidableEq Id] in
lemma markZeroChunk_keeps (c : ℕ) : Stays (Kept hash s G) (markZeroChunk c) := by
  refine getDisk_keeps.bind fun d hd => Keeps.guard <| Keeps.rejectIf.bind
    fun _ hc => Keeps.runIf fun _ => Keeps.modify fun t ht => ?_
  obtain ⟨t₀, ht₀, rfl⟩ := hd
  obtain ⟨now, hsim⟩ := ht.sim
  exact ht.setSource (hsim.discard (by rw [ht.chunkCount, ← ht₀.chunkCount]; omega))

lemma zeroRange_keeps (offset len : ℕ) : Stays (Kept hash s G) (zeroRange hash offset len) :=
  Zeroes.zeroRange (readChunk_keeps hinj) markZeroChunk_keeps (writeAt_keeps hinj) offset len

omit hinj in
lemma readGrowthBoundary_errors {P : DiskState Id → Prop} (hP : Closed P) (c len : ℕ) :
    Triple P (readGrowthBoundary hash c len) (fun _ _ => True) P := by
  refine Keeps.errors (Q := fun _ => True) (getDisk_keeps.bind fun d _ => Keeps.guard <|
    Stays.check.bind fun len _ => Keeps.guard <|
      Keeps.guard <| ?_)
  cases d.source c with
  | base => exact (readAt_source_keeps hP).stays
  | overlay | overlayClean =>
    refine .bind (Q := fun _ => True) (getDisk_keeps.bind fun d _ => ?_) fun _ _ =>
      (readExact_keeps hP).stays
    cases d.overlay with
    | none => exact .throw
    | some o => exact Stays.pure
  | zero | zeroDirty => exact Stays.pure
  | cas =>
    simp only
    cases d.baselineId c with
    | none => exact .throw
    | some id => exact (readCasObject_keeps hP).stays

structure Unmoved (hash : List UInt8 → Id) (s : DiskState Id) (G : Contents) (t : DiskState Id) :
    Prop where
  sim : Sim hash t G
  disk : ∃ b, t.disk = { s.disk with poisoned := b }
  foot : Footprint s t

section Unmoved

omit hinj [DecidableEq Id]

lemma Unmoved.refl (h : Sim hash s G) : Unmoved hash s G s :=
  ⟨h, ⟨s.disk.poisoned, rfl⟩, Footprint.refl s⟩

lemma Unmoved.closed : Closed (Unmoved hash s G) where
  quiet h hquiet :=
    ⟨h.sim.quiet hquiet, by rw [hquiet.1]; exact h.disk, h.foot.trans hquiet.frame.footprint⟩
  poison h := by
    obtain ⟨b, hdisk⟩ := h.disk
    exact ⟨h.sim.poisoned true, ⟨true, by rw [hdisk]⟩, h.foot.base, h.foot.overlay,
      h.foot.chunkSize, h.foot.isCas, h.foot.others, h.foot.baseFile⟩

lemma Unmoved.kept (h : Unmoved hash s G t) : Kept hash s G t := by
  obtain ⟨b, hdisk⟩ := h.disk
  exact ⟨⟨G.now, h.sim⟩, h.foot, by rw [hdisk], by rw [hdisk], by rw [hdisk]⟩

lemma chunk_rewrite_keeps (ho : s.disk.overlay = some o) {c : ℕ} (hc : c < s.disk.chunkCount) :
    Stays (Unmoved hash s G) (writeExact o.fd (s.disk.chunkOf G.now c) (c * s.disk.chunkSize)) := by
  refine writeExact_keeps Unmoved.closed fun t t' n ht hdisk hfiles => ?_
  obtain ⟨b, hmoved⟩ := ht.disk
  have hlen : ((s.disk.chunkOf G.now c).take n).length ≤
      chunkExtent s.disk.chunkSize s.disk.size c := by
    rw [← length_chunkSlice]
    exact List.length_take_le' n _
  have hinv : Inv hash s.disk t.host.files G := by
    have hsim := ht.sim
    unfold Sim at hsim
    rw [hmoved] at hsim
    exact hsim.poisoned s.disk.poisoned
  have hin : ∀ i, c * s.disk.chunkSize ≤ i →
      i < c * s.disk.chunkSize + ((s.disk.chunkOf G.now c).take n).length → s.disk.Holds c i :=
    fun i hlo hhi => inChunk_iff.mpr ⟨hlo, by omega⟩
  have hover := hinv.overlay_rewrite hc ho hin fun hs i hi => by
    have hrange := inChunk_iff.mp hi
    by_cases hwritten : i < c * s.disk.chunkSize + ((s.disk.chunkOf G.now c).take n).length
    · have hlt : i - c * s.disk.chunkSize < ((s.disk.chunkOf G.now c).take n).length := by omega
      have hbyte : G.now.byte i = (s.disk.chunkOf G.now c).getD (i - c * s.disk.chunkSize) 0 :=
        (eq_chunkSlice_iff length_chunkSlice).mp rfl i hi
      rw [SparseFile.pwrite_byte_in _ _ _ _ hrange.1 hwritten, List.getD_eq_getElem _ _ hlt,
        List.getElem_take, ← List.getD_eq_getElem _ 0, ← hbyte]
      have hshow := (hinv.chunk c hc).shows
      rcases hs with hs | hs
      all_goals
        simp only [ChunkShows, hs] at hshow
        obtain ⟨o', ho', hshow⟩ := hshow
        cases ho.symm.trans ho'
        exact (hshow i hi).symm
    · exact SparseFile.pwrite_byte_out _ _ _ _ (by omega)
  refine ⟨?_, by rw [hdisk]; exact ht.disk,
    ht.foot.update hinv.overlay_ne_base (.inl ⟨o, ho, rfl⟩) hdisk hfiles⟩
  unfold Sim
  rw [hdisk, hfiles, hmoved]
  exact hover.poisoned b

end Unmoved

lemma growTail_keeps (ho : s.disk.overlay = some o) (c tailLen : ℕ) :
    Stays (Unmoved hash s G) (growTail hash o.fd c tailLen) := by
  refine getDisk_keeps.bind fun d hd => ?_
  obtain ⟨t₀, ht₀, rfl⟩ := hd
  obtain ⟨b₀, hdisk₀⟩ := ht₀.disk
  split
  · exact Stays.pure
  refine .bind (Q := fun tail => c < s.disk.chunkCount ∧ tail = s.disk.chunkOf G.now c)
    (Triple.of_ok ?_ (readGrowthBoundary_errors Unmoved.closed c tailLen)) fun tail htail => ?_
  · intro t tail t' ht hrun
    obtain ⟨hc, rfl, hquiet⟩ := readGrowthBoundary_ok hinj ht.sim hrun
    obtain ⟨b, hdisk⟩ := ht.disk
    refine ⟨Unmoved.closed.quiet ht hquiet, ?_⟩
    rw [hdisk] at hc ⊢
    exact ⟨hc, rfl⟩
  · obtain ⟨hc, rfl⟩ := htail
    rw [hdisk₀]
    exact .guard <| (chunk_rewrite_keeps ho hc).bind fun _ _ =>
      Stays.pure

/-- **Failed growth** leaves the disk and its array as they were. -/
theorem growKnownZero_errors (newSize : ℕ) :
    Triple (Unmoved hash s G) (growKnownZero hash newSize) (fun _ _ => True)
      (Unmoved hash s G) := by
  refine Keeps.bind_triple (Q := fun fd => ∃ o, s.disk.overlay = some o ∧ o.fd = fd) ?_
    fun fd hfd => getDisk_keeps.bind_triple fun d _ => Keeps.rejectIf.bind_triple fun _ _ => ?_
  · refine getDisk_keeps.bind fun d hd => ?_
    obtain ⟨t, ht, rfl⟩ := hd
    rw [ht.foot.overlay]
    cases ho : s.disk.overlay with
    | none => exact .throw
    | some o => exact .pure ⟨o, rfl, rfl⟩
  obtain ⟨o, ho, rfl⟩ := hfd
  split
  · exact fun _ _ => trivial
  refine Keeps.rejectIf.bind_triple fun _ _ => Keeps.rejectIf.bind_triple fun _ _ =>
    Keeps.bind_triple (Q := fun _ => True) ?_ fun tail _ =>
      Triple.bind (ftruncate_errors Unmoved.closed) fun _ _ _ => trivial
  split
  · exact Stays.pure
  · exact (growTail_keeps hinj ho _ _).bind fun _ _ => Stays.pure

variable {stringify : DiskIndex Id → List UInt8}

/-- **Failed operations.** A disk on which an operation failed stands for some array; its snapshots
are the same, and no file but its own has changed. -/
theorem exec_error {op : Op} {e : StorageError} (hsim : Sim hash s G)
    (h : op.exec hash stringify s = .error e s') : Kept hash s G s' := by
  have hdrop : ∀ {α : Type} {x : DiskM Id α}, Triple (Kept hash s G) x (fun _ _ => True)
      (Kept hash s G) → Triple (Kept hash s G) (do let _ ← x; pure ([] : List UInt8))
        (fun _ _ => True) (Kept hash s G) :=
    fun hx => hx.bind fun _ _ _ => trivial
  have herror : ∀ {x : DiskM Id (List UInt8)}, Triple (Kept hash s G) x (fun _ _ => True)
      (Kept hash s G) → x s = .error e s' → Kept hash s G s' :=
    fun hx => Triple.error hx (Kept.refl hsim)
  revert h
  cases op with
  | readAt len offset => exact herror (readAt_keeps hinj len offset).errors
  | writeAt buf offset => exact herror <| hdrop (writeAt_keeps hinj buf offset).errors
  | zeroRange offset len => exact herror <| hdrop (zeroRange_keeps hinj offset len).errors
  | growKnownZero newSize =>
    refine fun h => (Triple.error (P := Unmoved hash s G) (E := Unmoved hash s G)
      (Q := fun _ _ => True) ?_ (Unmoved.refl hsim) h).kept
    exact (growKnownZero_errors hinj newSize).bind fun _ _ _ => trivial
  | snapshotIndex dir device quiesced =>
    exact herror <| hdrop ((snapshotIndexWithStats_errors Kept.closed (readChunk_keeps hinj)
      dir device
      quiesced).bind fun _ _ _ => trivial)
  | commitSnapshot => exact herror <| hdrop fun _ _ => trivial

-- ══ Histories

omit hinj [DecidableEq Id] in
def Shows (hash : List UInt8 → Id) (s : DiskState Id) (A : SparseFile) : Prop :=
  A.size = s.disk.size ∧ ∀ c, c < s.disk.chunkCount → ChunkShows hash s.disk s.host.files A c

omit hinj [DecidableEq Id] in
lemma Sim.shows (h : Sim hash s G) : Shows hash s G.now :=
  ⟨h.size_eq, fun c hc => (h.chunk c hc).shows⟩

omit [DecidableEq Id] in
lemma Shows.unique {A B : SparseFile} (hA : Shows hash s A) (hB : Shows hash s B) : A = B := by
  refine SparseFile.ext (hA.1.trans hB.1.symm) fun i => ?_
  rcases Nat.lt_or_ge i s.disk.size with hi | hi
  case inr =>
    rw [A.zero_past_end i (by rw [hA.1]; exact hi), B.zero_past_end i (by rw [hB.1]; exact hi)]
  have hc : i / s.disk.chunkSize < s.disk.chunkCount := by
    rw [ChunkMappedDisk.chunkCount, s.disk.sources_length]
    exact div_lt_divCeil s.disk.chunkSize_pos hi
  have hholds : s.disk.Holds (i / s.disk.chunkSize) i := inChunk_div s.disk.chunkSize_pos hi
  have hA := hA.2 _ hc
  have hB := hB.2 _ hc
  unfold ChunkShows at hA hB
  cases hs : s.disk.source (i / s.disk.chunkSize) with
  | base =>
    rw [hs] at hA hB
    exact (hA i hholds).symm.trans (hB i hholds)
  | overlay | overlayClean =>
    rw [hs] at hA hB
    obtain ⟨o, ho, hA⟩ := hA
    obtain ⟨o', ho', hB⟩ := hB
    cases ho.symm.trans ho'
    exact (hA i hholds).symm.trans (hB i hholds)
  | zero | zeroDirty =>
    rw [hs] at hA hB
    exact (hA i hholds).trans (hB i hholds).symm
  | cas =>
    rw [hs] at hA hB
    have hchunk := hinj (Option.some.inj (hA.symm.trans hB))
    exact chunkSlice_eq_iff.mp hchunk i hholds

omit hinj in
/-- Operations of one disk, successful or not, with the arrays behind it. After a failed operation
the current contents are whatever the disk shows. -/
inductive Steps (hash : List UInt8 → Id) (stringify : DiskIndex Id → List UInt8)
    (s : DiskState Id) (G : Contents) : DiskState Id → Contents → Prop
  | refl : Steps hash stringify s G s G
  | ok {s₁ s₂ : DiskState Id} {G₁ : Contents} {op : Op} {reply : List UInt8}
      (hsteps : Steps hash stringify s G s₁ G₁)
      (hrun : op.exec hash stringify s₁ = .ok reply s₂) :
      Steps hash stringify s G s₂ (op.apply G₁).2
  | failed {s₁ s₂ : DiskState Id} {G₁ : Contents} {op : Op} {e : StorageError} {now : SparseFile}
      (hsteps : Steps hash stringify s G s₁ G₁)
      (hrun : op.exec hash stringify s₁ = .error e s₂) (hnow : Shows hash s₂ now) :
      Steps hash stringify s G s₂ { G₁ with now := now }

/-- **Invariance.** All steps lead to a disk that stands for its arrays, inside the footprint. -/
theorem Steps.sim {G' : Contents} (hsim : Sim hash s G) (h : Steps hash stringify s G s' G') :
    Sim hash s' G' ∧ Footprint s s' := by
  induction h with
  | refl => exact ⟨hsim, Footprint.refl s⟩
  | ok _ hrun ih =>
    obtain ⟨-, hsim', hfoot⟩ := exec_ok hinj ih.1 hrun
    exact ⟨hsim', ih.2.trans hfoot⟩
  | failed _ hrun hnow ih =>
    obtain ⟨⟨now', hsim'⟩, hfoot, -, -, -⟩ := exec_error hinj ih.1 hrun
    cases hnow.unique hinj hsim'.shows
    exact ⟨hsim', ih.2.trans hfoot⟩

omit hinj in
lemma steps_of_runAll {ops : List Op} {replies : List (List UInt8)}
    (h : EState.runAll (Op.exec hash stringify) ops s = .ok replies s') :
    Steps hash stringify s G s' (EState.specAll Op.apply ops G).2 := by
  have hrun : ∀ (ops : List Op) (s₁ : DiskState Id) (G₁ : Contents) (replies : List (List UInt8)),
      Steps hash stringify s G s₁ G₁ →
      EState.runAll (Op.exec hash stringify) ops s₁ = .ok replies s' →
      Steps hash stringify s G s' (EState.specAll Op.apply ops G₁).2 := by
    intro ops
    induction ops with
    | nil =>
      intro s₁ G₁ replies hsteps h
      obtain ⟨-, rfl⟩ := pure_ok.mp h
      exact hsteps
    | cons op ops ih =>
      intro s₁ G₁ replies hsteps h
      obtain ⟨reply, s₂, hop, h⟩ := bind_ok.mp h
      obtain ⟨replies', s₃, hrest, h⟩ := bind_ok.mp h
      obtain ⟨-, rfl⟩ := pure_ok.mp h
      exact ih s₂ _ replies' (hsteps.ok hop) hrest
  exact hrun ops s G replies .refl h

end Operations

end SporeVM
