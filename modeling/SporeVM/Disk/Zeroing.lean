import SporeVM.Disk.Refine

/-!
# Zeroing a range and growing the disk

`zeroRange` writes no zeros where it can avoid it. Whole chunks are only marked; the two chunks a
request may cover in part are read before anything changes, and written back with the range cleared.
`growKnownZero` appends zero chunks and, when the disk did not end on a chunk boundary, moves its
last chunk into the overlay. Both act as the corresponding operation on the flat array.
-/

namespace SporeVM

open Lib
open Lib.EState (bind_ok pure_ok runIf_ok check_bind_ok rejectIf_bind_ok bind_pure_ok)
open ChunkMappedDisk (chunkLen_ok source_of_ge lt_chunkCount)
open SparseFile (zeroed_byte_out zeroed_byte_in)
open List

variable {Id : Type} [DecidableEq Id] {hash : List UInt8 → Id}

-- ══ Zeroing

variable {G : Contents} {s s' : DiskState Id}

omit [DecidableEq Id] in
lemma markZeroChunk_ok {c : ℕ} {u : Unit} (hsim : Sim hash s G) (h : markZeroChunk c s = .ok u s') :
    Sim hash s' { G with
      now := G.now.zeroed (c * s.disk.chunkSize) (chunkExtent s.disk.chunkSize s.disk.size c) } ∧
      Frame s s' := by
  obtain ⟨-, h⟩ := rejectIf_bind_ok.mp h
  obtain ⟨hin, h⟩ := rejectIf_bind_ok.mp h
  have hc : c < s.disk.chunkCount := by omega
  rcases runIf_ok.mp h with ⟨-, h⟩ | ⟨hknown, rfl⟩
  · cases modifyDisk_ok.mp h
    have hsource := ChunkMappedDisk.setSource_source_self hc .zeroDirty
    refine ⟨?_, ⟨SameDisk.setSource _ _ _, fun _ => setSource_unread (by decide), fun _ _ _ => rfl,
      fun _ => rfl⟩⟩
    refine hsim.setSource .zeroDirty (fun _ _ => rfl)
      (fun o ho => ⟨hsim.overlay_size o ho, fun _ _ => rfl⟩) rfl ?_
      (ChunkOk.of_dirty (by rw [hsource]; rfl) ?_)
    · intro i hi
      rw [ChunkMappedDisk.Holds, inChunk_iff] at hi
      exact zeroed_byte_out _ _ _ _ (by omega)
    · simp only [ChunkShows, hsource]
      intro i hi
      obtain ⟨hlo, hhi⟩ := inChunk_iff.mp hi
      exact zeroed_byte_in _ _ _ _ hlo hhi
  · have hzero := hsim.knownZero (by simpa using hknown)
    rw [SparseFile.zeroed_eq rfl
      (fun i hlo hhi => hzero i (inChunk_iff.mpr ⟨hlo, hhi⟩)) (fun _ _ => rfl)]
    exact ⟨hsim, Frame.refl s⟩

/-- A boundary chunk as it was read: the bytes of chunk `chunkIndex`, and the part of it that the
request `[offset, stop)` covers. -/
structure PreparedBoundary.Of (cs size : ℕ) (A : SparseFile) (offset stop : ℕ)
    (b : PreparedBoundary) : Prop where
  chunkStart : b.chunkStart = b.chunkIndex * cs
  zeroStart : b.zeroStart = max offset b.chunkStart - b.chunkStart
  zeroLen : b.zeroLen = min stop (b.chunkStart + chunkExtent cs size b.chunkIndex) -
    max offset b.chunkStart
  bytes : b.bytes = chunkSlice cs size A.byte b.chunkIndex

variable (hinj : Function.Injective hash) (hsim : Sim hash s G)

include hinj hsim in
lemma prepareBoundary_ok {offset stop c : ℕ} {bs : List PreparedBoundary}
    (h : prepareBoundary hash offset stop c s = .ok bs s') :
    (∀ b ∈ bs, b.Of s.disk.chunkSize s.disk.size G.now offset stop) ∧ Sim hash s' G ∧ Frame s s'
    := by
  iterate 2 obtain ⟨-, h⟩ := rejectIf_bind_ok.mp h
  obtain ⟨len, hlen, h⟩ := check_bind_ok.mp h
  obtain ⟨-, rfl⟩ := chunkLen_ok hlen
  obtain ⟨-, h⟩ := rejectIf_bind_ok.mp h
  have hnone : ∀ b ∈ ([] : List PreparedBoundary),
      b.Of s.disk.chunkSize s.disk.size G.now offset stop := by simp
  iterate 2
    split at h
    · obtain ⟨rfl, rfl⟩ := pure_ok.mp h
      exact ⟨hnone, hsim, Frame.refl _⟩
  obtain ⟨bytes, s₅, hread, h⟩ := bind_ok.mp h
  obtain ⟨-, rfl, hsim', hframe⟩ := readChunk_ok hinj hsim hread
  obtain ⟨rfl, rfl⟩ := pure_ok.mp h
  refine ⟨fun b hb => ?_, hsim', hframe⟩
  obtain rfl := mem_singleton.mp hb
  exact ⟨rfl, rfl, rfl, rfl⟩

lemma memsetZero_slice (A : SparseFile) {off len start n : ℕ} (h : start + n ≤ len) :
    memsetZero (slice A.byte off len) start n = slice (A.zeroed (off + start) n).byte off len := by
  have hlen : (memsetZero (slice A.byte off len) start n).length = len := by
    simp [memsetZero]
    omega
  rw [eq_slice_iff hlen]
  intro i hlo hhi
  simp only [memsetZero]
  by_cases hbefore : i - off < start
  · rw [append_assoc, getD_append _ _ _ _ (by simp; omega),
      zeroed_byte_out _ _ _ _ (by omega), getD_eq_getElem _ _ (by simp; omega),
      getElem_take, getElem_slice]
    congr 1
    omega
  by_cases hin : i - off < start + n
  · rw [getD_append _ _ _ _ (by simp; omega),
      getD_append_right _ _ _ _ (by simp; omega), getD_replicate _ (by simp; omega),
      zeroed_byte_in _ _ _ _ (by omega) (by omega)]
  · rw [getD_append_right _ _ _ _ (by simp; omega),
      getD_eq_getElem _ _ (by simp; omega), getElem_drop, getElem_slice,
      zeroed_byte_out _ _ _ _ (by omega)]
    congr 1
    simp
    omega

def ZeroCursor (cs offset stop cursor : ℕ) : Prop :=
  offset ≤ cursor ∧ cursor ≤ stop ∧ (cursor < stop → cursor = offset ∨ cursor = cursor / cs * cs)

lemma zeroCursor_next {cs size offset stop cursor : ℕ} (hcs : 0 < cs) (hstop : stop ≤ size)
    (hcursor : ZeroCursor cs offset stop cursor) (hlt : cursor < stop) :
    cursor < min stop (cursor / cs * cs + chunkExtent cs size (cursor / cs)) ∧
      max offset (cursor / cs * cs) = cursor ∧
      ZeroCursor cs offset stop
        (min stop (cursor / cs * cs + chunkExtent cs size (cursor / cs))) := by
  obtain ⟨hlo, -, halign⟩ := hcursor
  have halign := halign hlt
  have hstart := Nat.div_mul_le_self cursor cs
  have hend := Nat.lt_div_mul_add hcs (a := cursor)
  unfold chunkExtent
  refine ⟨by omega, by omega, by omega, by omega, fun hnext => .inr ?_⟩
  -- The iteration ended before the request did, so it ended at the end of a full chunk.
  have hfull : min stop (cursor / cs * cs + (min (cursor / cs * cs + cs) size - cursor / cs * cs)) =
      (cursor / cs + 1) * cs := by
    rw [Nat.succ_mul]
    omega
  rw [hfull, Nat.mul_div_cancel _ hcs]

include hinj in
/-- **One iteration of the zero loop** zeroes the part of the request that lies in one chunk. -/
theorem zeroStep_ok {boundaries : List PreparedBoundary}
    {offset stop cursor next : ℕ}
    (hbound : ∀ b ∈ boundaries, b.Of s.disk.chunkSize s.disk.size G.now offset stop)
    (hcursor : ZeroCursor s.disk.chunkSize offset stop cursor) (hlt : cursor < stop)
    (hstop : stop ≤ G.now.size)
    (hsim : Sim hash s { G with now := G.now.zeroed offset (cursor - offset) })
    (h : zeroStep hash boundaries stop cursor s = .ok next s') :
    cursor < next ∧ ZeroCursor s.disk.chunkSize offset stop next ∧
      Sim hash s' { G with now := G.now.zeroed offset (next - offset) } ∧ Frame s s' := by
  have hsize : G.now.size = s.disk.size := hsim.size_eq
  obtain ⟨hnext, hmax, hcursor'⟩ := zeroCursor_next s.disk.chunkSize_pos (hsize ▸ hstop) hcursor hlt
  obtain ⟨hlo, -, halign⟩ := hcursor
  have halign := halign hlt
  replace h := getDisk_bind_ok.mp h
  iterate 2 obtain ⟨-, h⟩ := rejectIf_bind_ok.mp h
  obtain ⟨len, hlen, h⟩ := check_bind_ok.mp h
  obtain ⟨hc, rfl⟩ := chunkLen_ok hlen
  obtain ⟨-, h⟩ := rejectIf_bind_ok.mp h
  generalize hcdef : cursor / s.disk.chunkSize = c at *
  generalize hstart : c * s.disk.chunkSize = start at *
  generalize hext : chunkExtent s.disk.chunkSize s.disk.size c = ext at *
  generalize hend : min stop (start + ext) = rangeEnd at *
  have hextle : start + ext ≤ s.disk.size ∨ ext = 0 := by
    rw [← hext, ← hstart]
    unfold chunkExtent
    omega
  -- The array before and after differ inside this chunk only.
  have hagree : ∀ i, i < start ∨ start + ext ≤ i →
      (G.now.zeroed offset (cursor - offset)).byte i =
        (G.now.zeroed offset (rangeEnd - offset)).byte i := by
    intro i hi
    by_cases hin : offset ≤ i ∧ i < cursor
    · rw [zeroed_byte_in _ _ _ _ hin.1 (by omega), zeroed_byte_in _ _ _ _ hin.1 (by omega)]
    · rw [zeroed_byte_out _ _ _ _ (by omega), zeroed_byte_out _ _ _ _ (by omega)]
  -- Marking the chunk is right as soon as the wanted array is zero on it.
  have hmark : ∀ {v : Unit} {t : DiskState Id},
      (∀ i, start ≤ i → i < start + ext → (G.now.zeroed offset (rangeEnd - offset)).byte i = 0) →
      markZeroChunk c s = .ok v t →
      Sim hash t { G with now := G.now.zeroed offset (rangeEnd - offset) } ∧ Frame s t := by
    intro v t hzero hrun
    obtain ⟨ht, hframe⟩ := markZeroChunk_ok hsim hrun
    rw [hstart, hext, SparseFile.zeroed_eq (by rfl) hzero hagree] at ht
    exact ⟨ht, hframe⟩
  split at h
  · next hfull =>
    obtain ⟨_, hrun, rfl⟩ := bind_pure_ok.mp h
    refine ⟨hnext, hcursor', hmark (fun i hi hi' => ?_) hrun⟩
    exact zeroed_byte_in _ _ _ _ (by omega) (by omega)
  split at h
  · next hknown =>
    obtain ⟨rfl, rfl⟩ := pure_ok.mp h
    have hzero := hsim.knownZero hknown
    refine ⟨hnext, hcursor', ?_, Frame.refl s⟩
    have hsame : G.now.zeroed offset (cursor - offset) = G.now.zeroed offset
      (rangeEnd - offset) := by
      refine SparseFile.ext rfl fun i => ?_
      by_cases hi : i < start ∨ start + ext ≤ i
      · exact hagree i hi
      · have hzero := hzero i (inChunk_iff.mpr (by rw [hstart, hext]; omega))
        by_cases hin : offset ≤ i ∧ i < rangeEnd
        · rw [hzero, zeroed_byte_in _ _ _ _ hin.1 (by omega)]
        · rw [zeroed_byte_out _ _ _ _ (by omega), zeroed_byte_out _ _ _ _ (by omega)]
    rwa [← hsame]
  cases hfind : boundaries.find? (fun boundary => boundary.chunkIndex == c) with
  | none => simp [hfind] at h
  | some b =>
    simp only [hfind] at h
    have hb := hbound b (List.mem_of_find?_eq_some hfind)
    obtain rfl : b.chunkIndex = c := by simpa using List.find?_some hfind
    -- The prepared bytes, cleared, are the chunk of the wanted array.
    have hbytes : memsetZero b.bytes b.zeroStart b.zeroLen =
        slice (G.now.zeroed offset (rangeEnd - offset)).byte start ext := by
      have hchunk := hb.chunkStart.trans hstart
      have hzs := hb.zeroStart
      have hzl := hb.zeroLen
      rw [hext, hchunk, hend, hmax] at hzl
      rw [hchunk, hmax] at hzs
      rw [hb.bytes, chunkSlice, hstart, hext, memsetZero_slice G.now (by omega), slice_eq_iff]
      intro i hi hi'
      by_cases hin : offset ≤ i ∧ i < rangeEnd
      · rw [zeroed_byte_in _ _ _ _ (by omega) (by omega), zeroed_byte_in _ _ _ _ hin.1 (by omega)]
      · rw [zeroed_byte_out _ _ _ _ (by omega), zeroed_byte_out _ _ _ _ (by omega)]
    rw [hbytes, hb.chunkStart.trans hstart] at h
    split at h
    · next hall =>
      obtain ⟨_, hrun, rfl⟩ := bind_pure_ok.mp h
      exact ⟨hnext, hcursor', hmark (slice_all_zero.mp hall) hrun⟩
    · obtain ⟨_, hrun, rfl⟩ := bind_pure_ok.mp h
      obtain ⟨hle, hsim', hframe⟩ := writeAt_ok hinj hsim hrun
      rw [SparseFile.pwrite_slice_eq (by rfl) (by simpa using hle) hagree] at hsim'
      exact ⟨hnext, hcursor', hsim', hframe⟩

include hinj in
/-- **The zero loop.** -/
theorem zeroLoop_ok {boundaries : List PreparedBoundary}
    {offset stop : ℕ} (hstop : stop ≤ G.now.size) (fuel : ℕ) :
    ∀ (cursor : ℕ) (s s' : DiskState Id) (u : Unit),
      (∀ b ∈ boundaries, b.Of s.disk.chunkSize s.disk.size G.now offset stop) →
      ZeroCursor s.disk.chunkSize offset stop cursor → stop - cursor ≤ fuel →
      Sim hash s { G with now := G.now.zeroed offset (cursor - offset) } →
      zeroLoop hash boundaries stop fuel cursor s = .ok u s' →
      Sim hash s' { G with now := G.now.zeroed offset (stop - offset) } ∧ Frame s s' := by
  induction fuel with
  | zero =>
    intro cursor s s' u _ hcursor hfuel hsim h
    obtain ⟨-, rfl⟩ := pure_ok.mp h
    obtain rfl : cursor = stop := by
      have := hcursor.2.1
      omega
    exact ⟨hsim, Frame.refl s⟩
  | succ fuel ih =>
    intro cursor s s' u hbound hcursor hfuel hsim h
    unfold zeroLoop at h
    split at h
    · next hlt =>
      obtain ⟨next, s₁, hstep, h⟩ := bind_ok.mp h
      obtain ⟨hnext, hcursor', hsim₁, hframe⟩ :=
        zeroStep_ok hinj hbound hcursor hlt hstop hsim hstep
      have hsize : s₁.disk.size = s.disk.size := hsim₁.size_eq.symm.trans hsim.size_eq
      rw [← hframe.chunkSize] at hbound hcursor'
      rw [← hsize] at hbound
      obtain ⟨hsim', hframe'⟩ := ih next s₁ s' u hbound hcursor' (by omega) hsim₁ h
      exact ⟨hsim', hframe.trans hframe'⟩
    · next hge =>
      obtain ⟨-, rfl⟩ := pure_ok.mp h
      obtain rfl : cursor = stop := by
        have := hcursor.2.1
        omega
      exact ⟨hsim, Frame.refl s⟩

include hinj hsim in
/-- **Zeroing.** A successful request zeroes the array in its range and nowhere else. -/
theorem zeroRange_ok {offset len : ℕ} {u : Unit} (h : zeroRange hash offset len s = .ok u s') :
    offset + len ≤ G.now.size ∧ Sim hash s' { G with now := G.now.zeroed offset len } ∧ Frame s s'
    := by
  replace h := getDisk_bind_ok.mp h
  iterate 2 obtain ⟨-, h⟩ := rejectIf_bind_ok.mp h
  obtain ⟨hin, h⟩ := rejectIf_bind_ok.mp h
  have hsize := hsim.size_eq
  refine ⟨by omega, ?_⟩
  split at h
  · next hlen =>
    obtain ⟨-, rfl⟩ := pure_ok.mp h
    rw [hlen, SparseFile.zeroed_zero]
    exact ⟨hsim, Frame.refl s⟩
  obtain ⟨first, s₅, hfirst, h⟩ := bind_ok.mp h
  obtain ⟨hb₁, hsim₅, hframe₅⟩ := prepareBoundary_ok hinj hsim hfirst
  obtain ⟨last, s₆, hlast, h⟩ := bind_ok.mp h
  have hprepared : (∀ b ∈ last, b.Of s.disk.chunkSize s.disk.size G.now offset (offset + len)) ∧
      Sim hash s₆ G ∧ Frame s s₆ := by
    split at hlast
    · obtain ⟨rfl, rfl⟩ := pure_ok.mp hlast
      exact ⟨by simp, hsim₅, hframe₅⟩
    · obtain ⟨hb₂, hsim₆, hframe₆⟩ := prepareBoundary_ok hinj hsim₅ hlast
      rw [hframe₅.chunkSize, ← hsim₅.size_eq, hsize] at hb₂
      exact ⟨hb₂, hsim₆, hframe₅.trans hframe₆⟩
  obtain ⟨hb₂, hsim₆, hframe₆⟩ := hprepared
  have hboth : ∀ b ∈ first ++ last, b.Of s₆.disk.chunkSize s₆.disk.size G.now offset
    (offset + len) := by
    rw [hframe₆.chunkSize, ← hsim₆.size_eq, hsize]
    intro b hb
    exact (mem_append.mp hb).elim (hb₁ b) (hb₂ b)
  obtain ⟨hsim', hframe'⟩ := zeroLoop_ok hinj (by omega) len offset s₆ s' u hboth
    ⟨Nat.le_refl _, by omega, fun _ => .inl rfl⟩ (by omega) (by simpa using hsim₆) h
  rw [Nat.add_sub_cancel_left] at hsim'
  exact ⟨hsim', hframe₆.trans hframe'⟩

-- ══ Growing

include hinj hsim in
lemma readGrowthBoundary_ok {c len : ℕ} {data : List UInt8}
    (h : readGrowthBoundary hash c len s = .ok data s') :
    c < s.disk.chunkCount ∧ data = s.disk.chunkOf G.now c ∧ s'.disk = s.disk ∧
      s'.host.files = s.host.files := by
  obtain ⟨hin, h⟩ := rejectIf_bind_ok.mp h
  have hc : c < s.disk.chunkCount := by omega
  obtain ⟨chunkLen, hlen, h⟩ := check_bind_ok.mp h
  obtain ⟨-, rfl⟩ := chunkLen_ok hlen
  obtain ⟨hlen, h⟩ := rejectIf_bind_ok.mp h
  obtain rfl := not_not.mp hlen
  obtain ⟨-, h⟩ := rejectIf_bind_ok.mp h
  have hshow := (hsim.chunk c hc).shows
  unfold ChunkShows at hshow
  cases hs : s.disk.source c with
  | base =>
    simp only [hs] at h hshow
    obtain ⟨rfl, hdisk, hfiles⟩ := FileBlockSource.readAt_ok h
    exact ⟨hc, chunkSlice_eq_iff.mpr hshow, hdisk, hfiles⟩
  | overlay | overlayClean =>
    simp only [hs] at h hshow
    obtain ⟨fd, s₆, hfd, h⟩ := bind_ok.mp h
    obtain ⟨rfl, o, ho, rfl⟩ := overlayFd_ok hfd
    obtain ⟨rfl, hdisk, hfiles⟩ := readExact_ok h
    obtain ⟨o', ho', hshow⟩ := hshow
    obtain rfl : o = o' := Option.some.inj (ho.symm.trans ho')
    exact ⟨hc, chunkSlice_eq_iff.mpr hshow, hdisk, hfiles⟩
  | zero | zeroDirty =>
    simp only [hs] at h hshow
    obtain ⟨rfl, rfl⟩ := pure_ok.mp h
    refine ⟨hc, ?_, rfl, rfl⟩
    rw [ChunkMappedDisk.chunkOf, eq_chunkSlice_iff length_replicate]
    intro i hi
    have := inChunk_iff.mp hi
    rw [hshow i hi, getD_replicate _ (by omega)]
  | cas =>
    simp only [hs] at h hshow
    simp only [hshow] at h
    obtain ⟨-, hdigest, -, hdisk, hfiles⟩ := readCasObject_ok h
    exact ⟨hc, hinj hdigest, hdisk, hfiles⟩

/-- The new source of a partial tail chunk leads to its bytes, and is clean only if the old one
was. -/
def TailShows (d : ChunkMappedDisk Id) (files : ℕ → SparseFile) (A : SparseFile) (o : Overlay)
    (c : ℕ) : Source → Prop
  | .zero => sourceIsDirty (d.source c) = false ∧ ∀ i, d.Holds c i → A.byte i = 0
  | .zeroDirty => ∀ i, d.Holds c i → A.byte i = 0
  | .overlay => ∀ i, d.Holds c i → (files o.fd).byte i = A.byte i
  | .base | .overlayClean | .cas => False

variable {source : Source}

omit [DecidableEq Id] in
lemma TailShows.congr {d : ChunkMappedDisk Id} {files files' : ℕ → SparseFile} {A : SparseFile}
    {o : Overlay} {c : ℕ} (h : TailShows d files A o c source)
    (hbytes : ∀ i, (files' o.fd).byte i = (files o.fd).byte i) :
    TailShows d files' A o c source := by
  cases source with
  | overlay => exact fun i hi => (hbytes i).trans (h i hi)
  | zero | zeroDirty | base | overlayClean | cas => exact h

/-- What growth knows of the partial tail chunk `c` once its new source is chosen: only the overlay
file has changed, only inside that chunk, and the new source leads to the chunk's bytes. -/
structure TailReady (d : ChunkMappedDisk Id) (files files' : ℕ → SparseFile) (A : SparseFile)
    (o : Overlay) (c : ℕ) (source : Source) : Prop where
  others : ∀ fd, fd ≠ o.fd → files' fd = files fd
  size_le : (files' o.fd).size ≤ d.size
  outside : ∀ i, ¬ d.Holds c i → (files' o.fd).byte i = (files o.fd).byte i
  shows : TailShows d files' A o c source

include hinj hsim in
lemma growTail_ok {o : Overlay} {c tailLen : ℕ} (ho : s.disk.overlay = some o)
    (h : growTail hash o.fd c tailLen s = .ok source s') :
    s'.disk = s.disk ∧ TailReady s.disk s.host.files s'.host.files G.now o c source := by
  replace h := getDisk_bind_ok.mp h
  split at h
  · next hknown =>
    obtain ⟨hsource, rfl⟩ := pure_ok.mp h
    have hzero := hsim.knownZero hknown
    refine ⟨rfl, fun _ _ => rfl, hsim.overlay_size o ho, fun _ _ => rfl, ?_⟩
    rw [← hsource]
    split
    · exact hzero
    · next hne =>
      refine ⟨?_, hzero⟩
      -- A chunk known to be zero is not read from the overlay, so it is dirty only as a zero.
      unfold ChunkMappedDisk.chunkKnownZero at hknown
      cases hs : s.disk.source c with
      | overlay => simp [hs] at hknown
      | zeroDirty => exact absurd hs hne
      | base | overlayClean | zero | cas => rfl
  · obtain ⟨tail, s₂, hread, h⟩ := bind_ok.mp h
    obtain ⟨-, rfl, hdisk, hfiles⟩ := readGrowthBoundary_ok hinj hsim hread
    obtain ⟨-, h⟩ := rejectIf_bind_ok.mp h
    obtain ⟨_, s₄, hwrite, h⟩ := bind_ok.mp h
    obtain ⟨hdisk₄, hfiles₄⟩ := writeExact_ok hwrite
    obtain ⟨rfl, rfl⟩ := pure_ok.mp h
    rw [hfiles] at hfiles₄
    have hin : ∀ i, c * s.disk.chunkSize ≤ i →
        i < c * s.disk.chunkSize + (s.disk.chunkOf G.now c).length → s.disk.Holds c i := by
      intro i hlo hhi
      rw [ChunkMappedDisk.chunkOf, length_chunkSlice] at hhi
      exact inChunk_iff.mpr ⟨hlo, hhi⟩
    have hover := (overlay_pwrite hsim ho hin).2 o ho
    refine ⟨hdisk₄.trans hdisk, ?_, ?_, ?_, ?_⟩
    · intro fd hfd
      rw [hfiles₄, Function.update_of_ne hfd]
    · rw [hfiles₄]
      exact hover.1
    · rw [hfiles₄]
      exact hover.2
    · intro i hi
      rw [hfiles₄, Function.update_self]
      exact pwrite_chunk_in rfl hi

section Grow

variable {d : ChunkMappedDisk Id} {files files' : ℕ → SparseFile} {G : Contents} {o : Overlay}
  {tail : Option (ℕ × Source)} {newSize c i : ℕ}

omit [DecidableEq Id]

lemma SameDisk.grow (d : ChunkMappedDisk Id) (tail : Option (ℕ × Source)) (newSize : ℕ) :
    SameDisk d (d.grow tail newSize) := by
  unfold ChunkMappedDisk.grow
  split
  · exact ⟨rfl, rfl, rfl, rfl, rfl, rfl⟩
  · exact SameDisk.refl d

lemma grow_eq (tail : Option (ℕ × Source)) (hle : d.size ≤ newSize) (hmax : newSize ≤ maxU64) :
    (d.grow tail newSize).size = newSize ∧ (d.grow tail newSize).sources =
      grownSources d.sources tail (divCeil newSize d.chunkSize) := by
  unfold ChunkMappedDisk.grow
  rw [dif_pos ⟨hle, hmax⟩]
  exact ⟨rfl, rfl⟩

lemma grow_source (hle : d.size ≤ newSize) (hmax : newSize ≤ maxU64)
    (hc : c < (d.grow tail newSize).chunkCount) :
    (∀ source, tail = some (c, source) → c < d.chunkCount →
      (d.grow tail newSize).source c = source) ∧
    ((∀ source, tail ≠ some (c, source)) → c < d.chunkCount →
      (d.grow tail newSize).source c = d.source c) ∧
    (d.chunkCount ≤ c → (d.grow tail newSize).source c = .zero) := by
  have hsources := (grow_eq tail hle hmax).2
  have hlen : c < (grownSources d.sources tail (divCeil newSize d.chunkSize)).length := by
    rw [← hsources]
    exact hc
  simp only [ChunkMappedDisk.source, hsources, ChunkMappedDisk.chunkCount, grownSources]
  refine ⟨?_, ?_, ?_⟩
  · rintro source rfl hlt
    rw [getD_append _ _ _ _ (by simpa using hlt), getD_eq_getElem _ _
      (by simpa using hlt),
      getElem_set_self]
  · intro hne hlt
    rcases tail with _ | ⟨t, source⟩
    · rw [getD_append _ _ _ _ hlt]
    · have hne : t ≠ c := fun h => hne source (by rw [h])
      rw [getD_append _ _ _ _ (by simpa using hlt), getD_eq_getElem _ _
        (by simpa using hlt),
        getElem_set_ne hne, getD_eq_getElem _ _ hlt]
  · intro hge
    have hnew : ∀ (old : List Source) (n : ℕ), old.length = d.sources.length →
        c < (old ++ replicate n Source.zero).length →
        (old ++ replicate n Source.zero).getD c .base = .zero := by
      intro old n hold hc
      rw [length_append, length_replicate] at hc
      rw [getD_append_right _ _ _ _ (by rw [hold]; exact hge), getD_replicate _ (by omega)]
    refine hnew _ _ ?_ hlen
    rcases tail with _ | ⟨t, source⟩ <;> simp

lemma grow_unread (hle : d.size ≤ newSize) (hmax : newSize ≤ maxU64)
    (htail : ∀ t source, tail = some (t, source) → source ≠ .cas)
    (h : (d.grow tail newSize).source c = .cas) : d.source c = .cas := by
  rcases Nat.lt_or_ge c (d.grow tail newSize).chunkCount with hc | hge
  · obtain ⟨hsrcTail, hsrcOld, hsrcNew⟩ := grow_source hle hmax hc
    rcases Nat.lt_or_ge c d.chunkCount with hold | hnew
    · by_cases hne : ∀ source, tail ≠ some (c, source)
      · rwa [hsrcOld hne hold] at h
      · simp only [not_forall, not_not] at hne
        obtain ⟨source, hsome⟩ := hne
        rw [hsrcTail source hsome hold] at h
        exact absurd h (htail c source hsome)
    · rw [hsrcNew hnew] at h
      cases h
  · rw [source_of_ge hge] at h
    cases h

lemma holds_of_grow (hi : (d.grow tail newSize).Holds c i) : d.Holds c i ∨ d.size ≤ i := by
  have hcs := (SameDisk.grow d tail newSize).chunkSize
  obtain ⟨hlo, hhi, -⟩ := hi
  rw [hcs] at hlo hhi
  by_cases hlt : i < d.size
  · exact .inl ⟨hlo, hhi, hlt⟩
  · exact .inr (by omega)

variable (h : Inv hash d files G)

include h

lemma ChunkOk.grow_full (ho : d.overlay = some o)
    (hle : d.size ≤ newSize) (hmax : newSize ≤ maxU64) (hold : c < d.chunkCount)
    (hfull : c * d.chunkSize + d.chunkSize ≤ d.size)
    (hsource : (d.grow tail newSize).source c = d.source c)
    (hfiles : ∀ fd, fd ≠ o.fd → files' fd = files fd)
    (hbytes : ∀ i, d.Holds c i → (files' o.fd).byte i = (files o.fd).byte i) :
    ChunkOk hash (d.grow tail newSize) files' { G with now := G.now.ftruncate newSize } c := by
  have hsame := SameDisk.grow d tail newSize
  have hbyte := G.now.ftruncate_byte_of_le (n := newSize) (by rw [h.size_eq]; exact hle)
  have hext : chunkExtent (d.grow tail newSize).chunkSize (d.grow tail newSize).size c =
      chunkExtent d.chunkSize d.size c := by
    rw [hsame.chunkSize, (grow_eq _ hle hmax).1, chunkExtent_grow hle hfull]
  have hholds := fun i => (holds_congr (i := i) hsame.chunkSize hext).mp
  have hc := h.chunk c hold
  refine ⟨?_, ?_, ?_, ?_, ?_⟩
  · refine chunkShows_congr hash (d := d) hsame.chunkSize hext hsame.base hsame.overlay
      (hsame.baselineId c) hsource ?_ ?_ (fun i _ => hbyte i) hc.shows
    · intro i _
      rw [hfiles _ (Ne.symm (h.overlay_ne_base o ho))]
    · intro o' ho' i hi
      obtain rfl : o = o' := Option.some.inj (ho.symm.trans ho')
      exact hbytes i hi
  · intro hclean hreuse hlt
    rw [hsource] at hclean
    rw [hsame.parentChunkCount] at hlt
    -- Growth past the baseline does not make an unusable baseline usable.
    have hreuse' : d.canReuseParentIndex = true := by
      unfold ChunkMappedDisk.canReuseParentIndex at hreuse ⊢
      rw [hsame.currentBaseline] at hreuse
      cases hb : d.currentBaseline with
      | none => simp [hb] at hreuse
      | some b =>
        have := h.baseline_le b hb
        simp only [hb, decide_eq_true_eq] at hreuse ⊢
        exact ⟨hreuse.1, this⟩
    exact entryDescribes_congr hash (d := d) hsame.chunkSize hext (hsame.baselineId c)
      (fun i _ => hbyte i) (hc.agrees hclean hreuse' hlt)
  · intro hclean i hi
    rw [hsource] at hclean
    exact (hbyte i).trans (hc.clean hclean i (hholds i hi))
  · intro hbased i hi
    rw [hsource] at hbased
    exact (hbyte i).trans (hc.based hbased i (hholds i hi))
  · intro hcas
    rw [hsource] at hcas
    obtain ⟨hreuse, hlt⟩ := hc.unread hcas
    rw [hsame.parentChunkCount]
    refine ⟨?_, hlt⟩
    unfold ChunkMappedDisk.canReuseParentIndex at hreuse ⊢
    rw [hsame.currentBaseline]
    cases hb : d.currentBaseline with
    | none => simp [hb] at hreuse
    | some b =>
      simp only [hb, decide_eq_true_eq, (grow_eq tail hle hmax).1] at hreuse ⊢
      exact ⟨hreuse.1, hreuse.2.trans hle⟩

lemma Inv.past (i : ℕ) (hi : d.size ≤ i) : G.now.byte i = 0 :=
  G.now.zero_past_end i (by rw [h.size_eq]; exact hi)

lemma ChunkOk.grow_zero (hle : d.size ≤ newSize)
    (hsource : (d.grow tail newSize).source c = .zero)
    (hzero : ∀ i, d.Holds c i → G.now.byte i = 0)
    (hclean : ∀ i, d.Holds c i → G.now.byte i = G.clean.byte i) :
    ChunkOk hash (d.grow tail newSize) files' { G with now := G.now.ftruncate newSize } c := by
  have hbyte := G.now.ftruncate_byte_of_le (n := newSize) (by rw [h.size_eq]; exact hle)
  refine ⟨?_, ?_, ?_, ?_, by simp [hsource]⟩
  · unfold ChunkShows
    rw [hsource]
    intro i hi
    exact (hbyte i).trans ((holds_of_grow hi).elim (hzero i) (h.past i))
  · intro hcond
    simp [hsource] at hcond
  · intro _ i hi
    refine (hbyte i).trans ((holds_of_grow hi).elim (hclean i) fun hge => ?_)
    rw [h.past i hge, G.clean.zero_past_end i (h.clean_size.trans hge)]
  · intro hcond
    simp [hsource] at hcond

/-- **The tail chunk**, reclassified, is right after growth. -/
theorem ChunkOk.grow_tail (ho : d.overlay = some o)
    (hle : d.size ≤ newSize) (hold : c < d.chunkCount)
    (hsource : (d.grow tail newSize).source c = source)
    (htail : TailShows d files' G.now o c source)
    (hpastOver : ∀ i, d.size ≤ i → (files' o.fd).byte i = 0) :
    ChunkOk hash (d.grow tail newSize) files' { G with now := G.now.ftruncate newSize } c := by
  have hbyte := G.now.ftruncate_byte_of_le (n := newSize) (by rw [h.size_eq]; exact hle)
  cases source with
  | zero => exact ChunkOk.grow_zero h hle hsource htail.2 ((h.chunk c hold).clean htail.1)
  | zeroDirty =>
    refine ChunkOk.of_dirty (by rw [hsource]; rfl) ?_
    unfold ChunkShows
    rw [hsource]
    intro i hi
    exact (hbyte i).trans ((holds_of_grow hi).elim (htail i) (h.past i))
  | overlay =>
    refine ChunkOk.of_dirty (by rw [hsource]; rfl) ?_
    unfold ChunkShows
    rw [hsource]
    refine ⟨o, (SameDisk.grow d tail newSize).overlay.trans ho, fun i hi => ?_⟩
    rw [hbyte]
    rcases holds_of_grow hi with hi | hge
    · exact htail i hi
    · rw [hpastOver i hge, h.past i hge]
  | base | overlayClean | cas => exact htail.elim

/-- **Growth keeps the invariant**, given the overlay file resized and the tail chunk, if the disk
ends inside a chunk, reclassified. -/
theorem Inv.grow (ho : d.overlay = some o) (hle : d.size ≤ newSize)
    (hmax : newSize ≤ maxU64)
    (hfiles : ∀ fd, fd ≠ o.fd → files' fd = files fd) (hsize : (files' o.fd).size ≤ newSize)
    (hpastOver : ∀ i, d.size ≤ i → (files' o.fd).byte i = 0)
    (htail : ∀ c, c < d.chunkCount → (c * d.chunkSize + d.chunkSize ≤ d.size ∧
        (∀ source, tail ≠ some (c, source)) ∧
        ∀ i, d.Holds c i → (files' o.fd).byte i = (files o.fd).byte i) ∨
      ∃ source, tail = some (c, source) ∧ TailShows d files' G.now o c source) :
    Inv hash (d.grow tail newSize) files' { G with now := G.now.ftruncate newSize } := by
  have hsame := SameDisk.grow d tail newSize
  have hnsize := (grow_eq tail hle hmax).1
  refine ⟨hnsize.symm, ?_, ?_, ?_, ?_, ?_, ?_, ?_, ?_⟩
  · rw [hnsize]
    exact h.clean_size.trans hle
  · rw [hnsize]
    exact h.based_size.trans hle
  · intro hpending
    exact h.settled (hsame.pending ▸ hpending)
  · intro o' ho'
    rw [hsame.base]
    exact h.overlay_ne_base o' (hsame.overlay ▸ ho')
  · intro o' ho'
    obtain rfl : o = o' := Option.some.inj (ho.symm.trans (hsame.overlay ▸ ho'))
    rw [hnsize]
    exact hsize
  · intro b hb
    exact h.sorted b (hsame.currentBaseline ▸ hb)
  · intro b hb
    rw [hnsize]
    exact (h.baseline_le b (hsame.currentBaseline ▸ hb)).trans hle
  · intro c hc
    obtain ⟨hsrcTail, hsrcOld, hsrcNew⟩ := grow_source hle hmax hc
    by_cases hold : c < d.chunkCount
    · rcases htail c hold with ⟨hfull, hne, hbytes⟩ | ⟨source, hsome, hshow⟩
      · exact ChunkOk.grow_full h ho hle hmax hold hfull (hsrcOld hne hold) hfiles hbytes
      · exact ChunkOk.grow_tail h ho hle hold (hsrcTail source hsome hold) hshow hpastOver
    · have hnone : ∀ i, ¬ d.Holds c i := by
        intro i hi
        rw [lt_chunkCount] at hold
        exact hold (Nat.lt_of_le_of_lt hi.1 hi.lt_size)
      exact ChunkOk.grow_zero h hle (hsrcNew (by omega)) (fun i hi => absurd hi (hnone i))
        (fun i hi => absurd hi (hnone i))

omit h

lemma full_chunk (hc : c < d.chunkCount)
    (h : d.size % d.chunkSize = 0 ∨ c ≠ d.chunkCount - 1) :
    c * d.chunkSize + d.chunkSize ≤ d.size := by
  have hlt := lt_chunkCount.mp hc
  rcases h with hmod | hne
  · obtain ⟨k, hk⟩ := Nat.dvd_of_mod_eq_zero hmod
    rw [hk, Nat.mul_comm d.chunkSize k] at hlt ⊢
    rw [← Nat.succ_mul]
    exact Nat.mul_le_mul_right _ (Nat.lt_of_mul_lt_mul_right hlt)
  · have hnext : c + 1 < d.chunkCount := by omega
    have := lt_chunkCount.mp hnext
    rw [Nat.succ_mul] at this
    omega

end Grow

include hinj hsim in
/-- **Growing.** A successful growth appends zeros to the array. -/
theorem growKnownZero_ok {newSize : ℕ} {u : Unit} (h : growKnownZero hash newSize s = .ok u s') :
    G.now.size ≤ newSize ∧ Sim hash s' { G with now := G.now.ftruncate newSize } ∧ Frame s s' := by
  obtain ⟨fd, s₁, hfd, h⟩ := bind_ok.mp h
  obtain ⟨rfl, o, ho, rfl⟩ := overlayFd_ok hfd
  replace h := getDisk_bind_ok.mp h
  obtain ⟨hle, h⟩ := rejectIf_bind_ok.mp h
  have hle : s.disk.size ≤ newSize := by omega
  refine ⟨by rw [hsim.size_eq]; exact hle, ?_⟩
  split at h
  · next heq =>
    obtain ⟨-, rfl⟩ := pure_ok.mp h
    rw [heq, ← hsim.size_eq, SparseFile.ftruncate_self]
    exact ⟨hsim, Frame.refl s⟩
  iterate 2 obtain ⟨-, h⟩ := rejectIf_bind_ok.mp h
  obtain ⟨tail, s₅, htail, h⟩ := bind_ok.mp h
  obtain ⟨_, s₆, htrunc, h⟩ := bind_ok.mp h
  obtain ⟨hmax, hdisk₆, hfiles₆⟩ := ftruncate_ok htrunc
  cases modifyDisk_ok.mp h
  have hmax : newSize ≤ maxU64 := hmax.trans (by decide)
  -- Either the disk ends on a chunk boundary, or its last chunk has been reclassified.
  have htail : s₅.disk = s.disk ∧ (∀ fd, fd ≠ o.fd → s₅.host.files fd = s.host.files fd) ∧
      (s₅.host.files o.fd).size ≤ s.disk.size ∧
      ((s.disk.size % s.disk.chunkSize = 0 ∧ tail = none ∧ s₅.host.files = s.host.files) ∨
        ∃ source, tail = some (s.disk.chunkCount - 1, source) ∧
          TailReady s.disk s.host.files s₅.host.files G.now o (s.disk.chunkCount - 1) source) := by
    split at htail
    · next hmod =>
      obtain ⟨rfl, rfl⟩ := pure_ok.mp htail
      exact ⟨rfl, fun _ _ => rfl, hsim.overlay_size o ho, .inl ⟨hmod, rfl, rfl⟩⟩
    · obtain ⟨source, hrun, rfl⟩ := bind_pure_ok.mp htail
      obtain ⟨hdisk, hready⟩ := growTail_ok hinj hsim ho hrun
      exact ⟨hdisk, hready.others, hready.size_le, .inr ⟨source, rfl, hready⟩⟩
  obtain ⟨hdisk₅, hothers, hosize, htail⟩ := htail
  have hdisk : s₆.disk = s.disk := hdisk₆.trans hdisk₅
  have hover : s₆.host.files o.fd = (s₅.host.files o.fd).ftruncate newSize := by
    rw [hfiles₆, Function.update_self]
  have hobyte : ∀ i, (s₆.host.files o.fd).byte i = (s₅.host.files o.fd).byte i := fun i => by
    rw [hover, SparseFile.ftruncate_byte_of_le _ (hosize.trans hle)]
  have hothers₆ : ∀ fd, fd ≠ o.fd → s₆.host.files fd = s.host.files fd := fun fd hfd => by
    rw [hfiles₆, Function.update_of_ne hfd, hothers fd hfd]
  constructor
  · unfold Sim
    simp only [hdisk]
    refine Inv.grow hsim ho hle hmax hothers₆ (by rw [hover]; exact Nat.le_refl _) ?_ ?_
    · intro i hi
      rw [hobyte, SparseFile.zero_past_end _ _ (hosize.trans hi)]
    intro c hc
    rcases htail with ⟨hmod, rfl, hsame⟩ | ⟨source, rfl, hready⟩
    · refine .inl ⟨full_chunk hc (.inl hmod), by simp, fun i _ => ?_⟩
      rw [hobyte, hsame]
    · by_cases hlast : c = s.disk.chunkCount - 1
      · subst hlast
        exact .inr ⟨source, rfl, hready.shows.congr hobyte⟩
      · refine .inl ⟨full_chunk hc (.inr hlast), fun _ h => hlast ?_, fun i hi => ?_⟩
        · simp only [Option.some.injEq, Prod.mk.injEq] at h
          exact h.1.symm
        · rw [hobyte, hready.outside i fun h => hlast (hi.unique h)]
  · refine ⟨by rw [hdisk]; exact SameDisk.grow _ _ _, ?_, ?_, ?_⟩
    · intro c hc
      rw [hdisk] at hc
      refine grow_unread hle hmax (fun t source hsome => ?_) hc
      rcases htail with ⟨-, hnone, -⟩ | ⟨source', hsome', hready⟩
      · rw [hnone] at hsome
        cases hsome
      · rw [hsome'] at hsome
        cases hsome
        rintro rfl
        exact hready.shows
    · intro fd _ hfd
      exact hothers₆ fd (hfd o ho)
    · intro _
      exact hothers₆ _ (Ne.symm (hsim.overlay_ne_base o ho))

end SporeVM
