import SporeVM.Disk.Invariant

/-!
# Reads, writes, zeroing and growth act as on a flat byte array

One specification lemma for each operation: from a state that stands for the array `A`, a successful
run returns what the array operation returns, ends in a state that stands for the array afterwards,
and changes nothing outside the disk's own files.
-/

namespace SporeVM

open Lib
open Lib.EState (bind_ok pure_ok runIf_ok modify_ok check_bind_ok get_bind_ok rejectIf_bind_ok
  bind_pure_ok)
open ChunkMappedDisk (chunkLen_ok setSource_source_self setSource_base spanFor_ok checkRange_ok
  setSource_self)
open Function
open SparseFile (pwrite_byte_out pwrite_byte_in pwrite pwrite_size_of_le)

variable {Id : Type} [DecidableEq Id] {hash : List UInt8 → Id}

def Sim (hash : List UInt8 → Id) (s : DiskState Id) (G : Contents) : Prop :=
  Inv hash s.disk s.host.files G

variable {s s' : DiskState Id} {G : Contents}

omit [DecidableEq Id] in
lemma Sim.congr (h : Sim hash s G) (hdisk : s'.disk = s.disk)
    (hfiles : s'.host.files = s.host.files) : Sim hash s' G := by
  unfold Sim
  rw [hdisk, hfiles]
  exact h

-- ══ Faulting

variable {len : ℕ} {digest : Id} {data : List UInt8}

lemma verifyObject_ok {object : Option (List UInt8)}
    (h : verifyObject hash object digest len = .ok data) : data.length = len ∧
    hash data = digest := by
  unfold verifyObject at h
  split at h
  · cases h
  · obtain ⟨hlen, h⟩ := Check.ite_error_ok.mp h
    obtain ⟨hdigest, h⟩ := Check.ite_error_ok.mp h
    cases h
    exact ⟨not_not.mp hlen, not_not.mp hdigest⟩

variable {u : Unit}

lemma installObject_ok {root : String} (h : installObject root digest data s = .ok u s') :
    s'.disk = s.disk ∧ s'.host.files = s.host.files := by
  cases modify_ok.mp h
  exact ⟨rfl, rfl⟩

lemma fetchObject_ok (h : fetchObject hash digest len s = .ok data s') :
    data.length = len ∧ hash data = digest ∧ s'.disk = s.disk ∧ s'.host.files = s.host.files := by
  replace h := get_bind_ok.mp h
  cases hdata : verifyObject hash (s.host.fetcher.get digest) digest len with
  | ok data' =>
    simp only [hdata] at h
    obtain ⟨u, hinstall, rfl⟩ := bind_pure_ok.mp h
    obtain ⟨hlen, hdigest⟩ := verifyObject_ok hdata
    exact ⟨hlen, hdigest, installObject_ok hinstall⟩
  | error e =>
    simp only [hdata] at h
    obtain ⟨u, s₂, -, h⟩ := bind_ok.mp h
    exact absurd h (by simp)

lemma readCasObject_ok (h : readCasObject hash digest len s = .ok data s') :
    data.length = len ∧ hash data = digest ∧ s.disk.index.isCas = true ∧
      s'.disk = s.disk ∧ s'.host.files = s.host.files := by
  replace h := get_bind_ok.mp h
  cases hindex : s.disk.index with
  | none => simp [hindex] at h
  | parent baseline => simp [hindex] at h
  | cas casRoot baseline =>
    simp only [hindex] at h
    cases hdata : verifyObject hash (s.host.objects casRoot digest) digest len with
    | ok data' =>
      simp only [hdata] at h
      obtain ⟨rfl, rfl⟩ := pure_ok.mp h
      obtain ⟨hlen, hdigest⟩ := verifyObject_ok hdata
      exact ⟨hlen, hdigest, rfl, rfl, rfl⟩
    | error e =>
      simp only [hdata] at h
      iterate 3 obtain ⟨-, h⟩ := rejectIf_bind_ok.mp h
      obtain ⟨hlen, hdigest, hdisk, hfiles⟩ := fetchObject_ok h
      exact ⟨hlen, hdigest, rfl, hdisk, hfiles⟩

variable {d : ChunkMappedDisk Id} {c : ℕ}

omit [DecidableEq Id] in
lemma pwrite_chunk_out {f : SparseFile} {i : ℕ}
    (hlen : data.length = chunkExtent d.chunkSize d.size c) (hi : ¬ d.Holds c i) :
    (f.pwrite (c * d.chunkSize) data).byte i = f.byte i := by
  refine pwrite_byte_out _ _ _ _ ?_
  rw [ChunkMappedDisk.Holds, inChunk_iff] at hi
  omega

omit [DecidableEq Id] in
lemma pwrite_chunk_in {f A : SparseFile} {i : ℕ} (hdata : data = d.chunkOf A c) (hi : d.Holds c i) :
    (f.pwrite (c * d.chunkSize) data).byte i = A.byte i := by
  have hlen : data.length = chunkExtent d.chunkSize d.size c := by
    rw [hdata]
    exact length_chunkSlice
  have hbounds := inChunk_iff.mp hi
  rw [pwrite_byte_in _ _ _ _ hbounds.1 (by omega),
    ((eq_chunkSlice_iff hlen).mp hdata i hi)]

variable (hinj : Injective hash) (hsim : Sim hash s G)

include hinj hsim in
/-- **Faulting in an object.** The chunk moves into the base file and its bytes stay what they
were: a verified object of the recorded digest has the bytes the digest was taken of. -/
theorem faultCasChunk_ok (h : faultCasChunk hash c s = .ok u s') :
    c < s.disk.chunkCount ∧ Sim hash s' G ∧ Frame s s' ∧
      (s.disk.source c ≠ .cas → s' = s) ∧
      (s.disk.source c = .cas → s'.disk = s.disk.setSource c .base) := by
  obtain ⟨hin, h⟩ := rejectIf_bind_ok.mp h
  have hc : c < s.disk.chunkCount := by omega
  rcases runIf_ok.mp h with ⟨hcas, h⟩ | ⟨hcas, rfl⟩
  swap
  · exact ⟨hc, hsim, Frame.refl _, fun _ => rfl, fun h => absurd h hcas⟩
  have hshow := (hsim.chunk c hc).shows
  simp only [ChunkShows, hcas] at hshow
  simp only [hshow] at h
  obtain ⟨len, hlen, h⟩ := check_bind_ok.mp h
  obtain ⟨-, rfl⟩ := chunkLen_ok hlen
  obtain ⟨data, s₄, hread, h⟩ := bind_ok.mp h
  obtain ⟨hdlen, hdigest, hisCas, hdisk₄, hfiles₄⟩ := readCasObject_ok hread
  obtain ⟨-, h⟩ := rejectIf_bind_ok.mp h
  obtain ⟨_, s₆, hwrite, h⟩ := bind_ok.mp h
  obtain ⟨hdisk₆, hfiles₆⟩ := writeExact_ok hwrite
  cases modifyDisk_ok.mp h
  rw [hfiles₄] at hfiles₆
  have hdata : data = s.disk.chunkOf G.now c := hinj hdigest
  have hdisk : s₆.disk = s.disk := hdisk₆.trans hdisk₄
  refine ⟨hc, ?_, ?_, fun hne => absurd hcas hne, fun _ => by rw [hdisk]⟩
  · unfold Sim
    simp only [hdisk, hfiles₆]
    have hold := hsim.chunk c hc
    refine hsim.setSource .base ?_ ?_ rfl (fun _ _ => rfl) ⟨?_, ?_, ?_, ?_, ?_⟩
    · intro i hi
      rw [update_self, pwrite_chunk_out hdlen hi]
    · intro o ho
      rw [update_of_ne (hsim.overlay_ne_base o ho)]
      exact ⟨hsim.overlay_size o ho, fun _ _ => rfl⟩
    · simp only [ChunkShows, setSource_source_self hc]
      intro i hi
      rw [setSource_base, update_self]
      exact pwrite_chunk_in hdata hi
    · intro _ hreuse hlt
      exact hold.agrees (.inr (.inr hcas)) hreuse hlt
    · intro _
      exact hold.clean (by rw [hcas]; rfl)
    · intro _
      exact hold.based (.inr hcas)
    · intro hsource
      rw [setSource_source_self hc] at hsource
      cases hsource
  · refine ⟨by rw [hdisk]; exact SameDisk.setSource _ _ _, ?_, ?_, ?_⟩
    · intro c' hc'
      rw [hdisk] at hc'
      exact setSource_unread (by decide) hc'
    · intro fd hb _
      simp only [hfiles₆]
      rw [update_of_ne hb]
    · intro hnot
      rw [hisCas] at hnot
      cases hnot

-- ══ The span loop

variable {offset : ℕ}

omit [DecidableEq Id] in
/-- **Loop rule.** A property of the cursor, the accumulator and the state that every span keeps
while it moves the cursor past itself holds at the end of the request. -/
theorem forSpans_ok {α : Type} {body : ℕ → ℕ → Span → α → DiskM Id α}
    {I : ℕ → α → DiskState Id → Prop}
    (hbody : ∀ cursor span a s a' s', I cursor a s → cursor < len → s.disk.spanFor (offset + cursor)
      (len - cursor) = .ok span → body cursor (offset + cursor) span a s = .ok a' s' →
      I (cursor + span.len) a' s')
    (fuel cursor : ℕ) (a a' : α) (s s' : DiskState Id) (hfuel : len - cursor ≤ fuel)
    (hcursor : cursor ≤ len) (hI : I cursor a s)
    (h : forSpans offset len body fuel cursor a s = .ok a' s') : I len a' s' := by
  induction fuel generalizing cursor a s with
  | zero =>
    obtain rfl : cursor = len := by omega
    obtain ⟨rfl, rfl⟩ := pure_ok.mp h
    exact hI
  | succ fuel ih =>
    unfold forSpans at h
    split at h
    · next hlt =>
      obtain ⟨span, hspan, h⟩ := check_bind_ok.mp h
      obtain ⟨a₁, s₃, hrun, h⟩ := bind_ok.mp h
      -- Every span is nonempty and stays inside the request.
      obtain ⟨-, -, hle, hpos, -⟩ := spanFor_ok hspan
      exact ih _ _ _ (by omega) (by omega) (hbody _ _ _ _ _ _ hI hlt hspan hrun) h
    · next hge =>
      obtain rfl : cursor = len := by omega
      obtain ⟨rfl, rfl⟩ := pure_ok.mp h
      exact hI

structure SpanWithin (d : ChunkMappedDisk Id) (absolute : ℕ) (span : Span) : Prop where
  start : span.chunkIndex * d.chunkSize ≤ absolute
  stop : absolute + span.len ≤ span.chunkIndex * d.chunkSize + d.chunkSize
  offset : span.chunkOffset = absolute - span.chunkIndex * d.chunkSize
  pos : 0 < span.len
  within : absolute + span.len ≤ d.size

variable {absolute : ℕ} {span : Span}

omit [DecidableEq Id] in
lemma spanWithin_of_spanFor {remaining : ℕ} (h : d.spanFor absolute remaining = .ok span)
    (hpos : 0 < remaining) (hin : absolute + remaining ≤ d.size) : SpanWithin d absolute span := by
  obtain ⟨hstart, hstop, hle, hlen, hoff⟩ := spanFor_ok h
  exact ⟨hstart, hstop, hoff, hlen hpos, by omega⟩

omit [DecidableEq Id] in
lemma SpanWithin.lt_chunkCount (h : SpanWithin d absolute span) :
    span.chunkIndex < d.chunkCount := by
  rw [ChunkMappedDisk.lt_chunkCount]
  have := h.start
  have := h.pos
  have := h.within
  omega

omit [DecidableEq Id] in
lemma SpanWithin.holds {i : ℕ} (h : SpanWithin d absolute span) (hlo : absolute ≤ i)
    (hhi : i < absolute + span.len) : d.Holds span.chunkIndex i := by
  have := h.start
  have := h.stop
  have := h.within
  exact ⟨by omega, by omega, by omega⟩

-- ══ Reading

include hinj hsim in
lemma prefaultCasRange_ok (h : prefaultCasRange hash len offset s = .ok u s') :
    offset + len ≤ s.disk.size ∧ Sim hash s' G ∧ Frame s s' := by
  obtain ⟨_, hrange, h⟩ := check_bind_ok.mp h
  refine ⟨checkRange_ok hrange, ?_⟩
  refine forSpans_ok (I := fun _ _ t => Sim hash t G ∧ Frame s t) ?_ _ _ _ _ _ _ (by omega)
    (by omega) ⟨hsim, Frame.refl s⟩ h
  rintro cursor span _ t _ t' ⟨ht, hframe⟩ - - hrun
  rcases runIf_ok.mp hrun with ⟨-, hfault⟩ | ⟨-, rfl⟩
  · obtain ⟨-, ht', hframe', -⟩ := faultCasChunk_ok hinj ht hfault
    exact ⟨ht', hframe.trans hframe'⟩
  · exact ⟨ht, hframe⟩

include hinj hsim in
/-- **Reading one span.** Whatever the source, the bytes are those of the array. -/
theorem readSpan_ok
    (hspan : SpanWithin s.disk absolute span) (h : readSpan hash absolute span s = .ok data s') :
    data = slice G.now.byte absolute span.len ∧ Sim hash s' G ∧ Frame s s' := by
  have hc := hspan.lt_chunkCount
  replace h := getDisk_bind_ok.mp h
  have hshow := (hsim.chunk _ hc).shows
  unfold ChunkShows at hshow
  cases hsource : s.disk.source span.chunkIndex with
  | base =>
    simp only [hsource] at h hshow
    obtain ⟨rfl, hdisk, hfiles⟩ := FileBlockSource.readAt_ok h
    refine ⟨?_, hsim.congr hdisk hfiles, Frame.of_eq hdisk hfiles⟩
    exact slice_eq_iff.mpr fun i hlo hhi => hshow i (hspan.holds hlo hhi)
  | overlay | overlayClean =>
    simp only [hsource] at h hshow
    obtain ⟨fd, s₂, hfd, h⟩ := bind_ok.mp h
    obtain ⟨rfl, o, ho, rfl⟩ := overlayFd_ok hfd
    obtain ⟨rfl, hdisk, hfiles⟩ := readExact_ok h
    obtain ⟨o', ho', hshow⟩ := hshow
    obtain rfl : o = o' := Option.some.inj (ho.symm.trans ho')
    refine ⟨?_, hsim.congr hdisk hfiles, Frame.of_eq hdisk hfiles⟩
    exact slice_eq_iff.mpr fun i hlo hhi => hshow i (hspan.holds hlo hhi)
  | zero | zeroDirty =>
    simp only [hsource] at h hshow
    obtain ⟨rfl, rfl⟩ := pure_ok.mp h
    refine ⟨?_, hsim, Frame.refl _⟩
    rw [eq_slice_iff List.length_replicate]
    intro i hlo hhi
    rw [hshow i (hspan.holds hlo hhi), List.getD_replicate _ (by omega)]
  | cas =>
    simp only [hsource] at h
    obtain ⟨_, s₂, hfault, h⟩ := bind_ok.mp h
    obtain ⟨-, hsim₂, hframe, -, hdisk₂⟩ := faultCasChunk_ok hinj hsim hfault
    have hdisk₂ := hdisk₂ hsource
    have hshow₂ := (hsim₂.chunk span.chunkIndex (by rw [hdisk₂]; simpa using hc)).shows
    simp only [ChunkShows, hdisk₂, setSource_source_self hc, setSource_base] at hshow₂
    obtain ⟨rfl, hdisk, hfiles⟩ := FileBlockSource.readAt_ok h
    refine ⟨?_, hsim₂.congr hdisk hfiles, hframe.trans (Frame.of_eq hdisk hfiles)⟩
    exact slice_eq_iff.mpr fun i hlo hhi => hshow₂ i (hspan.holds hlo hhi)

include hinj hsim in
/-- **Reading.** A successful read returns the bytes of the array. -/
theorem readAt_ok (h : readAt hash len offset s = .ok data s') :
    offset + len ≤ G.now.size ∧ data = slice G.now.byte offset len ∧ Sim hash s' G ∧ Frame s s'
    := by
  obtain ⟨_, s₁, hpre, h⟩ := bind_ok.mp h
  obtain ⟨hin, hsim₁, hframe₁⟩ := prefaultCasRange_ok hinj hsim hpre
  rw [← hsim.size_eq] at hin
  refine ⟨hin, ?_⟩
  refine forSpans_ok (I := fun cursor buf t =>
    buf = slice G.now.byte offset cursor ∧ Sim hash t G ∧ Frame s t) ?_ _ _ _ _ _ _ (by omega)
    (by omega) ⟨rfl, hsim₁, hframe₁⟩ h
  rintro cursor span _ t buf t' ⟨rfl, ht, hframe⟩ hlt hspan hrun
  obtain ⟨target, hread, rfl⟩ := bind_pure_ok.mp hrun
  have hwithin := spanWithin_of_spanFor hspan (by omega) (by rw [← ht.size_eq]; omega)
  obtain ⟨rfl, ht', hframe'⟩ := readSpan_ok hinj ht hwithin hread
  exact ⟨slice_append _ _ _ _, ht', hframe.trans hframe'⟩

lemma length_readAt (h : readAt hash len offset s = .ok data s') : data.length = len := by
  obtain ⟨_, s₁, -, h⟩ := bind_ok.mp h
  refine forSpans_ok (I := fun cursor buf _ => buf.length = cursor) ?_ _ _ _ _ _ _ (by omega)
    (by omega) rfl h
  rintro cursor span buf t buf' t' hlen - - hrun
  obtain ⟨target, hread, rfl⟩ := bind_pure_ok.mp hrun
  suffices htarget : target.length = span.len by rw [List.length_append, hlen, htarget]
  replace hread := getDisk_bind_ok.mp hread
  cases hsource : t.disk.source span.chunkIndex with
  | base =>
    simp only [hsource] at hread
    rw [(FileBlockSource.readAt_ok hread).1, length_slice]
  | overlay | overlayClean =>
    simp only [hsource] at hread
    obtain ⟨fd, t₃, -, hread⟩ := bind_ok.mp hread
    rw [(readExact_ok hread).1, length_slice]
  | zero | zeroDirty =>
    simp only [hsource] at hread
    obtain ⟨rfl, -⟩ := pure_ok.mp hread
    exact List.length_replicate
  | cas =>
    simp only [hsource] at hread
    obtain ⟨_, t₃, -, hread⟩ := bind_ok.mp hread
    rw [(FileBlockSource.readAt_ok hread).1, length_slice]

include hinj hsim in
lemma readChunk_ok (h : readChunk hash c len s = .ok data s') :
    c < s.disk.chunkCount ∧ data = s.disk.chunkOf G.now c ∧ Sim hash s' G ∧ Frame s s' := by
  obtain ⟨chunkLen, hlen, h⟩ := check_bind_ok.mp h
  obtain ⟨heq, h⟩ := rejectIf_bind_ok.mp h
  obtain ⟨-, h⟩ := rejectIf_bind_ok.mp h
  obtain ⟨hc, hext⟩ := chunkLen_ok hlen
  obtain ⟨-, rfl, hsim', hframe⟩ := readAt_ok hinj hsim h
  refine ⟨hc, ?_, hsim', hframe⟩
  rw [not_not.mp heq, hext]
  rfl

-- ══ Writing

variable {o : Overlay} {files : ℕ → SparseFile}

omit [DecidableEq Id] in
lemma overlay_pwrite (h : Inv hash d files G) (ho : d.overlay = some o)
    (hin : ∀ i, absolute ≤ i → i < absolute + data.length → d.Holds c i) :
    (∀ i, ¬ d.Holds c i → (update files o.fd ((files o.fd).pwrite absolute data)
      d.base.fd).byte i = (files d.base.fd).byte i) ∧ ∀ o', d.overlay = some o' →
      (update files o.fd ((files o.fd).pwrite absolute data) o'.fd).size ≤ d.size ∧
      ∀ i, ¬ d.Holds c i → (update files o.fd ((files o.fd).pwrite absolute data)
        o'.fd).byte i = (files o'.fd).byte i := by
  constructor
  · intro i _
    rw [update_of_ne (Ne.symm (h.overlay_ne_base o ho))]
  · intro o' ho'
    obtain rfl : o = o' := Option.some.inj (ho.symm.trans ho')
    rw [update_self]
    constructor
    · have hsize := h.overlay_size o ho
      rcases Nat.eq_zero_or_pos data.length with hnil | hpos
      · simpa only [pwrite, hnil, if_true] using hsize
      · have := (hin (absolute + data.length - 1) (by omega) (by omega)).lt_size
        exact SparseFile.pwrite_size_le _ _ _ _ hsize (by omega)
    · intro i hi
      refine pwrite_byte_out _ _ _ _ ?_
      by_contra hcon
      exact hi (hin i (by omega) (by omega))

omit [DecidableEq Id] in
lemma Inv.seed (h : Inv hash d files G) (hc : c < d.chunkCount)
    (ho : d.overlay = some o) (hsource : d.source c ≠ .overlay ∧ d.source c ≠ .overlayClean)
    (hlen : data.length = chunkExtent d.chunkSize d.size c) :
    Inv hash d (update files o.fd ((files o.fd).pwrite (c * d.chunkSize) data)) G := by
  have hin : ∀ i, c * d.chunkSize ≤ i → i < c * d.chunkSize + data.length → d.Holds c i := by
    intro i hlo hhi
    exact inChunk_iff.mpr ⟨hlo, by omega⟩
  obtain ⟨hbase, hover⟩ := overlay_pwrite h ho hin
  have hold := h.chunk c hc
  have := h.setSource (d.source c) hbase hover rfl (fun _ _ => rfl) ?_
  · rwa [setSource_self] at this
  · rw [setSource_self]
    refine ⟨?_, hold.agrees, hold.clean, hold.based, hold.unread⟩
    have hshow := (h.chunk c hc).shows
    have hne := h.overlay_ne_base o ho
    unfold ChunkShows at hshow ⊢
    cases hs : d.source c with
    | base =>
      rw [hs] at hshow
      intro i hi
      rw [update_of_ne (Ne.symm hne)]
      exact hshow i hi
    | overlay => exact absurd hs hsource.1
    | overlayClean => exact absurd hs hsource.2
    | zero | zeroDirty | cas =>
      rw [hs] at hshow
      exact hshow

include hinj hsim in
/-- **Seeding.** After seeding, the overlay holds the chunk's bytes; what the disk stands for is
unchanged. -/
theorem seedChunk_ok (ho : s.disk.overlay = some o)
    (hsource : s.disk.source c ≠ .overlay ∧ s.disk.source c ≠ .overlayClean)
    (h : seedChunk hash c o.fd s = .ok u s') : Sim hash s' G ∧ Frame s s' ∧
      ∀ i, s.disk.Holds c i → (s'.host.files o.fd).byte i = G.now.byte i := by
  obtain ⟨len, hlen, h⟩ := check_bind_ok.mp h
  obtain ⟨hc, rfl⟩ := chunkLen_ok hlen
  obtain ⟨-, h⟩ := rejectIf_bind_ok.mp h
  -- All branches end in a write of the chunk of `A` to the overlay.
  have hwrite : ∀ (t t' : DiskState Id) (data : List UInt8) (v : Unit), Sim hash t G →
      Frame s t → t.disk.size = s.disk.size → t.disk.source c ≠ .overlay →
      t.disk.source c ≠ .overlayClean → data = s.disk.chunkOf G.now c →
      writeExact o.fd data (c * s.disk.chunkSize) t = .ok v t' →
      Sim hash t' G ∧ Frame s t' ∧
        ∀ i, s.disk.Holds c i → (t'.host.files o.fd).byte i = G.now.byte i := by
    intro t t' data v ht hframe hsize h₁ h₂ hdata hrun
    obtain ⟨hdisk, hfiles⟩ := writeExact_ok hrun
    have hcs := hframe.chunkSize
    have hot : t.disk.overlay = some o := hframe.overlay.trans ho
    have hdlen : data.length = chunkExtent t.disk.chunkSize t.disk.size c := by
      rw [hdata, hcs, hsize]
      exact length_chunkSlice
    have hcount : c < t.disk.chunkCount := by
      rw [ChunkMappedDisk.lt_chunkCount, hcs, hsize, ← ChunkMappedDisk.lt_chunkCount]
      exact hc
    refine ⟨?_, hframe.trans ?_, ?_⟩
    · unfold Sim
      rw [hdisk, hfiles, ← hcs]
      exact Inv.seed ht hcount hot ⟨h₁, h₂⟩ hdlen
    · refine ⟨hdisk ▸ SameDisk.refl _, fun _ h => hdisk ▸ h, ?_, ?_⟩
      · intro fd _ hfd
        rw [hfiles, update_of_ne (hfd o hot)]
      · intro _
        rw [hfiles, update_of_ne (Ne.symm (ht.overlay_ne_base o hot))]
    · intro i hi
      rw [hfiles, update_self]
      exact pwrite_chunk_in hdata hi
  have hshow := (hsim.chunk c hc).shows
  unfold ChunkShows at hshow
  cases hs : s.disk.source c with
  | base =>
    simp only [hs] at h hshow
    obtain ⟨buf, s₄, hread, h⟩ := bind_ok.mp h
    obtain ⟨rfl, hdisk, hfiles⟩ := FileBlockSource.readAt_ok hread
    refine hwrite _ _ _ _ (hsim.congr hdisk hfiles) (Frame.of_eq hdisk hfiles) (by rw [hdisk])
      (by rw [hdisk, hs]; decide) (by rw [hdisk, hs]; decide) ?_ h
    exact chunkSlice_eq_iff.mpr hshow
  | overlay => exact absurd hs hsource.1
  | overlayClean => exact absurd hs hsource.2
  | zero | zeroDirty =>
    simp only [hs] at h hshow
    refine hwrite _ _ _ _ hsim (Frame.refl _) rfl (by rw [hs]; decide) (by rw [hs]; decide) ?_ h
    rw [ChunkMappedDisk.chunkOf, eq_chunkSlice_iff List.length_replicate]
    intro i hi
    have := inChunk_iff.mp hi
    rw [hshow i hi, List.getD_replicate _ (by omega)]
  | cas =>
    simp only [hs] at h
    obtain ⟨_, s₄, hfault, h⟩ := bind_ok.mp h
    obtain ⟨-, hsim₄, hframe, -, hdisk₄⟩ := faultCasChunk_ok hinj hsim hfault
    have hdisk₄ := hdisk₄ hs
    have hshow₄ := (hsim₄.chunk c (by rw [hdisk₄]; simpa using hc)).shows
    simp only [ChunkShows, hdisk₄, setSource_source_self hc, setSource_base] at hshow₄
    obtain ⟨buf, s₅, hread, h⟩ := bind_ok.mp h
    obtain ⟨rfl, hdisk, hfiles⟩ := FileBlockSource.readAt_ok hread
    have hbase : s₅.disk.source c = .base := by
      rw [hdisk, hdisk₄, setSource_source_self hc]
    refine hwrite _ _ _ _ (hsim₄.congr hdisk hfiles) (hframe.trans (Frame.of_eq hdisk hfiles))
      (by rw [hdisk, hdisk₄]; rfl) (by rw [hbase]; decide) (by rw [hbase]; decide) ?_ h
    exact chunkSlice_eq_iff.mpr hshow₄

omit [DecidableEq Id] in
lemma fullChunkWrite_ok {full : Bool} (hspan : SpanWithin d absolute span)
    (h : fullChunkWrite d span = .ok full) (hfull : full = true) :
    absolute = span.chunkIndex * d.chunkSize ∧
      span.len = chunkExtent d.chunkSize d.size span.chunkIndex := by
  subst hfull
  unfold fullChunkWrite at h
  split at h
  · next hzero =>
    obtain ⟨chunkLen, hlen, h⟩ := Check.bind_ok.mp h
    obtain ⟨-, rfl⟩ := chunkLen_ok hlen
    have hoff := hspan.offset
    have hstart := hspan.start
    refine ⟨by omega, ?_⟩
    simpa [pure, Except.pure] using h
  · simp [pure, Except.pure] at h

omit [DecidableEq Id] in
lemma Inv.write (h : Inv hash d files G) (hc : c < d.chunkCount)
    (ho : d.overlay = some o) (hin : ∀ i, absolute ≤ i → i < absolute + data.length → d.Holds c i)
    (hrest : ∀ i, d.Holds c i → i < absolute ∨ absolute + data.length ≤ i → (files o.fd).byte i =
      G.now.byte i) : Inv hash (d.setSource c .overlay)
      (update files o.fd ((files o.fd).pwrite absolute data))
      { G with now := G.now.pwrite absolute data } := by
  obtain ⟨hbase, hover⟩ := overlay_pwrite h ho hin
  have hsource := setSource_source_self hc .overlay
  refine h.setSource .overlay hbase hover ?_ ?_ (ChunkOk.of_dirty (by rw [hsource]; rfl) ?_)
  · rcases Nat.eq_zero_or_pos data.length with hnil | hpos
    · simp only [pwrite, hnil, if_true]
    · have := (hin (absolute + data.length - 1) (by omega) (by omega)).lt_size
      rw [pwrite_size_of_le _ _ _ (by rw [h.size_eq]; omega)]
  · intro i hi
    refine pwrite_byte_out _ _ _ _ ?_
    by_contra hcon
    exact hi (hin i (by omega) (by omega))
  · simp only [ChunkShows, hsource]
    refine ⟨o, ho, fun i hi => ?_⟩
    rw [update_self]
    by_cases hrange : absolute ≤ i ∧ i < absolute + data.length
    · rw [pwrite_byte_in _ _ _ _ hrange.1 hrange.2,
        pwrite_byte_in _ _ _ _ hrange.1 hrange.2]
    · rw [pwrite_byte_out _ _ _ _ (by omega), pwrite_byte_out _ _
        _ _ (by omega)]
      exact hrest i hi (by omega)

include hinj hsim in
/-- **Writing one span.** The array changes exactly in the written range. -/
theorem writeSpan_ok (ho : s.disk.overlay = some o) (hspan : SpanWithin s.disk absolute span)
    (hlen : data.length = span.len) (h : writeSpan hash o.fd data absolute span s = .ok u s') :
    Sim hash s' { G with now := G.now.pwrite absolute data } ∧ Frame s s' := by
  have hc := hspan.lt_chunkCount
  obtain ⟨full, hfull, h⟩ := check_bind_ok.mp h
  obtain ⟨_, s₃, hseed, h⟩ := bind_ok.mp h
  obtain ⟨_, s₄, hclean, h⟩ := bind_ok.mp h
  obtain ⟨_, s₅, hwrite, h⟩ := bind_ok.mp h
  obtain ⟨hdisk₅, hfiles₅⟩ := writeExact_ok hwrite
  cases modifyDisk_ok.mp h
  -- After the optional seeding, the overlay holds all of the chunk that the span does not cover.
  have hseeded : Sim hash s₃ G ∧ Frame s s₃ ∧ ∀ i, s.disk.Holds span.chunkIndex i →
      i < absolute ∨ absolute + data.length ≤ i → (s₃.host.files o.fd).byte i = G.now.byte i := by
    rcases runIf_ok.mp hseed with ⟨⟨h₁, h₂, -⟩, hseed⟩ | ⟨hskip, rfl⟩
    · obtain ⟨hsim₃, hframe, hbytes⟩ := seedChunk_ok hinj hsim ho ⟨h₁, h₂⟩ hseed
      exact ⟨hsim₃, hframe, fun i hi _ => hbytes i hi⟩
    · refine ⟨hsim, Frame.refl _, fun i hi hout => ?_⟩
      by_cases hsource : s.disk.source span.chunkIndex = .overlay ∨
          s.disk.source span.chunkIndex = .overlayClean
      · have hshow := (hsim.chunk _ hc).shows
        unfold ChunkShows at hshow
        obtain ⟨o', ho', hshow⟩ : ∃ o', s.disk.overlay = some o' ∧
            ∀ i, s.disk.Holds span.chunkIndex i → (s.host.files o'.fd).byte i = G.now.byte i := by
          rcases hsource with hsource | hsource <;> simpa only [hsource] using hshow
        obtain rfl : o = o' := Option.some.inj (ho.symm.trans ho')
        exact hshow i hi
      · obtain ⟨habs, hext⟩ := fullChunkWrite_ok hspan hfull (by
          by_contra hcon
          exact hskip ⟨fun h => hsource (.inl h), fun h => hsource (.inr h), by simpa using hcon⟩)
        have := inChunk_iff.mp hi
        omega
  obtain ⟨hsim₃, hframe, hrest⟩ := hseeded
  have hsize : s₃.disk.size = s.disk.size := by rw [← hsim₃.size_eq, hsim.size_eq]
  have hholds : ∀ i, s₃.disk.Holds span.chunkIndex i ↔ s.disk.Holds span.chunkIndex i := by
    intro i
    simp only [ChunkMappedDisk.Holds, hsize, hframe.chunkSize]
  have hlast : s₅.disk.setSource span.chunkIndex .overlay =
      s₃.disk.setSource span.chunkIndex .overlay ∧ s₄.host.files = s₃.host.files := by
    rcases runIf_ok.mp hclean with ⟨-, hclean⟩ | ⟨-, rfl⟩
    · cases modifyDisk_ok.mp hclean
      exact ⟨by rw [hdisk₅, ChunkMappedDisk.setSource_setSource], rfl⟩
    · exact ⟨by rw [hdisk₅], rfl⟩
  have ho₃ : s₃.disk.overlay = some o := hframe.overlay.trans ho
  constructor
  · unfold Sim
    simp only [hlast.1, hfiles₅, hlast.2]
    refine Inv.write hsim₃ ?_ ho₃ ?_ ?_
    · rw [ChunkMappedDisk.lt_chunkCount, hframe.chunkSize, hsize, ← ChunkMappedDisk.lt_chunkCount]
      exact hc
    · intro i hlo hhi
      exact (hholds i).mpr (hspan.holds hlo (by omega))
    · intro i hi hout
      exact hrest i ((hholds i).mp hi) hout
  · refine hframe.trans ⟨by rw [hlast.1]; exact SameDisk.setSource _ _ _, ?_, ?_, ?_⟩
    · intro c' hc'
      rw [hlast.1] at hc'
      exact setSource_unread (by decide) hc'
    · intro fd _ hfd
      simp only [hfiles₅, hlast.2]
      rw [update_of_ne (hfd o ho₃)]
    · intro _
      simp only [hfiles₅, hlast.2]
      rw [update_of_ne (Ne.symm (hsim₃.overlay_ne_base o ho₃))]

include hinj hsim in
/-- **Writing.** A successful write changes the array in the written range and nowhere else. -/
theorem writeAt_ok {buf : List UInt8} (h : writeAt hash buf offset s = .ok u s') :
    offset + buf.length ≤ G.now.size ∧ Sim hash s' { G with now := G.now.pwrite offset buf } ∧
    Frame s s' := by
  obtain ⟨fd, s₁, hfd, h⟩ := bind_ok.mp h
  obtain ⟨rfl, o, ho, rfl⟩ := overlayFd_ok hfd
  replace h := getDisk_bind_ok.mp h
  obtain ⟨_, hrange, h⟩ := check_bind_ok.mp h
  have hin := checkRange_ok hrange
  rw [← hsim.size_eq] at hin
  refine ⟨hin, ?_⟩
  -- Invariant: the bytes before the cursor have been written.
  have hloop := forSpans_ok (I := fun cursor _ t =>
    Sim hash t { G with now := G.now.pwrite offset (buf.take cursor) } ∧ Frame s t)
      ?_ _ _ _ _ _ _ (by omega)
    (by omega) ⟨by simpa using hsim, Frame.refl s⟩ h
  · simpa using hloop
  rintro cursor span _ t _ t' ⟨ht, hframe⟩ hlt hspan hrun
  have hsize : (G.now.pwrite offset (buf.take cursor)).size = G.now.size :=
    pwrite_size_of_le _ _ _ (by simp; omega)
  have hwithin := spanWithin_of_spanFor hspan (by omega) (by rw [← ht.size_eq, hsize]; omega)
  obtain ⟨-, -, hle, -⟩ := spanFor_ok hspan
  obtain ⟨ht', hframe'⟩ := writeSpan_ok hinj ht (hframe.overlay.trans ho) hwithin
    (by simp; omega) hrun
  refine ⟨?_, hframe.trans hframe'⟩
  have happend := G.now.pwrite_append offset (buf.take cursor) ((buf.drop cursor).take span.len)
  rw [List.length_take_of_le (by omega), ← List.take_add] at happend
  rwa [happend] at ht'

end SporeVM
