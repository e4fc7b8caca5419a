import SporeVM.Disk.Histories

/-!
# Growing a disk, in full

`growKnownZero` moves a partial tail chunk into the overlay, lengthens the overlay file and only
then the disk. Each of the host calls may fail, a write after part of its data. A failure leaves
size, source map and array as they were, because all that was written is a part of the tail chunk
over itself. After a success the tail chunk is longer than any data the old digests stand for, so
no index published from then on records one of them for it.
-/

namespace SporeVM

open Lib
open Lib.EState (bind_ok)

variable {Id : Type} [DecidableEq Id] {hash : List UInt8 → Id}
  {stringify : DiskIndex Id → List UInt8}

omit [DecidableEq Id] in
lemma Sound.baselineId_eq {s : DiskState Id} {G : Contents} (h : Sound hash s G) {c : ℕ} {id : Id}
    (hid : s.disk.baselineId c = some id) :
    id = hash (chunkSlice s.disk.chunkSize G.clean.size G.clean.byte c) := by
  unfold ChunkMappedDisk.baselineId at hid
  cases hb : s.disk.currentBaseline with
  | none => simp [hb] at hid
  | some b =>
    simp only [hb] at hid
    obtain ⟨index, hcs, hchunks, hdenotes⟩ := h.grounded.indexed b hb
    rw [DigestIndex.get_eq_lookupDigest (h.sim.sorted b hb), ← hchunks] at hid
    rw [← hcs, hdenotes.size]
    exact (hdenotes.digest _ (mem_of_lookupDigest hid)).symm

section Later

variable (hinj : Function.Injective hash)

include hinj

/-- An index published later holds no digest of shorter data for a chunk that was longer before. -/
theorem published_id_ne {t t' u : DiskState Id} {F K : Contents} {dir : String}
    {device : RootfsDevice} {quiesced : Bool} {disk : SporeDisk Id} {stats : SnapshotStats}
    (hsound : Sound hash t F) (hlater : Relation.ReflTransGen (Follows hash stringify)
      (t, F) (u, K))
    (hrun : snapshotIndexWithStats hash stringify dir device quiesced u = .ok (disk, stats) t')
    {c : ℕ} (data : List UInt8) (hlen : data.length < chunkExtent t.disk.chunkSize t.disk.size c) :
    ∃ index, t'.host.indexes dir disk.base = some index ∧
      ∀ entry ∈ index.chunks, entry.logicalChunk = c → entry.id ≠ hash data := by
  obtain ⟨hu, hcs, hsize⟩ := Follows.later hinj hlater hsound
  obtain ⟨⟨index, hpublished, hdenotes, -, -, -, -, hindex⟩, -⟩ :=
    snapshotIndexWithStats_ok hinj hu.sim hrun
  refine ⟨index, hpublished, fun entry hentry hchunk hid => ?_⟩
  have hdata := hinj ((hdenotes.digest entry hentry).trans hid)
  have hlogical : index.logicalSize = u.disk.size := by rw [← hdenotes.size, hu.sim.size_eq]
  have hlength := congrArg List.length hdata
  rw [length_chunkSlice, hindex, hlogical, hchunk, hcs] at hlength
  exact absurd hlength (Nat.ne_of_gt (hlen.trans_le (chunkExtent_mono hsize)))

/-- **Growth**, at any point of a disk's history and whatever the host calls do. -/
theorem growKnownZero_grows_or_keeps {s : DiskState Id} {G : Contents}
    (h : History hash stringify s G) (newSize : ℕ) :
    (∀ e s', growKnownZero hash newSize s = .error e s' →
      s'.disk.size = s.disk.size ∧ s'.disk.sources = s.disk.sources ∧
        ∃ A, Shows hash s A ∧ Shows hash s' A) ∧
    ∀ u s', growKnownZero hash newSize s = .ok u s' →
      (∃ A A', Shows hash s A ∧ Shows hash s' A' ∧ A'.size = newSize ∧ A.size ≤ newSize ∧
        (∀ i, i < A.size → A'.byte i = A.byte i) ∧ (∀ i, A.size ≤ i → A'.byte i = 0)) ∧
      (s.disk.size % s.disk.chunkSize ≠ 0 → s.disk.size < newSize →
        ∀ t K, Relation.ReflTransGen (Follows hash stringify)
            (s', ((Op.growKnownZero newSize).apply G).2) (t, K) →
          ∀ dir device quiesced disk stats t',
            snapshotIndexWithStats hash stringify dir device quiesced t = .ok (disk, stats) t' →
            ∃ index, t'.host.indexes dir disk.base = some index ∧
              ∀ entry ∈ index.chunks, entry.logicalChunk = s.disk.chunkCount - 1 →
                entry.id ≠ hash (s.disk.chunkOf G.now (s.disk.chunkCount - 1)) ∧
                some entry.id ≠ s.disk.baselineId (s.disk.chunkCount - 1)) := by
  have hsound := h.sound hinj
  constructor
  · intro e s' hrun
    have hkept : Unmoved hash s G s' :=
      EState.Triple.error (growKnownZero_errors hinj newSize) (Unmoved.refl hsound.sim) hrun
    obtain ⟨b, hdisk⟩ := hkept.disk
    exact ⟨by rw [hdisk], by rw [hdisk], G.now, hsound.sim.shows, hkept.sim.shows⟩
  · intro u s' hrun
    obtain ⟨hle, hsim, hframe⟩ := growKnownZero_ok hinj hsound.sim hrun
    refine ⟨⟨G.now, G.now.ftruncate newSize, hsound.sim.shows, hsim.shows,
      SparseFile.ftruncate_size _ _, hle, fun i hi => ?_, fun i hi => ?_⟩, ?_⟩
    · exact SparseFile.ftruncate_byte_of_lt _ (hi.trans_le hle)
    · rw [SparseFile.ftruncate_byte_of_le _ hle]
      exact G.now.zero_past_end i hi
    · intro htail hgrew t K hlater dir device quiesced disk stats t' hsnapshot
      have hexec : (Op.growKnownZero newSize).exec hash stringify s = .ok [] s' :=
        bind_ok.mpr ⟨u, s', hrun, rfl⟩
      have hsound' := hsound.exec hinj hexec
      have hsize : s'.disk.size = newSize := by
        rw [← hsim.size_eq]
        exact SparseFile.ftruncate_size _ _
      -- The grown tail chunk is longer than it was, and no digest on record is of longer data.
      have hcount : s.disk.chunkCount = divCeil s.disk.size s.disk.chunkSize :=
        s.disk.sources_length
      obtain ⟨hend, hextent⟩ := chunkExtent_last s.disk.chunkSize_pos htail
        (congrArg (· - 1) hcount)
      have hlonger : s.disk.size % s.disk.chunkSize <
          chunkExtent s'.disk.chunkSize s'.disk.size (s.disk.chunkCount - 1) := by
        have hlt := Nat.mod_lt s.disk.size s.disk.chunkSize_pos
        rw [hframe.footprint.chunkSize, hsize]
        unfold chunkExtent
        omega
      have hnow := published_id_ne hinj hsound' hlater hsnapshot
        (s.disk.chunkOf G.now (s.disk.chunkCount - 1)) (by
          rw [ChunkMappedDisk.chunkOf, length_chunkSlice, hextent]
          exact hlonger)
      have hold := published_id_ne hinj hsound' hlater hsnapshot
        (chunkSlice s.disk.chunkSize G.clean.size G.clean.byte (s.disk.chunkCount - 1)) (by
          rw [length_chunkSlice]
          exact ((chunkExtent_mono hsound.sim.clean_size).trans_eq hextent).trans_lt hlonger)
      obtain ⟨index, hindex, hnow⟩ := hnow
      obtain ⟨index', hindex', hold⟩ := hold
      cases hindex.symm.trans hindex'
      refine ⟨index, hindex, fun entry hentry hchunk => ⟨hnow entry hentry hchunk, fun hid => ?_⟩⟩
      exact hold entry hentry hchunk (hsound.baselineId_eq hid.symm)

end Later

/-- The sample disk of three bytes grows to five. -/
theorem growKnownZero_grows_or_keeps_sample :
    ∃ s s' G, History id sampleText s G ∧ growKnownZero id 5 s = .ok () s' ∧
      ∃ A A', Shows id s A ∧ Shows id s' A' ∧ A'.size = 5 ∧ A.size ≤ 5 ∧
        (∀ i, i < A.size → A'.byte i = A.byte i) ∧ ∀ i, A.size ≤ i → A'.byte i = 0 := by
  have hreply : (EState.replyFrom sampleInit (do
      attachCasIndex "cache" (sampleIndex [1, 2, 3])
      growKnownZero id 5)) = some () := by
    decide +kernel
  obtain ⟨s, s', hopen, hgrow⟩ := opened_sample hreply
  have hhistory : History id sampleText s (Contents.fresh (SparseFile.ofList [1, 2, 3])) :=
    ⟨sampleHost, s, _, hopen, .refl⟩
  have hgrown := (growKnownZero_grows_or_keeps Function.injective_id hhistory 5).2 () s' hgrow
  exact ⟨s, s', _, hhistory, hgrow, hgrown.1⟩

end SporeVM
