import SporeVM.Disk.Snapshot

/-!
# Snapshots publish the contents of the disk

The snapshot loop decides every chunk rightly: a chunk that was read by its bytes, a clean chunk by
the baseline entry that the simulation relation knows to describe it. So the published index denotes
the contents, and installing it as the next baseline keeps the relation.
-/

namespace SporeVM

open Lib
open Lib.EState (runIf bind_ok pure_ok rejectIf_ok runIf_ok modify_ok mapError_ok foldlM_range_ok
  check_bind_ok get_bind_ok rejectIf_bind_ok bind_pure_ok)
open Function

variable {Id : Type}

-- ══ Commands that leave disk and files alone

section Quiet

variable [DecidableEq Id] {hash : List UInt8 → Id} {s s' : DiskState Id}

def Quiet (s s' : DiskState Id) : Prop := s'.disk = s.disk ∧ s'.host.files = s.host.files

omit [DecidableEq Id] in
lemma Quiet.trans {s'' : DiskState Id} (h : Quiet s s') (h' : Quiet s' s'') : Quiet s s'' :=
  ⟨h'.1.trans h.1, h'.2.trans h.2⟩

variable {u : Unit}

omit [DecidableEq Id] in
lemma syncDir_ok (h : syncDir s = .ok u s') : Quiet s s' := by
  obtain ⟨fault, s₁, hfault, h⟩ := bind_ok.mp h
  obtain ⟨-, rfl⟩ := rejectIf_ok.mp h
  exact nextFault_ok hfault

omit [DecidableEq Id] in
lemma runIf_syncDir_ok {p : Prop} [Decidable p] (h : runIf p syncDir s = .ok u s') :
    Quiet s s' := by
  rcases runIf_ok.mp h with ⟨-, h⟩ | ⟨-, rfl⟩
  · exact syncDir_ok h
  · exact ⟨rfl, rfl⟩

lemma writeObjectIfMissing_ok {root : String} {id : Id} {data : List UInt8}
    (h : writeObjectIfMissing root id data s = .ok u s') : Quiet s s' := by
  obtain ⟨fault, s₁, hfault, h⟩ := bind_ok.mp h
  obtain ⟨-, h⟩ := rejectIf_bind_ok.mp h
  replace h := get_bind_ok.mp h
  refine Quiet.trans (nextFault_ok hfault) ?_
  cases hexisting : s₁.host.objects root id with
  | some existing =>
    simp only [hexisting] at h
    obtain ⟨-, rfl⟩ := rejectIf_ok.mp h
    exact ⟨rfl, rfl⟩
  | none =>
    simp only [hexisting] at h
    exact installObject_ok h

lemma publishParentObject_ok {parentRoot dir : String} {id : Id} {expectedSize : ℕ}
    {outcome : ParentObjectPublication}
    (h : publishParentObject hash parentRoot dir id expectedSize s = .ok outcome s') :
    Quiet s s' := by
  replace h := get_bind_ok.mp h
  cases hsource : s.host.objects parentRoot id with
  | none => simp [hsource] at h
  | some source =>
    simp only [hsource] at h
    obtain ⟨-, h⟩ := rejectIf_bind_ok.mp h
    obtain ⟨fault, s₃, hfault, h⟩ := bind_ok.mp h
    refine Quiet.trans (nextFault_ok hfault) ?_
    cases fault with
    | none =>
      cases hdest : s.host.objects dir id with
      | none =>
        simp only [hdest] at h
        obtain ⟨_, hinstall, -⟩ := bind_pure_ok.mp h
        exact installObject_ok hinstall
      | some existing =>
        simp only [hdest] at h
        obtain ⟨-, h⟩ := rejectIf_bind_ok.mp h
        obtain ⟨-, rfl⟩ := pure_ok.mp h
        exact ⟨rfl, rfl⟩
    | some n =>
      obtain ⟨data, -, h⟩ := check_bind_ok.mp h
      obtain ⟨_, hwrite, -⟩ := bind_pure_ok.mp h
      exact writeObjectIfMissing_ok hwrite

lemma fetchAll_ok (objects : List (Id × ℕ)) (h : fetchAll hash objects s = .ok u s') :
    Quiet s s' := by
  induction objects generalizing s with
  | nil =>
    obtain ⟨-, rfl⟩ := pure_ok.mp h
    exact ⟨rfl, rfl⟩
  | cons object objects ih =>
    replace h := get_bind_ok.mp h
    split at h
    · exact ih h
    · cases hdata : verifyObject hash (s.host.fetcher.get object.1) object.1 object.2 with
      | error e => simp [hdata] at h
      | ok data =>
        simp only [hdata] at h
        obtain ⟨_, s₂, hinstall, h⟩ := bind_ok.mp h
        exact Quiet.trans (installObject_ok hinstall) (ih h)

lemma fetchFromStore_ok (h : fetchFromStore hash s = .ok u s') : Quiet s s' := by
  rcases runIf_ok.mp h with ⟨-, h⟩ | ⟨-, rfl⟩
  · exact fetchAll_ok _ h
  · exact ⟨rfl, rfl⟩

lemma publishReused_ok {parentRoot dir : String} {id : Id} {len : ℕ} {v v' : SnapshotLoop Id}
    (h : publishReused hash parentRoot dir id len v s = .ok v' s') :
    Quiet s s' ∧ v'.draft = v.draft ∧ v'.parentDigestCursor = v.parentDigestCursor ∧
      v'.parallelBatch = v.parallelBatch ∧ v'.stats = v.stats := by
  unfold publishReused at h
  split at h
  · obtain ⟨rfl, rfl⟩ := pure_ok.mp h
    exact ⟨⟨rfl, rfl⟩, rfl, rfl, rfl, rfl⟩
  · obtain ⟨outcome, hpublish, rfl⟩ := bind_pure_ok.mp h
    exact ⟨publishParentObject_ok hpublish, rfl, rfl, rfl, rfl⟩

lemma writeIndexDurable_ok {dir : String} {digest : Id} {index : DiskIndex Id}
    (h : writeIndexDurable dir digest index s = .ok u s') :
    Quiet s s' ∧ s'.host.indexes dir digest = some index := by
  obtain ⟨fault, s₁, hfault, h⟩ := bind_ok.mp h
  obtain ⟨-, h⟩ := rejectIf_bind_ok.mp h
  replace h := get_bind_ok.mp h
  have hquiet : Quiet s s₁ := nextFault_ok hfault
  cases hexisting : s₁.host.indexes dir digest with
  | some existing =>
    simp only [hexisting] at h
    obtain ⟨hsame, rfl⟩ := rejectIf_ok.mp h
    exact ⟨hquiet, by rw [hexisting, not_not.mp hsame]⟩
  | none =>
    simp only [hexisting] at h
    cases modify_ok.mp h
    refine ⟨hquiet.trans ⟨rfl, rfl⟩, ?_⟩
    simp only [update_self]

end Quiet

-- ══ The snapshot loop

section Refine

variable [DecidableEq Id] {hash : List UInt8 → Id} {s s' t t' : DiskState Id} {G : Contents}

section

omit [DecidableEq Id]

lemma Sim.quiet (h : Sim hash s G) (hquiet : Quiet s s') : Sim hash s' G :=
  h.congr hquiet.1 hquiet.2

lemma Quiet.frame (h : Quiet s s') : Frame s s' := Frame.of_eq h.1 h.2

lemma Frame.chunkOf (hframe : Frame s t) (hs : Sim hash s G) (ht : Sim hash t G) (A : SparseFile)
    (c : ℕ) : t.disk.chunkOf A c = s.disk.chunkOf A c := by
  rw [ChunkMappedDisk.chunkOf, ChunkMappedDisk.chunkOf, hframe.chunkSize, ← ht.size_eq, hs.size_eq]

end

variable {dir : String} {c : ℕ} (hinj : Injective hash) (hsim : Sim hash s G)

include hinj hsim in
lemma sealSnapshotChunk_ok {result : SealResult Id}
    (h : sealSnapshotChunk hash dir c s = .ok result s') :
    result = sealBytes hash (s.disk.chunkOf G.now c) ∧ Sim hash s' G ∧ Frame s s' := by
  obtain ⟨len, -, h⟩ := check_bind_ok.mp h
  obtain ⟨data, s₃, hread, h⟩ := bind_ok.mp h
  obtain ⟨-, rfl, hsim₃, hframe₃⟩ := readChunk_ok hinj hsim hread
  cases hseal : sealBytes hash (s.disk.chunkOf G.now c) with
  | zero =>
    simp only [hseal] at h
    obtain ⟨rfl, rfl⟩ := pure_ok.mp h
    exact ⟨rfl, hsim₃, hframe₃⟩
  | data id =>
    simp only [hseal] at h
    obtain ⟨_, hwrite, rfl⟩ := bind_pure_ok.mp h
    have hquiet := writeObjectIfMissing_ok hwrite
    exact ⟨rfl, hsim₃.quiet hquiet, hframe₃.trans hquiet.frame⟩

include hinj in
lemma sealSnapshotChunksParallel_ok {indices : List ℕ}
    {results : List (ℕ × SealResult Id)} (hsim : Sim hash s G)
    (h : sealSnapshotChunksParallel hash dir indices s = .ok results s') :
    (Sim hash s' G ∧ Frame s s') ∧
      ∀ p ∈ results, p.2 = sealBytes hash (s.disk.chunkOf G.now p.1) := by
  refine EState.runAll_ok (I := fun t => Sim hash t G ∧ Frame s t) ?_ _ _ _ _
    ⟨hsim, Frame.refl s⟩ (mapError_ok.mp h)
  rintro c t p t' ⟨ht, hframe⟩ hrun
  obtain ⟨result, hseal, rfl⟩ := bind_pure_ok.mp hrun
  obtain ⟨hresult, ht', hframe'⟩ := sealSnapshotChunk_ok hinj ht hseal
  rw [hframe.chunkOf hsim ht] at hresult
  exact ⟨⟨ht', hframe.trans hframe'⟩, hresult⟩

/-- What the loop has established about its decision for chunk `c`. A full scan decides by the bytes
alone; an unread object always keeps a digest. -/
structure Decided (hash : List UInt8 → Id) (s t : DiskState Id) (G : Contents) (c : ℕ)
    (result : SealResult Id) : Prop where
  describes : result.Describes hash (s.disk.chunkOf G.now c)
  fullScan : s.disk.canReuseParentIndex = false → result = sealBytes hash (s.disk.chunkOf G.now c)
  unread : t.disk.source c = .cas → result ≠ .zero

omit [DecidableEq Id] in
lemma Decided.of_sealBytes (hcas : t.disk.source c ≠ .cas) :
    Decided hash s t G c (sealBytes hash (s.disk.chunkOf G.now c)) :=
  ⟨describes_sealBytes _ _, fun _ => rfl, fun h => absurd h hcas⟩

omit [DecidableEq Id] in
lemma Decided.of_zero (hzero : ∀ i, s.disk.Holds c i → G.now.byte i = 0)
    (hcas : t.disk.source c ≠ .cas) : Decided hash s t G c .zero := by
  have hall : (s.disk.chunkOf G.now c).all (· == 0) = true := chunkSlice_all_zero.mpr hzero
  exact ⟨hall, fun _ => by rw [sealBytes, if_pos hall], fun h => absurd h hcas⟩

structure LoopInv (hash : List UInt8 → Id) (s : DiskState Id) (G : Contents)
    (digests : List (DiskIndexChunk Id)) (n : ℕ) (v : SnapshotLoop Id) (t : DiskState Id) :
    Prop where
  sim : Sim hash t G
  frame : Frame s t
  cursor : DigestIndex.CursorBelow digests v.parentDigestCursor n
  batch : ∀ rest ∈ v.parallelBatch, ∀ p ∈ rest,
    p.2 = sealBytes hash (s.disk.chunkOf G.now p.1)
  fullScan : v.stats.fullScan = !s.disk.canReuseParentIndex
  decided : ∃ decision, v.draft = draftOf decision n ∧
    ∀ c, c < n → Decided hash s t G c (decision c)

variable {v : SnapshotLoop Id} {v' : SnapshotLoop Id} {digests : List (DiskIndexChunk Id)}

section

omit [DecidableEq Id]

lemma LoopInv.next {n : ℕ} {result : SealResult Id} (h : LoopInv hash s G digests n v t)
    (hsim : Sim hash t' G) (hframe : Frame t t') (hdraft : v'.draft = v.draft.record n result)
    (hcursor : DigestIndex.CursorBelow digests v'.parentDigestCursor (n + 1))
    (hbatch : ∀ rest ∈ v'.parallelBatch, ∀ p ∈ rest, p.2 =
      sealBytes hash (s.disk.chunkOf G.now p.1))
    (hstats : v'.stats.fullScan = v.stats.fullScan) (hresult : Decided hash s t' G n result) :
    LoopInv hash s G digests (n + 1) v' t' := by
  refine ⟨hsim, h.frame.trans hframe, hcursor, hbatch, hstats.trans h.fullScan, ?_⟩
  obtain ⟨decision, hdecision, hall⟩ := h.decided
  refine ⟨update decision n result, ?_, fun c hc => ?_⟩
  · rw [hdraft, hdecision, draftOf, update_self]
    congr 1
    exact draftOf_congr fun c hc => by rw [update_of_ne (by omega)]
  · by_cases hne : c = n
    · subst hne
      rw [update_self]
      exact hresult
    · rw [update_of_ne hne]
      have hc := hall c (by omega)
      exact ⟨hc.describes, hc.fullScan, fun hcas => hc.unread (hframe.unread c hcas)⟩

lemma LoopInv.geometry {n : ℕ} (h : LoopInv hash s G digests n v t) (hs : Sim hash s G) :
    t.disk.size = s.disk.size ∧ t.disk.chunkCount = s.disk.chunkCount ∧
      t.disk.canReuseParentIndex = s.disk.canReuseParentIndex ∧
      ∀ c i, t.disk.Holds c i ↔ s.disk.Holds c i := by
  have hsize : t.disk.size = s.disk.size := by rw [← h.sim.size_eq, hs.size_eq]
  have hcs := h.frame.chunkSize
  refine ⟨hsize, ?_, ?_, fun c i => ?_⟩
  · rw [ChunkMappedDisk.chunkCount, ChunkMappedDisk.chunkCount, t.disk.sources_length,
      s.disk.sources_length, hsize, hcs]
  · simp only [ChunkMappedDisk.canReuseParentIndex, h.frame.currentBaseline, hsize]
  · rw [ChunkMappedDisk.Holds, ChunkMappedDisk.Holds, hsize, hcs]

lemma decided_of_entry {parentId : Option Id} (hs : Sim hash s G) (ht : Sim hash t G)
    (hframe : Frame s t) (hid : parentId = t.disk.baselineId c)
    (hreuse : s.disk.canReuseParentIndex = true) (hc : c < t.disk.chunkCount)
    (hentry : EntryDescribes hash t.disk G.now c) : Decided hash s t G c (.ofEntry parentId) := by
  unfold EntryDescribes at hentry
  subst hid
  cases hbase : t.disk.baselineId c with
  | some id =>
    rw [hbase, hframe.chunkOf hs ht] at hentry
    refine ⟨hentry, fun hfalse => ?_, fun _ => by simp [SealResult.ofEntry]⟩
    rw [hreuse] at hfalse
    cases hfalse
  | none =>
    rw [hbase] at hentry
    refine ⟨?_, fun hfalse => ?_, fun hcas => ?_⟩
    · rw [← hframe.chunkOf hs ht]
      exact chunkSlice_all_zero.mpr hentry
    · rw [hreuse] at hfalse
      cases hfalse
    · have hshow := (ht.chunk c hc).shows
      simp only [ChunkShows, hcas, hbase] at hshow
      cases hshow

end

lemma reuseParentEntry_ok {parentId : Option Id}
    (h : reuseParentEntry hash dir c parentId v s = .ok v' s') : Quiet s s' ∧
      v'.draft = v.draft.record c (.ofEntry parentId) ∧
      v'.parentDigestCursor = v.parentDigestCursor ∧ v'.parallelBatch = v.parallelBatch ∧
      v'.stats.fullScan = v.stats.fullScan := by
  replace h := getDisk_bind_ok.mp h
  cases parentId with
  | none =>
    obtain ⟨rfl, rfl⟩ := pure_ok.mp h
    exact ⟨⟨rfl, rfl⟩, rfl, rfl, rfl, rfl⟩
  | some id =>
    cases hparent : s.disk.currentBaseline with
    | none => simp [hparent] at h
    | some parent =>
      simp only [hparent] at h
      obtain ⟨len, -, h⟩ := check_bind_ok.mp h
      obtain ⟨v₁, s₃, hpublish, h⟩ := bind_ok.mp h
      obtain ⟨hquiet, hdraft, hcursor, hbatch, hstats⟩ := publishReused_ok hpublish
      obtain ⟨rfl, rfl⟩ := pure_ok.mp h
      exact ⟨hquiet, by rw [← hdraft]; rfl, hcursor, hbatch, by rw [← hstats]⟩

include hinj in
lemma sealCandidate_ok {n : ℕ} (hs : Sim hash s G)
    (hsim : Sim hash t G) (hframe : Frame s t) (h : sealCandidate hash dir n v t = .ok v' t')
    (hbatch : ∀ rest ∈ v.parallelBatch, ∀ p ∈ rest, p.2 = sealBytes hash
      (s.disk.chunkOf G.now p.1)) :
    Sim hash t' G ∧ Frame t t' ∧
      v'.draft = v.draft.record n (sealBytes hash (s.disk.chunkOf G.now n)) ∧
      v'.parentDigestCursor = v.parentDigestCursor ∧
      (∀ rest ∈ v'.parallelBatch, ∀ p ∈ rest,
        p.2 = sealBytes hash (s.disk.chunkOf G.now p.1)) ∧
      v'.stats.fullScan = v.stats.fullScan := by
  unfold sealCandidate at h
  cases hcases : v.parallelBatch with
  | none =>
    simp only [hcases] at h
    obtain ⟨result, hseal, rfl⟩ := bind_pure_ok.mp h
    obtain ⟨rfl, hsim', hframe'⟩ := sealSnapshotChunk_ok hinj hsim hseal
    rw [hframe.chunkOf hs hsim]
    exact ⟨hsim', hframe', rfl, rfl, by simp, rfl⟩
  | some batch =>
    cases batch with
    | nil => simp [hcases] at h
    | cons p rest =>
      simp only [hcases] at h
      obtain ⟨hindex, h⟩ := rejectIf_bind_ok.mp h
      obtain ⟨rfl, rfl⟩ := pure_ok.mp h
      have hall := hbatch _ hcases
      have hp := hall p List.mem_cons_self
      rw [not_not.mp hindex] at hp
      refine ⟨hsim, Frame.refl _, by rw [hp], rfl, ?_, rfl⟩
      intro rest' hrest' p' hp'
      cases hrest'
      exact hall p' (List.mem_cons_of_mem _ hp')

include hinj in
/-- **One iteration of the snapshot loop.** -/
theorem snapshotStep_ok {n : ℕ} (hs : Sim hash s G)
    (hdigests : ∀ c, lookupDigest digests c = s.disk.baselineId c) (hsorted : SortedChunks digests)
    (hn : n < s.disk.chunkCount) (hinv : LoopInv hash s G digests n v t)
    (h : snapshotStep hash dir s.disk.canReuseParentIndex digests s.disk.parentChunkCount v n t =
      .ok v' t') : LoopInv hash s G digests (n + 1) v' t' := by
  obtain ⟨-, hcount, hreuse, hholds⟩ := hinv.geometry hs
  obtain ⟨hnext, hcursor⟩ := DigestIndex.cursorNext_spec hsorted hinv.cursor
  have hnt : n < t.disk.chunkCount := by omega
  have hchunk := hinv.sim.chunk n hnt
  replace h := getDisk_bind_ok.mp h
  -- A chunk whose source is a zero, clean or dirty, reads as zero.
  have hzero : t.disk.source n = .zero ∨ t.disk.source n = .zeroDirty →
      Decided hash s t G n .zero := by
    intro hsource
    refine Decided.of_zero (fun i hi => ?_) (by rcases hsource with h | h <;> rw [h] <;> decide)
    have hshow := hchunk.shows
    unfold ChunkShows at hshow
    rcases hsource with hsource | hsource <;>
      simp only [hsource] at hshow <;> exact hshow i ((hholds n i).mpr hi)
  split at h
  · next hsource =>
    obtain ⟨rfl, rfl⟩ := pure_ok.mp h
    exact hinv.next hinv.sim (Frame.refl _) rfl hcursor hinv.batch rfl (hzero (.inl hsource))
  split at h
  · next hsource =>
    obtain ⟨rfl, rfl⟩ := pure_ok.mp h
    exact hinv.next hinv.sim (Frame.refl _) rfl hcursor hinv.batch rfl (hzero (.inr hsource))
  next hnotZero hnotZeroDirty =>
  split at h
  · next hcond =>
    obtain ⟨huse, hlt, hseal⟩ := hcond
    obtain ⟨hquiet, hdraft, hcur, hbatch, hstats⟩ := reuseParentEntry_ok h
    have hclean : t.disk.source n = .base ∨ t.disk.source n = .overlayClean ∨
        t.disk.source n = .cas := by
      simp only [ChunkMappedDisk.needsSnapshotSeal] at hseal
      cases hsource : t.disk.source n <;> simp_all [sourceIsDirty]
    have hentry := hchunk.agrees hclean (hreuse.trans huse)
      (by rw [hinv.frame.parentChunkCount]; exact hlt)
    have hid : (DigestIndex.cursorNext digests v.parentDigestCursor n).1 = t.disk.baselineId n := by
      rw [hnext, hdigests, hinv.frame.baselineId]
    have hdecided := decided_of_entry hs hinv.sim hinv.frame hid huse hnt hentry
    refine hinv.next (hinv.sim.quiet hquiet) hquiet.frame hdraft (hcur ▸ hcursor)
      (hbatch ▸ hinv.batch) hstats ⟨hdecided.describes, hdecided.fullScan, fun hcas => ?_⟩
    exact hdecided.unread (hquiet.1 ▸ hcas)
  · next hcond =>
    obtain ⟨hsim', hframe', hdraft, hcur, hbatch, hstats⟩ :=
      sealCandidate_ok hinj hs hinv.sim hinv.frame h hinv.batch
    refine hinv.next hsim' hframe' hdraft (hcur ▸ hcursor) hbatch hstats
      (Decided.of_sealBytes fun hcas => hcond ?_)
    -- An unread object is reused, never sealed.
    have hcas := hframe'.unread n hcas
    obtain ⟨huse, hlt⟩ := hchunk.unread hcas
    rw [hinv.frame.parentChunkCount] at hlt
    refine ⟨hreuse ▸ huse, hlt, ?_⟩
    rw [ChunkMappedDisk.needsSnapshotSeal, hcas]
    rfl

include hinj in
lemma startBatch_ok {batch : Option (List (ℕ × SealResult Id))}
    (hsim : Sim hash s G) (h : startBatch hash dir s = .ok batch s') :
    Sim hash s' G ∧ Frame s s' ∧ ∀ rest ∈ batch, ∀ p ∈ rest,
      p.2 = sealBytes hash (s.disk.chunkOf G.now p.1) := by
  replace h := getDisk_bind_ok.mp h
  split at h
  · obtain ⟨results, hrun, rfl⟩ := bind_pure_ok.mp h
    obtain ⟨⟨hsim', hframe⟩, hresults⟩ := sealSnapshotChunksParallel_ok hinj hsim hrun
    refine ⟨hsim', hframe, fun rest hrest => ?_⟩
    cases hrest
    exact hresults
  · obtain ⟨rfl, rfl⟩ := pure_ok.mp h
    exact ⟨hsim, Frame.refl s, by simp⟩

omit [DecidableEq Id] in
lemma parentDigests_ok (hsim : Sim hash s G) :
    (∀ c, lookupDigest (parentDigests s.disk) c = s.disk.baselineId c) ∧
      SortedChunks (parentDigests s.disk) := by
  unfold parentDigests ChunkMappedDisk.baselineId
  cases hparent : s.disk.currentBaseline with
  | none => exact ⟨fun _ => rfl, List.Pairwise.nil⟩
  | some parent =>
    have hsorted := hsim.sorted parent hparent
    exact ⟨fun c => (DigestIndex.get_eq_lookupDigest hsorted c).symm, hsorted⟩

include hinj hsim in
/-- **Building the index.** Every chunk has been decided, rightly. -/
theorem buildDraft_ok {draft : Draft Id} {stats : SnapshotStats}
    (h : buildDraft hash dir s = .ok (draft, stats) s') :
    Sim hash s' G ∧ Frame s s' ∧ stats.fullScan = !s.disk.canReuseParentIndex ∧
      ∃ decision, draft = draftOf decision s.disk.chunkCount ∧
        ∀ c, c < s.disk.chunkCount → Decided hash s s' G c (decision c) := by
  replace h := getDisk_bind_ok.mp h
  obtain ⟨batch, s₂, hbatch, h⟩ := bind_ok.mp h
  obtain ⟨hsim₂, hframe₂, hbatch⟩ := startBatch_ok hinj hsim hbatch
  obtain ⟨v, s₃, hloop, h⟩ := bind_ok.mp h
  obtain ⟨-, h⟩ := rejectIf_bind_ok.mp h
  obtain ⟨_, s₅, hsync₁, h⟩ := bind_ok.mp h
  obtain ⟨_, hsync₂, hpair⟩ := bind_pure_ok.mp h
  cases hpair
  have hquiet := (runIf_syncDir_ok hsync₁).trans (runIf_syncDir_ok hsync₂)
  obtain ⟨hlookup, hsorted⟩ := parentDigests_ok hsim
  have hend := foldlM_range_ok
    (fun n v t v' t' hn hinv hstep => snapshotStep_ok hinj hsim hlookup hsorted hn hinv hstep)
    ⟨hsim₂, hframe₂, fun i hi hlt => absurd hlt (by simp), hbatch, rfl,
      fun _ => .zero, rfl, fun c hc => absurd hc (by omega)⟩ hloop
  obtain ⟨decision, hdraft, hdecided⟩ := hend.decided
  refine ⟨hend.sim.quiet hquiet, hend.frame.trans hquiet.frame, hend.fullScan, decision, hdraft,
    fun c hc => ?_⟩
  have := hdecided c hc
  exact ⟨this.describes, this.fullScan, fun hcas => this.unread (hquiet.1 ▸ hcas)⟩

-- ══ The published index

def rescanIndex (hash : List UInt8 → Id) (d : ChunkMappedDisk Id) (A : SparseFile) : DiskIndex Id :=
  indexOf d (draftOf (fun c => sealBytes hash (d.chunkOf A c)) d.chunkCount)

variable {d : ChunkMappedDisk Id}

section

omit [DecidableEq Id]

lemma indexOf_eq_rescanIndex {A : SparseFile} {decision : ℕ → SealResult Id}
    (h : ∀ c, c < d.chunkCount → (decision c).Describes hash (d.chunkOf A c)) :
    indexOf d (draftOf decision d.chunkCount) = rescanIndex hash d A ↔
      ∀ entry ∈ (draftOf decision d.chunkCount).chunks,
        ∃ i, d.Holds entry.logicalChunk i ∧ A.byte i ≠ 0 := by
  have hdraft : indexOf d (draftOf decision d.chunkCount) = rescanIndex hash d A ↔
      draftOf decision d.chunkCount =
        draftOf (fun c => sealBytes hash (d.chunkOf A c)) d.chunkCount := by
    constructor
    · intro heq
      have hchunks := congrArg DiskIndex.chunks heq
      have hzeros := congrArg DiskIndex.zeroRanges heq
      cases hd : draftOf decision d.chunkCount
      rw [hd] at hchunks hzeros
      exact (Draft.mk.injEq ..).mpr ⟨hchunks, hzeros⟩
    · intro heq
      rw [heq]
      rfl
  rw [hdraft, draftOf_inj]
  constructor
  · intro hall entry hmem
    obtain ⟨hlt, hdec⟩ := mem_draftOf.mp hmem
    rw [hall _ hlt, sealBytes] at hdec
    split at hdec
    · cases hdec
    · next hne =>
      rw [ChunkMappedDisk.chunkOf, chunkSlice_all_zero] at hne
      simp only [not_forall] at hne
      obtain ⟨i, hi, hbyte⟩ := hne
      exact ⟨i, hi, hbyte⟩
  · intro hall c hc
    have hdesc := h c hc
    cases hdec : decision c with
    | zero =>
      rw [hdec] at hdesc
      exact (if_pos hdesc).symm
    | data id =>
      rw [hdec] at hdesc
      have hmem : (⟨c, id⟩ : DiskIndexChunk Id) ∈ (draftOf decision d.chunkCount).chunks :=
        mem_draftOf.mpr ⟨hc, hdec⟩
      obtain ⟨i, hi, hbyte⟩ := hall _ hmem
      have hne : ¬ (d.chunkOf A c).all (· == 0) = true := fun hzero =>
        hbyte (chunkSlice_all_zero.mp hzero i hi)
      rw [sealBytes, if_neg hne]
      exact congrArg SealResult.data hdesc.symm

lemma publishedSource_source (d : ChunkMappedDisk Id) (next : Baseline Id) (id : Id) (c : ℕ) :
    (installSnapshotBaseline d next id).source c = publishedSource (d.source c) := by
  simp only [ChunkMappedDisk.source, installSnapshotBaseline]
  rcases Nat.lt_or_ge c d.sources.length with hc | hc
  · rw [List.getD_eq_getElem _ _ (by simpa using hc), List.getElem_map, List.getD_eq_getElem _ _ hc]
  · rw [List.getD_eq_default _ _ (by simpa using hc), List.getD_eq_default _ _ hc]
    rfl

/-- **Installing the next baseline.** The disk stands for the same bytes, which are now those of its
latest snapshot. -/
theorem Inv.install {files : ℕ → SparseFile} {next : Baseline Id} {id : Id}
    (decision : ℕ → SealResult Id) (h : Inv hash d files G)
    (hdigests : next.digests = (draftOf decision d.chunkCount).chunks)
    (hsize : next.logicalSize = d.size)
    (hdec : ∀ c, c < d.chunkCount → (decision c).Describes hash (d.chunkOf G.now c))
    (hunread : ∀ c, c < d.chunkCount → d.source c = .cas → decision c ≠ .zero) :
    Inv hash (installSnapshotBaseline d next id) files { G with clean := G.now } := by
  have hbaseline : (installSnapshotBaseline d next id).currentBaseline = some next := by
    unfold ChunkMappedDisk.currentBaseline installSnapshotBaseline
    cases d.index <;> rfl
  have hsorted : SortedChunks next.digests := hdigests ▸ sorted_draftOf _ _
  have hcount : (installSnapshotBaseline d next id).chunkCount = d.chunkCount := List.length_map _
  have hid : ∀ c, c < d.chunkCount → (installSnapshotBaseline d next id).baselineId c =
      (decision c).toEntry := by
    intro c hc
    rw [ChunkMappedDisk.baselineId, hbaseline, ← lookupDigest_draftOf decision hc, ← hdigests]
    exact DigestIndex.get_eq_lookupDigest hsorted c
  have hentry : ∀ c, c < d.chunkCount →
      EntryDescribes hash (installSnapshotBaseline d next id) G.now c := by
    intro c hc
    unfold EntryDescribes
    rw [hid c hc]
    have hdesc := hdec c hc
    cases hcase : decision c with
    | zero =>
      rw [hcase] at hdesc
      exact chunkSlice_all_zero.mp hdesc
    | data id' =>
      rw [hcase] at hdesc
      exact hdesc
  refine ⟨h.size_eq, h.size_eq.le, h.based_size, ?_, h.overlay_ne_base, h.overlay_size, ?_, ?_, ?_⟩
  · intro hpending
    cases hpending
  · intro b hb
    cases hbaseline.symm.trans hb
    exact hsorted
  · intro b hb
    cases hbaseline.symm.trans hb
    exact hsize.le
  · intro c hc
    rw [hcount] at hc
    have hold := h.chunk c hc
    have hsource := publishedSource_source d next id c
    have hshow := hold.shows
    refine ⟨?_, fun _ _ _ => hentry c hc, fun _ _ _ => rfl, ?_, ?_⟩
    · unfold ChunkShows at hshow ⊢
      rw [hsource]
      cases hs : d.source c with
      | base | overlay | overlayClean | zero | zeroDirty =>
        rw [hs] at hshow
        exact hshow
      | cas =>
        -- The object keeps its digest, so it is still found through the new baseline.
        have hdesc := hdec c hc
        have hne := hunread c hc hs
        change (installSnapshotBaseline d next id).baselineId c =
          some (hash ((installSnapshotBaseline d next id).chunkOf G.now c))
        rw [hid c hc]
        cases hcase : decision c with
        | zero => exact absurd hcase hne
        | data id' =>
          rw [hcase] at hdesc
          exact congrArg some hdesc.symm
    · intro hbased
      rw [hsource] at hbased
      refine hold.based ?_
      cases hs : d.source c <;> simp_all [publishedSource]
    · intro hcas
      rw [hsource] at hcas
      have hpos := ChunkMappedDisk.lt_chunkCount.mp hc
      constructor
      · unfold ChunkMappedDisk.canReuseParentIndex
        rw [hbaseline]
        simp only [decide_eq_true_eq, hsize]
        exact ⟨by omega, Nat.le_refl _⟩
      · simp only [ChunkMappedDisk.parentChunkCount, hbaseline, hsize]
        rw [ChunkMappedDisk.chunkCount, d.sources_length] at hc
        exact hc

end

include hinj hsim in
/-- **Snapshot.** A successful snapshot publishes an index that denotes the disk's contents, and
changes nothing that a read can see. It is the index of a full rescan unless some zero chunk was
inherited with a digest. -/
theorem snapshotIndexWithStats_ok {stringify : DiskIndex Id → List UInt8} {device : RootfsDevice}
    {quiesced : Bool}
    {disk : SporeDisk Id} {stats : SnapshotStats}
    (h : snapshotIndexWithStats hash stringify dir device quiesced s = .ok (disk, stats) s') :
    (∃ index, s'.host.indexes dir disk.base = some index ∧ IndexDenotes hash index G.now ∧
      (index = rescanIndex hash s.disk G.now ↔ ∀ entry ∈ index.chunks,
        ∃ i, s.disk.Holds entry.logicalChunk i ∧ G.now.byte i ≠ 0) ∧
      (stats.fullScan = true → index = rescanIndex hash s.disk G.now) ∧
      s'.disk.pendingSnapshotIdentity = some (hash (stringify index)) ∧
      s'.disk.currentBaseline = some ⟨dir, index.chunks, index.logicalSize⟩ ∧
      index.chunkSize = s.disk.chunkSize) ∧
    s'.disk.committedSnapshotIdentity = s.disk.committedSnapshotIdentity ∧
    Sim hash s' { G with clean := G.now } ∧ Footprint s s' := by
  obtain ⟨-, h⟩ := rejectIf_bind_ok.mp h
  replace h := getDisk_bind_ok.mp h
  obtain ⟨-, h⟩ := rejectIf_bind_ok.mp h
  obtain ⟨⟨draft, stats'⟩, s₅, hdraft, h⟩ := bind_ok.mp h
  obtain ⟨_, s₃, hfetch, hdraft⟩ := bind_ok.mp hdraft
  obtain ⟨_, s₄, hsync, hbuild⟩ := bind_ok.mp hdraft
  have hquiet := (fetchFromStore_ok hfetch).trans (syncDir_ok hsync)
  obtain ⟨hsim₅, hframe₅, hscan, decision, rfl, hdecided⟩ :=
    buildDraft_ok hinj (hsim.quiet hquiet) hbuild
  rw [hquiet.1] at hscan hdecided h
  have hframe := hquiet.frame.trans hframe₅
  obtain ⟨digest, hdigest, h⟩ := check_bind_ok.mp h
  obtain ⟨_, s₇, hsync₇, h⟩ := bind_ok.mp h
  obtain ⟨_, s₈, hwrite, h⟩ := bind_ok.mp h
  obtain ⟨hquiet₈, hindex⟩ := writeIndexDurable_ok hwrite
  have hquiet₈ := (syncDir_ok hsync₇).trans hquiet₈
  obtain ⟨next, hnext, h⟩ := check_bind_ok.mp h
  obtain ⟨-, hnext⟩ := Check.ite_error_ok.mp hnext
  cases hnext
  obtain ⟨_, s₉, hmod, h⟩ := bind_ok.mp h
  cases modifyDisk_ok.mp hmod
  obtain ⟨hpair, rfl⟩ := pure_ok.mp h
  cases hpair
  have hdescribes : ∀ c, c < s.disk.chunkCount →
      (decision c).Describes hash (s.disk.chunkOf G.now c) := by
    intro c hc
    have := (hdecided c hc).describes
    rwa [hquiet.1] at this
  have hrescan := indexOf_eq_rescanIndex hdescribes
  have hdisk := hquiet₈.1
  have hsize : s₈.disk.size = s.disk.size := by rw [hdisk, ← hsim₅.size_eq, hsim.size_eq]
  have hcs : s₈.disk.chunkSize = s.disk.chunkSize := by rw [hdisk, hframe.chunkSize]
  have hcount : s₈.disk.chunkCount = s.disk.chunkCount := by
    rw [ChunkMappedDisk.chunkCount, ChunkMappedDisk.chunkCount, s₈.disk.sources_length,
      s.disk.sources_length, hsize, hcs]
  refine ⟨⟨_, hindex, denotes_draftOf hsim.size_eq s.disk.sources_length.symm rfl rfl hdescribes,
    hrescan, ?_, congrArg some (encodeCanonical_ok hdigest), ?_, rfl⟩, ?_, ?_, ?_⟩
  · intro hfull
    rw [hfull] at hscan
    have hreuse : s.disk.canReuseParentIndex = false := by simpa using hscan.symm
    unfold rescanIndex
    congr 1
    refine draftOf_congr fun c hc => ?_
    have := (hdecided c hc).fullScan
    rw [hquiet.1] at this
    exact this hreuse
  · rw [ChunkMappedDisk.currentBaseline, installSnapshotBaseline]
    cases s₈.disk.index <;> rfl
  · change s₈.disk.committedSnapshotIdentity = _
    rw [hdisk, hframe.committed]
  · refine Inv.install decision (hsim₅.quiet hquiet₈) (by rw [hcount]; rfl) hsize.symm ?_ ?_
    · intro c hc
      rw [hcount] at hc
      have := hdescribes c hc
      rwa [ChunkMappedDisk.chunkOf, ← hsize, ← hcs] at this
    · intro c hc hcas
      rw [hcount] at hc
      exact (hdecided c hc).unread (hdisk ▸ hcas)
  · refine (hframe.trans hquiet₈.frame).footprint.trans
      ⟨rfl, rfl, rfl, ?_, fun _ _ _ => rfl, fun _ => rfl⟩
    change (installedIndex _ s₈.disk.index).isCas = s₈.disk.index.isCas
    cases s₈.disk.index <;> rfl

omit [DecidableEq Id] in
/-- **Commit.** The pending snapshot, if there is one, becomes the fork authority. -/
theorem commitSnapshot_ok {u : Unit} (hsim : Sim hash s G) (h : commitSnapshot s = .ok u s') :
    Sim hash s' { G with based := G.clean } ∧ Footprint s s' := by
  cases modifyDisk_ok.mp h
  cases hpending : s.disk.pendingSnapshotIdentity with
  | none =>
    refine ⟨?_, (Frame.refl s).footprint⟩
    have hsettled := hsim.settled hpending
    obtain ⟨now, clean, based⟩ := G
    cases hsettled
    exact hsim
  | some next =>
    refine ⟨⟨hsim.size_eq, hsim.clean_size, hsim.clean_size, fun _ => rfl, hsim.overlay_ne_base,
      hsim.overlay_size, hsim.sorted, hsim.baseline_le, fun c hc => ?_⟩,
      ⟨rfl, rfl, rfl, rfl, fun _ _ _ => rfl, fun _ => rfl⟩⟩
    have hold := hsim.chunk c hc
    refine ⟨hold.shows, hold.agrees, hold.clean, fun hbased => hold.clean ?_, hold.unread⟩
    have hbased : s.disk.source c = .base ∨ s.disk.source c = .cas := hbased
    rcases hbased with h | h <;> rw [h] <;> rfl

end Refine

end SporeVM
