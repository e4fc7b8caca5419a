import Mathlib.Algebra.Order.Ring.Nat
import Mathlib.Tactic.Common
import SporeVM.Disk.Snapshot

/-!
# What passes validation

`validateIndexShape` accepts an index of the current kind exactly if its chunks are in ascending
order, its zero ranges leave a gap between each other, and the two together hold every chunk number
once. The draft of any decisions is such an index.
-/

namespace SporeVM

open Lib (divCeil)
open Lib.Check (Raises bind_ok seq_ok ite_error_ok rejectIf_ok rejectIf_bind_ok)
open List

variable {Id : Type}

-- ══ Ranges with gaps

structure GappedRanges (ranges : List DiskIndexZeroRange) : Prop where
  nonempty : ∀ range ∈ ranges, range.count ≠ 0
  gaps : ranges.Pairwise fun a b => a.start + a.count < b.start

variable {ranges : List DiskIndexZeroRange} {range : DiskIndexZeroRange}

lemma gappedRanges_cons : GappedRanges (range :: ranges) ↔ range.count ≠ 0 ∧
      (∀ r ∈ ranges, range.start + range.count < r.start) ∧ GappedRanges ranges := by
  constructor
  · rintro ⟨hnonempty, hgaps⟩
    obtain ⟨hfirst, hrest⟩ := pairwise_cons.mp hgaps
    exact ⟨hnonempty _ (by simp), hfirst, fun r hr => hnonempty r (by simp [hr]), hrest⟩
  · rintro ⟨hcount, hfirst, hnonempty, hgaps⟩
    exact ⟨forall_mem_cons.mpr ⟨hcount, hnonempty⟩, pairwise_cons.mpr ⟨hfirst, hgaps⟩⟩

lemma GappedRanges.start_le (h : GappedRanges (range :: ranges))
    {c : ℕ} (hc : InZeroRanges (range :: ranges) c) : range.start ≤ c := by
  obtain ⟨-, hfirst, -⟩ := gappedRanges_cons.mp h
  rcases inZeroRanges_cons.mp hc with hc | ⟨r, hr, hc⟩
  · exact hc.1
  · have := hfirst r hr
    omega

variable {entries : List (DiskIndexChunk Id)} {entry : DiskIndexChunk Id}

lemma SortedChunks.head_le (h : SortedChunks (entry :: entries))
    {c : ℕ} (hc : HasDigest (entry :: entries) c) : entry.logicalChunk ≤ c := by
  rcases hasDigest_cons.mp hc with hc | ⟨e, he, rfl⟩
  · omega
  · exact Nat.le_of_lt ((pairwise_cons.mp h).1 e he)

-- ══ The checks accept what they are meant to accept

lemma checkChunkOrder_of_sorted (chunkCount : ℕ) (previous : Option ℕ)
    (chunks : List (DiskIndexChunk Id)) (hsorted : SortedChunks chunks)
    (hlt : ∀ entry ∈ chunks, entry.logicalChunk < chunkCount)
    (hprev : ∀ p ∈ previous, ∀ entry ∈ chunks, p < entry.logicalChunk) :
    checkChunkOrder chunkCount previous chunks = .ok () := by
  induction chunks generalizing previous with
  | nil => rfl
  | cons entry entries ih =>
    obtain ⟨hfirst, hsorted⟩ := pairwise_cons.mp hsorted
    refine ite_error_ok.mpr ⟨by have := hlt entry (by simp); omega, ?_⟩
    refine ite_error_ok.mpr ⟨?_, ih _ hsorted (fun e he => hlt e (by simp [he])) ?_⟩
    · rintro ⟨p, hp, hle⟩
      have := hprev p hp entry (by simp)
      omega
    · rintro p hp e he
      cases hp
      exact hfirst e he

lemma checkZeroOrder_of_gapped (chunkCount : ℕ) (hcount : chunkCount ≤ maxU64)
    (previousEnd : Option ℕ) (ranges : List DiskIndexZeroRange) (hgapped : GappedRanges ranges)
    (hle : ∀ range ∈ ranges, range.start + range.count ≤ chunkCount)
    (hprev : ∀ p ∈ previousEnd, ∀ range ∈ ranges, p < range.start) :
    checkZeroOrder chunkCount previousEnd ranges = .ok () := by
  induction ranges generalizing previousEnd with
  | nil => rfl
  | cons range ranges ih =>
    obtain ⟨hne, hfirst, hrest⟩ := gappedRanges_cons.mp hgapped
    have hend := hle range (by simp)
    iterate 3 refine ite_error_ok.mpr ⟨by omega, ?_⟩
    refine ite_error_ok.mpr ⟨?_, ih _ hrest (fun r hr => hle r (by simp [hr])) ?_⟩
    · rintro ⟨p, hp, hle⟩
      have := hprev p hp range (by simp)
      omega
    · rintro p hp r hr
      cases hp
      exact hfirst r hr

variable {stop : ℕ} {next : ℕ}

lemma Covers.tail_chunk
    (h : Covers next stop (entry :: entries) ranges) (hsorted : SortedChunks (entry :: entries))
    (hentry : entry.logicalChunk = next) : Covers (next + 1) stop entries ranges := by
  have hin := (h.covered next).mp (.inl (hasDigest_cons.mpr (.inl hentry)))
  refine ⟨by omega, fun c => ?_, fun c hc => h.disjoint c ⟨hasDigest_cons.mpr (.inr hc.1), hc.2⟩⟩
  have hcov := h.covered c
  have hhead : HasDigest (entry :: entries) c ↔ next = c ∨ HasDigest entries c := by
    rw [hasDigest_cons, hentry]
  constructor
  · intro hc
    have hrange := hcov.mp (hc.imp_left fun hd => hhead.mpr (.inr hd))
    refine ⟨?_, hrange.2⟩
    rcases hc with ⟨e, he, rfl⟩ | hz
    · have := (pairwise_cons.mp hsorted).1 e he
      omega
    · have hne : c ≠ next := by
        rintro rfl
        exact h.disjoint c ⟨hhead.mpr (.inl rfl), hz⟩
      omega
  · intro hc
    rcases hcov.mpr ⟨by omega, hc.2⟩ with hd | hz
    · exact .inl ((hhead.mp hd).resolve_left (by omega))
    · exact .inr hz

variable {chunks : List (DiskIndexChunk Id)}

lemma Covers.tail_range
    (h : Covers next stop chunks (range :: ranges)) (hgapped : GappedRanges (range :: ranges))
    (hrange : range.start = next) : Covers (next + range.count) stop chunks ranges := by
  obtain ⟨hne, hfirst, -⟩ := gappedRanges_cons.mp hgapped
  have hhead : ∀ c, InZeroRanges (range :: ranges) c ↔
      (next ≤ c ∧ c < next + range.count) ∨ InZeroRanges ranges c := by
    intro c
    rw [inZeroRanges_cons, hrange]
  have hlast := (h.covered (next + range.count - 1)).mp (.inr ((hhead _).mpr (.inl (by omega))))
  refine ⟨by omega, fun c => ?_, fun c hc => h.disjoint c ⟨hc.1, (hhead c).mpr (.inr hc.2)⟩⟩
  have hcov := h.covered c
  constructor
  · intro hc
    have hin := hcov.mp (hc.imp_right fun hz => (hhead c).mpr (.inr hz))
    refine ⟨?_, hin.2⟩
    rcases hc with hd | ⟨r, hr, hz⟩
    · have hout : ¬ (next ≤ c ∧ c < next + range.count) := fun hc =>
        h.disjoint c ⟨hd, (hhead c).mpr (.inl hc)⟩
      omega
    · have := hfirst r hr
      omega
  · intro hc
    rcases hcov.mpr ⟨by omega, hc.2⟩ with hd | hz
    · exact .inl hd
    · exact .inr (((hhead c).mp hz).resolve_left (by omega))

lemma Covers.eq_of_nil (h : Covers next stop ([] : List (DiskIndexChunk Id)) []) : next = stop := by
  have hle := h.le
  by_contra hne
  rcases (h.covered next).mpr ⟨Nat.le_refl _, by omega⟩ with ⟨_, hmem, _⟩ | ⟨_, hmem, _⟩ <;>
    cases hmem

lemma Covers.head_chunk
    (h : Covers next stop (entry :: entries) ranges) (hsorted : SortedChunks (entry :: entries))
    (hnext : ¬ InZeroRanges ranges next) : entry.logicalChunk = next := by
  have hin := (h.covered entry.logicalChunk).mp (.inl ⟨entry, by simp, rfl⟩)
  rcases (h.covered next).mpr ⟨Nat.le_refl _, by omega⟩ with hd | hz
  · have := hsorted.head_le hd
    omega
  · exact absurd hz hnext

lemma Covers.head_range
    (h : Covers next stop chunks (range :: ranges)) (hgapped : GappedRanges (range :: ranges))
    (hnext : ¬ HasDigest chunks next) : range.start = next := by
  have hne := (gappedRanges_cons.mp hgapped).1
  have hin := (h.covered range.start).mp
    (.inr (inZeroRanges_cons.mpr (.inl ⟨Nat.le_refl _, by omega⟩)))
  rcases (h.covered next).mpr ⟨Nat.le_refl _, by omega⟩ with hd | hz
  · exact absurd hd hnext
  · have := hgapped.start_le hz
    omega

/-- The merge loop accepts every partition of the chunk numbers into sorted chunks and ranges that
do not touch. -/
theorem checkCover_of_covers (fuel next stop : ℕ) (chunks : List (DiskIndexChunk Id))
    (ranges : List DiskIndexZeroRange) (hfuel : chunks.length + ranges.length ≤ fuel)
    (hstop : stop ≤ maxU64) (hsorted : SortedChunks chunks) (hgapped : GappedRanges ranges)
    (h : Covers next stop chunks ranges) : checkCover fuel next chunks ranges = .ok stop := by
  induction fuel generalizing next chunks ranges with
  | zero =>
    obtain rfl : chunks = [] := eq_nil_of_length_eq_zero (by omega)
    obtain rfl : ranges = [] := eq_nil_of_length_eq_zero (by omega)
    rw [checkCover, h.eq_of_nil]
  | succ fuel ih =>
    cases chunks with
    | nil =>
      cases ranges with
      | nil => rw [checkCover, h.eq_of_nil]
      | cons range ranges =>
        have hrange : range.start = next := h.head_range hgapped (by simp [HasDigest])
        have htail := h.tail_range hgapped hrange
        refine ite_error_ok.mpr ⟨not_not.mpr hrange, ?_⟩
        refine ite_error_ok.mpr ⟨by have := htail.le; omega, ?_⟩
        exact ih _ _ _ (by simp at hfuel ⊢; omega) hsorted (gappedRanges_cons.mp hgapped).2.2 htail
    | cons entry entries =>
      cases ranges with
      | nil =>
        have hentry : entry.logicalChunk = next := h.head_chunk hsorted (by simp [InZeroRanges])
        have htail := h.tail_chunk hsorted hentry
        refine ite_error_ok.mpr ⟨not_not.mpr hentry, ?_⟩
        refine ite_error_ok.mpr ⟨by have := htail.le; omega, ?_⟩
        exact ih _ _ _ (by simp at hfuel ⊢; omega) (pairwise_cons.mp hsorted).2 hgapped htail
      | cons range ranges =>
        rw [checkCover]
        split
        · next hlt =>
          have hentry : entry.logicalChunk = next := h.head_chunk hsorted fun hz => by
            have := hgapped.start_le hz
            have := (h.covered entry.logicalChunk).mp (.inl ⟨entry, by simp, rfl⟩)
            omega
          have htail := h.tail_chunk hsorted hentry
          refine ite_error_ok.mpr ⟨not_not.mpr hentry, ?_⟩
          refine ite_error_ok.mpr ⟨by have := htail.le; omega, ?_⟩
          exact ih _ _ _ (by simp at hfuel ⊢; omega) (pairwise_cons.mp hsorted).2 hgapped htail
        · next hge =>
          have hrange : range.start = next := h.head_range hgapped fun hd => by
            have := hsorted.head_le hd
            have hstart : InZeroRanges (range :: ranges) range.start :=
              inZeroRanges_cons.mpr (.inl ⟨Nat.le_refl _, by
                have := (gappedRanges_cons.mp hgapped).1
                omega⟩)
            have := (h.covered range.start).mp (.inr hstart)
            obtain rfl : range.start = next := by omega
            exact h.disjoint _ ⟨hd, hstart⟩
          have htail := h.tail_range hgapped hrange
          refine ite_error_ok.mpr ⟨not_not.mpr hrange, ?_⟩
          refine ite_error_ok.mpr ⟨by have := htail.le; omega, ?_⟩
          exact ih _ _ _ (by simp at hfuel ⊢; omega) hsorted (gappedRanges_cons.mp hgapped).2.2
            htail

def zeroTotal (ranges : List DiskIndexZeroRange) : ℕ := (ranges.map (·.count)).sum

lemma zeroTotal_cons (range : DiskIndexZeroRange) (ranges : List DiskIndexZeroRange) :
    zeroTotal (range :: ranges) = range.count + zeroTotal ranges := rfl

lemma sumZeroRanges_eq (zeroCount : ℕ) (ranges : List DiskIndexZeroRange)
    (h : zeroCount + zeroTotal ranges ≤ maxU64) :
    sumZeroRanges zeroCount ranges = .ok (zeroCount + zeroTotal ranges) := by
  induction ranges generalizing zeroCount with
  | nil => rfl
  | cons range ranges ih =>
    rw [zeroTotal_cons] at h ⊢
    refine ite_error_ok.mpr ⟨by omega, ?_⟩
    rw [ih _ (by omega), Nat.add_assoc]

-- ══ What the checks have accepted

lemma gapped_of_checkZeroOrder (chunkCount : ℕ) (previousEnd : Option ℕ)
    (ranges : List DiskIndexZeroRange) (h : checkZeroOrder chunkCount previousEnd ranges = .ok ()) :
    GappedRanges ranges ∧ ∀ range ∈ ranges, range.start + range.count ≤ chunkCount ∧
      ∀ p ∈ previousEnd, p < range.start := by
  induction ranges generalizing previousEnd with
  | nil => exact ⟨⟨by simp, List.Pairwise.nil⟩, by simp⟩
  | cons range ranges ih =>
    obtain ⟨hrange, h⟩ := ite_error_ok.mp h
    obtain ⟨-, h⟩ := ite_error_ok.mp h
    obtain ⟨hend, h⟩ := ite_error_ok.mp h
    obtain ⟨hprev, h⟩ := ite_error_ok.mp h
    obtain ⟨hgapped, hrest⟩ := ih _ h
    have habove : ∀ p ∈ previousEnd, p < range.start := by
      intro p hp
      by_contra hle
      exact hprev ⟨p, hp, by omega⟩
    refine ⟨gappedRanges_cons.mpr ⟨by omega, fun r hr => (hrest r hr).2 _ rfl, hgapped⟩, ?_⟩
    intro r hr
    rcases mem_cons.mp hr with rfl | hr
    · exact ⟨by omega, habove⟩
    · obtain ⟨hle, hlt⟩ := hrest r hr
      refine ⟨hle, fun p hp => ?_⟩
      have := habove p hp
      have := hlt _ rfl
      omega

lemma total_of_checkCover (fuel next stop : ℕ) (chunks : List (DiskIndexChunk Id))
    (ranges : List DiskIndexZeroRange) (hfuel : chunks.length + ranges.length ≤ fuel)
    (h : checkCover fuel next chunks ranges = .ok stop) :
    next + chunks.length + zeroTotal ranges = stop := by
  refine checkCover_induction
    (P := fun next chunks ranges => next + chunks.length + zeroTotal ranges = stop) rfl ?_ ?_
    fuel next chunks ranges hfuel h
  · intro entry entries ranges hrest
    rw [← hrest, length_cons]
    omega
  · intro range chunks ranges hrest
    rw [← hrest, zeroTotal_cons]
    omega

-- ══ Acceptance

/-- An index of the current kind whose chunks, in ascending order, and zero ranges, which do not
touch, are a partition of its chunk numbers. -/
structure WellShaped (index : DiskIndex Id) : Prop where
  kind_eq : index.kind = diskIndexKind
  chunkSize_ne : index.chunkSize ≠ 0
  sorted : SortedChunks index.chunks
  gapped : GappedRanges index.zeroRanges
  covers : Covers 0 (divCeil index.logicalSize index.chunkSize) index.chunks index.zeroRanges

lemma Covers.range_le (h : Covers next stop chunks ranges)
    (hgapped : GappedRanges ranges) (hrange : range ∈ ranges) :
    range.start + range.count ≤ stop := by
  have hne := hgapped.nonempty range hrange
  have hlast := (h.covered (range.start + range.count - 1)).mp
    (.inr ⟨range, hrange, by omega, by omega⟩)
  omega

variable {index : DiskIndex Id}

lemma wellShaped_of_validateIndexShape (h : validateIndexShape index = .ok ()) :
    WellShaped index ∧ divCeil index.logicalSize index.chunkSize ≤ maxU64 := by
  obtain ⟨hpos, hsorted, hcovers⟩ := covers_of_validateIndexShape h
  obtain ⟨-, h⟩ := seq_ok.mp h
  obtain ⟨hkind, h⟩ := seq_ok.mp h
  obtain ⟨chunkCount, hcount, h⟩ := bind_ok.mp h
  cases (ite_error_ok.mp hcount).2
  obtain ⟨zeroCount, -, h⟩ := bind_ok.mp h
  obtain ⟨hmax, h⟩ := rejectIf_bind_ok.mp h
  obtain ⟨htotal, h⟩ := rejectIf_bind_ok.mp h
  obtain ⟨-, h⟩ := seq_ok.mp h
  obtain ⟨hzeros, -⟩ := seq_ok.mp h
  exact ⟨⟨checkKind_ok.mp hkind, by omega, hsorted, (gapped_of_checkZeroOrder _ _ _ hzeros).1,
    hcovers⟩, by omega⟩

/-- **Acceptance.** The check accepts exactly the indexes that are well shaped. -/
theorem validateIndexShape_iff (hcount : divCeil index.logicalSize index.chunkSize ≤ maxU64) :
    validateIndexShape index = .ok () ↔ WellShaped index := by
  refine ⟨fun h => (wellShaped_of_validateIndexShape h).1, ?_⟩
  rintro ⟨hkind, hne, hsorted, hgapped, hcovers⟩
  have hcover := checkCover_of_covers _ _ _ _ _ (Nat.le_refl _) hcount hsorted hgapped hcovers
  have htotal := total_of_checkCover _ _ _ _ _ (Nat.le_refl _) hcover
  refine rejectIf_bind_ok.mpr ⟨hne, ?_⟩
  refine seq_ok.mpr ⟨checkKind_ok.mpr hkind, ?_⟩
  refine bind_ok.mpr ⟨_, if_neg hne, ?_⟩
  refine bind_ok.mpr ⟨_, sumZeroRanges_eq 0 _ (by omega), ?_⟩
  iterate 2 refine rejectIf_bind_ok.mpr ⟨by omega, ?_⟩
  refine seq_ok.mpr ⟨?_, ?_⟩
  · refine checkChunkOrder_of_sorted _ _ _ hsorted (fun entry hmem => ?_) (by simp)
    exact ((hcovers.covered _).mp (.inl ⟨entry, hmem, rfl⟩)).2
  refine seq_ok.mpr ⟨?_, ?_⟩
  · exact checkZeroOrder_of_gapped _ hcount _ _ hgapped (fun _ hr => hcovers.range_le hgapped hr)
      (by simp)
  exact bind_ok.mpr ⟨_, hcover, rejectIf_ok.mpr (not_not.mpr rfl)⟩

-- ══ Lookups in an accepted index

/-- The ranges that hold `c` have their place in the interval. -/
def RangesWithin (ranges : List DiskIndexZeroRange) (c low high : ℕ) : Prop :=
  ∀ i (hi : i < ranges.length), ranges[i].start ≤ c → c < ranges[i].start + ranges[i].count →
    low ≤ i ∧ i < high

lemma RangesWithin.not_inZeroRanges {c low high : ℕ} (h : RangesWithin ranges c low high)
    (hle : high ≤ low) : ¬ InZeroRanges ranges c := by
  rintro ⟨range, hmem, hc⟩
  obtain ⟨i, hi, rfl⟩ := getElem_of_mem hmem
  have := h i hi hc.1 hc.2
  omega

lemma isZeroLoop_iff (hgapped : GappedRanges ranges)
    (hends : ∀ range ∈ ranges, range.start + range.count ≤ maxU64) (c fuel low high : ℕ)
    (hfuel : high - low ≤ fuel) (hhigh : high ≤ ranges.length)
    (hwithin : RangesWithin ranges c low high) :
    isZeroLoop ranges c fuel low high = true ↔ InZeroRanges ranges c := by
  have horder := pairwise_iff_getElem.mp hgapped.gaps
  -- The interval shrinks around the range that holds `c`; the fuel bounds its length.
  induction fuel generalizing low high with
  | zero => exact iff_of_false Bool.false_ne_true (hwithin.not_inZeroRanges (by omega))
  | succ fuel ih =>
    rw [isZeroLoop]
    split
    · next hlt =>
      have hmid : low + (high - low) / 2 < ranges.length := by omega
      have hend := hends _ (getElem_mem hmid)
      rw [List.getElem?_eq_getElem hmid]
      dsimp only
      generalize hm : low + (high - low) / 2 = mid at *
      split_ifs with hbefore hover hin
      · refine ih _ _ (by omega) (by omega) (fun i hi hstart hstop => ?_)
        have := horder mid i hmid hi
        have := hwithin i hi hstart hstop
        grind
      · omega
      · exact iff_of_true rfl ⟨_, getElem_mem hmid, by omega, hin⟩
      · refine ih _ _ (by omega) hhigh (fun i hi hstart hstop => ?_)
        have := horder i mid hi hmid
        have := hwithin i hi hstart hstop
        grind
    · next hge => exact iff_of_false Bool.false_ne_true (hwithin.not_inZeroRanges (by omega))

lemma isZeroChunk_iff (hgapped : GappedRanges index.zeroRanges)
    (hends : ∀ range ∈ index.zeroRanges, range.start + range.count ≤ maxU64) (c : ℕ) :
    isZeroChunk index c = true ↔ InZeroRanges index.zeroRanges c :=
  isZeroLoop_iff hgapped hends c _ _ _ (by omega) (Nat.le_refl _) fun i hi _ _ => by omega

/-- **Lookups.** In an accepted index a chunk below the chunk count is a zero chunk or has a digest,
and never both. A cursor answers as `get` while the numbers do not decrease and no chunk that has a
digest is asked for twice. -/
theorem zero_chunk_or_digest {index : DiskIndex Id} (h : validateIndexShape index = .ok ()) :
    (∀ c < divCeil index.logicalSize index.chunkSize,
      Xor (isZeroChunk index c = true) (DigestIndex.get index.chunks c ≠ none)) ∧
    ∀ queries : List ℕ,
      (queries.Pairwise fun a b => a ≤ b ∧ (a = b → DigestIndex.get index.chunks a = none)) →
      DigestIndex.cursorAnswers index.chunks 0 queries =
        queries.map (DigestIndex.get index.chunks) := by
  obtain ⟨⟨-, -, hsorted, hgapped, hcovers⟩, hcount⟩ := wellShaped_of_validateIndexShape h
  rw [funext (DigestIndex.get_eq_lookupDigest hsorted)]
  refine ⟨fun c hc => ?_, fun queries hqueries => ?_⟩
  · have hzero := isZeroChunk_iff hgapped
      (fun range hmem => (hcovers.range_le hgapped hmem).trans hcount) c
    rw [hzero, Ne, lookupDigest_eq_none, not_not]
    rcases (hcovers.covered c).mpr ⟨Nat.zero_le c, hc⟩ with hdigest | hzeros
    · exact .inr ⟨hdigest, fun hzeros => hcovers.disjoint c ⟨hdigest, hzeros⟩⟩
    · exact .inl ⟨hzeros, fun hdigest => hcovers.disjoint c ⟨hdigest, hzeros⟩⟩
  · exact DigestIndex.cursorAnswers_eq hsorted queries 0 (fun c _ i _ hlow => by omega) hqueries

def twoChunks : DiskIndex ℕ where
  kind := diskIndexKind
  hashAlgorithm := ""
  objectNamespace := ""
  logicalSize := 8
  chunkSize := 4
  chunks := [⟨0, 7⟩]
  zeroRanges := [⟨1, 1⟩]

theorem zero_chunk_or_digest_two_chunks : validateIndexShape twoChunks = .ok () ∧
      DigestIndex.cursorAnswers twoChunks.chunks 0 [0, 1, 1] = [some 7, none, none] :=
  have hshape : validateIndexShape twoChunks = .ok () := rfl
  ⟨hshape, (zero_chunk_or_digest hshape).2 [0, 1, 1] (by decide)⟩

theorem cursor_answers_once : validateIndexShape twoChunks = .ok () ∧ [0, 0].Pairwise (· ≤ ·) ∧
      DigestIndex.cursorAnswers twoChunks.chunks 0 [0, 0] = [some 7, none] ∧
      [0, 0].map (DigestIndex.get twoChunks.chunks) = [some 7, some 7] :=
  ⟨rfl, by decide, rfl, rfl⟩

-- ══ Refusals

def Refused (e : StorageError) : Prop := e = .badManifest ∨ e = .formatTooOld

lemma checkKind_raises (kind : String) : Raises Refused (checkKind kind) :=
  .ite (fun _ => .ok ()) fun _ => .refuse (.inr rfl) <| .error (.inl rfl)

lemma sumZeroRanges_raises (zeroCount : ℕ) (ranges : List DiskIndexZeroRange) :
    Raises Refused (sumZeroRanges zeroCount ranges) := by
  induction ranges generalizing zeroCount with
  | nil => exact .ok _
  | cons range ranges ih => exact .refuse (.inl rfl) <| ih _

lemma checkChunkOrder_raises (chunkCount : ℕ) (previous : Option ℕ)
    (chunks : List (DiskIndexChunk Id)) :
    Raises Refused (checkChunkOrder chunkCount previous chunks) := by
  induction chunks generalizing previous with
  | nil => exact .ok _
  | cons entry entries ih =>
    exact .refuse (.inl rfl) <| .refuse (.inl rfl) <| ih _

lemma checkZeroOrder_raises (chunkCount : ℕ) (previousEnd : Option ℕ)
    (ranges : List DiskIndexZeroRange) :
    Raises Refused (checkZeroOrder chunkCount previousEnd ranges) := by
  induction ranges generalizing previousEnd with
  | nil => exact .ok _
  | cons range ranges ih =>
    exact .refuse (.inl rfl) <| .refuse (.inl rfl) <|
      .refuse (.inl rfl) <| .refuse (.inl rfl) <| ih _

lemma checkCover_raises (fuel next : ℕ) (chunks : List (DiskIndexChunk Id))
    (ranges : List DiskIndexZeroRange) (hchunks : ∀ entry ∈ chunks, entry.logicalChunk < maxU64) :
    Raises Refused (checkCover fuel next chunks ranges) := by
  have hchunk : ∀ {entry : DiskIndexChunk Id} {next : ℕ} {x : Except StorageError ℕ},
      entry.logicalChunk < maxU64 → Raises Refused x →
      Raises Refused (if entry.logicalChunk ≠ next then .error .badManifest
        else if next + 1 > maxU64 then .error .assertionFailed else x) := by
    intro entry next x hlt hx
    refine .ite (fun _ => .error (.inl rfl)) fun hentry => .ite (fun htrap => ?_) fun _ => hx
    omega
  have hrange : ∀ {range : DiskIndexZeroRange} {next : ℕ} {x : Except StorageError ℕ},
      Raises Refused x →
      Raises Refused (if range.start ≠ next then .error .badManifest
        else if next + range.count > maxU64 then .error .badManifest else x) := fun hx =>
    .refuse (.inl rfl) <| .refuse (.inl rfl) <| hx
  induction fuel generalizing next chunks ranges with
  | zero => exact .ok _
  | succ fuel ih =>
    match chunks, ranges with
    | [], [] => exact .ok _
    | entry :: entries, [] =>
      exact hchunk (hchunks entry (by simp)) (ih _ _ _ fun e he => hchunks e (by simp [he]))
    | [], range :: ranges => exact hrange (ih _ _ _ hchunks)
    | entry :: entries, range :: ranges =>
      refine .ite (fun _ => ?_) fun _ => hrange (ih _ _ _ hchunks)
      exact hchunk (hchunks entry (by simp)) (ih _ _ _ fun e he => hchunks e (by simp [he]))

/-- **No overflow.** An index is refused with an error of the codec: no addition of the check traps,
whatever the numbers in the index are. -/
theorem validateIndexShape_raises (hcount : divCeil index.logicalSize index.chunkSize ≤ maxU64) :
    Raises Refused (validateIndexShape index) := by
  refine .bind (.rejectIf (.inl rfl)) fun _ _ => .bind (checkKind_raises _) fun _ _ => ?_
  refine .bind (.refuse (.inl rfl) <| .ok _) fun chunkCount hchunkCount => ?_
  obtain ⟨-, hchunkCount⟩ := ite_error_ok.mp hchunkCount
  cases hchunkCount
  refine .bind (sumZeroRanges_raises _ _) fun _ _ => .bind (.rejectIf (.inl rfl)) fun _ _ => ?_
  refine .bind (.rejectIf (.inl rfl)) fun _ _ => ?_
  refine .bind (checkChunkOrder_raises _ _ _) fun _ horder => ?_
  have hbelow := (sorted_of_checkChunkOrder _ _ _ horder).2
  refine .bind (checkZeroOrder_raises _ _ _) fun _ _ => ?_
  refine .bind (checkCover_raises _ _ _ _ fun e he => ?_) fun _ _ => .rejectIf (.inl rfl)
  exact (hbelow e he).1.trans_le hcount

-- ══ Drafts

lemma gapped_appendZeroChunk {n : ℕ} (hgapped : GappedRanges ranges)
    (hle : ∀ range ∈ ranges, range.start + range.count ≤ n) :
    GappedRanges (appendZeroChunk ranges n) ∧
      ∀ range ∈ appendZeroChunk ranges n, range.start + range.count ≤ n + 1 := by
  rcases eq_nil_or_concat ranges with rfl | ⟨init, last, rfl⟩
  · exact ⟨⟨by simp [appendZeroChunk], by simp [appendZeroChunk]⟩, by simp [appendZeroChunk]⟩
  rw [concat_eq_append] at hgapped hle ⊢
  obtain ⟨hnonempty, hgaps⟩ := hgapped
  obtain ⟨hinit, -, hlast⟩ := pairwise_append.mp hgaps
  have hlastLe := hle last (by simp)
  have hlastNe := hnonempty last (by simp)
  by_cases htouch : last.start + last.count = n
  · have happend : appendZeroChunk (init ++ [last]) n =
        init ++ [{ last with count := last.count + 1 }] := by
      simp [appendZeroChunk, htouch]
    rw [happend]
    refine ⟨⟨?_, ?_⟩, ?_⟩
    · intro r hr
      rcases mem_append.mp hr with hr | hr
      · exact hnonempty r (by simp [hr])
      · obtain rfl := mem_singleton.mp hr
        exact Nat.succ_ne_zero _
    · refine pairwise_append.mpr ⟨hinit, pairwise_singleton _ _, fun a ha b hb => ?_⟩
      obtain rfl := mem_singleton.mp hb
      exact hlast a ha last (by simp)
    · intro r hr
      rcases mem_append.mp hr with hr | hr
      · have := hle r (by simp [hr])
        omega
      · obtain rfl := mem_singleton.mp hr
        dsimp only
        omega
  · have happend : appendZeroChunk (init ++ [last]) n = (init ++ [last]) ++ [⟨n, 1⟩] := by
      simp [appendZeroChunk, htouch]
    rw [happend]
    refine ⟨⟨?_, ?_⟩, ?_⟩
    · intro r hr
      rcases mem_append.mp hr with hr | hr
      · exact hnonempty r hr
      · obtain rfl := mem_singleton.mp hr
        exact Nat.one_ne_zero
    · refine pairwise_append.mpr ⟨hgaps, pairwise_singleton _ _, fun a ha b hb => ?_⟩
      obtain rfl := mem_singleton.mp hb
      rcases mem_append.mp ha with ha | ha
      · have := hlast a ha last (by simp)
        dsimp only
        omega
      · obtain rfl := mem_singleton.mp ha
        dsimp only
        omega
    · intro r hr
      rcases mem_append.mp hr with hr | hr
      · have := hle r hr
        omega
      · obtain rfl := mem_singleton.mp hr
        exact Nat.le_refl _

lemma gapped_draftOf (decision : ℕ → SealResult Id) (n : ℕ) :
    GappedRanges (draftOf decision n).zeroRanges ∧
      ∀ range ∈ (draftOf decision n).zeroRanges, range.start + range.count ≤ n := by
  induction n with
  | zero => exact ⟨⟨by simp [draftOf], by simp [draftOf]⟩, by simp [draftOf]⟩
  | succ n ih =>
    obtain ⟨hgapped, hle⟩ := ih
    rw [draftOf]
    cases decision n with
    | zero => exact gapped_appendZeroChunk hgapped hle
    | data id => exact ⟨hgapped, fun r hr => Nat.le_succ_of_le (hle r hr)⟩

/-- **The index of a draft is well formed.** -/
theorem validateIndexShape_draftOf {decision : ℕ → SealResult Id}
    (hkind : index.kind = diskIndexKind) (hpos : 0 < index.chunkSize)
    (hcount : divCeil index.logicalSize index.chunkSize ≤ maxU64) (hchunks : index.chunks =
      (draftOf decision (divCeil index.logicalSize index.chunkSize)).chunks)
    (hranges : index.zeroRanges =
      (draftOf decision (divCeil index.logicalSize index.chunkSize)).zeroRanges) :
    validateIndexShape index = .ok () := by
  refine (validateIndexShape_iff hcount).mpr ⟨hkind, by omega, ?_, ?_, ?_⟩
  · rw [hchunks]
    exact sorted_draftOf decision _
  · rw [hranges]
    exact (gapped_draftOf decision _).1
  · rw [hchunks, hranges]
    exact covers_draftOf decision _

end SporeVM
