import SporeVM.Cache.IndexCodec
import SporeVM.Disk.IndexShape

/-!
# Which indexes are accepted

An index is checked twice: in its encoded form, where each run of consecutive chunks is one entry,
and after it has been decoded. The first check looks at each of the two lists of ranges alone, the
second at how they fit together.
-/

namespace SporeVM.IndexCodec

open Lib Lib.Check

def DiskIndexChunkRangeV2.count (range : DiskIndexChunkRangeV2) : ℕ :=
  range.digests.length / ChunkId.hexLen

/-- Ranges of whole digests in ascending order that do not touch, all of them below the chunk
count. -/
structure GappedDigests (chunkCount : ℕ) (ranges : List DiskIndexChunkRangeV2) : Prop where
  nonempty : ∀ range ∈ ranges, range.digests.length ≠ 0
  whole : ∀ range ∈ ranges, range.digests.length % ChunkId.hexLen = 0
  below : ∀ range ∈ ranges, range.start + range.count ≤ chunkCount
  gaps : ranges.Pairwise fun a b => a.start + a.count < b.start

lemma gappedDigests_cons {chunkCount : ℕ} {range : DiskIndexChunkRangeV2}
    {ranges : List DiskIndexChunkRangeV2} : GappedDigests chunkCount (range :: ranges) ↔
      (range.digests.length ≠ 0 ∧ range.digests.length % ChunkId.hexLen = 0 ∧
        range.start + range.count ≤ chunkCount) ∧
      (∀ r ∈ ranges, range.start + range.count < r.start) ∧ GappedDigests chunkCount ranges := by
  constructor
  · rintro ⟨hnonempty, hwhole, hbelow, hgaps⟩
    obtain ⟨hfirst, hrest⟩ := List.pairwise_cons.mp hgaps
    exact ⟨⟨hnonempty _ (by simp), hwhole _ (by simp), hbelow _ (by simp)⟩, hfirst,
      fun r hr => hnonempty r (by simp [hr]), fun r hr => hwhole r (by simp [hr]),
      fun r hr => hbelow r (by simp [hr]), hrest⟩
  · rintro ⟨⟨hne, hdvd, hle⟩, hfirst, hnonempty, hwhole, hbelow, hgaps⟩
    exact ⟨List.forall_mem_cons.mpr ⟨hne, hnonempty⟩, List.forall_mem_cons.mpr ⟨hdvd, hwhole⟩,
      List.forall_mem_cons.mpr ⟨hle, hbelow⟩, List.pairwise_cons.mpr ⟨hfirst, hgaps⟩⟩

lemma count_pos {range : DiskIndexChunkRangeV2} (hne : range.digests.length ≠ 0)
    (hwhole : range.digests.length % ChunkId.hexLen = 0) : 0 < range.count :=
  Nat.div_pos (Nat.le_of_dvd (Nat.pos_of_ne_zero hne) (Nat.dvd_of_mod_eq_zero hwhole)) (by decide)

lemma checkRangeOrder_iff {chunkCount : ℕ} (hcount : chunkCount ≤ maxU64)
    {ranges : List DiskIndexChunkRangeV2} : ∀ {previousEnd : Option ℕ},
    checkRangeOrder chunkCount previousEnd ranges = .ok () ↔
      GappedDigests chunkCount ranges ∧ ∀ p ∈ previousEnd, ∀ range ∈ ranges, p < range.start := by
  induction ranges with
  | nil => exact fun {_} => ⟨fun _ => ⟨⟨by simp, by simp, by simp, .nil⟩, by simp⟩, fun _ => rfl⟩
  | cons range ranges ih =>
    intro previousEnd
    rw [checkRangeOrder, ite_error_ok, ite_error_ok, ite_error_ok, ite_error_ok, ih,
      gappedDigests_cons]
    have hpos := @count_pos range
    unfold DiskIndexChunkRangeV2.count at hpos ⊢
    constructor
    · rintro ⟨hdigests, -, hbelow, hprev, hrest, hfirst⟩
      have hfirst := hfirst _ rfl
      refine ⟨⟨⟨by omega, by omega, by omega⟩, hfirst, hrest⟩, fun p hp r hr => ?_⟩
      have hp : p < range.start := by
        by_contra hle
        exact hprev ⟨p, hp, by omega⟩
      rcases List.mem_cons.mp hr with rfl | hr
      · exact hp
      · have := hfirst r hr
        omega
    · rintro ⟨⟨⟨hne, hwhole, hle⟩, hfirst, hrest⟩, hprev⟩
      have hpos := hpos hne hwhole
      refine ⟨by omega, by omega, by omega, ?_, hrest, ?_⟩
      · rintro ⟨p, hp, hle⟩
        have := hprev p hp range (by simp)
        omega
      · rintro p hp r hr
        cases hp
        exact hfirst r hr

structure WellShapedV2 (index : DiskIndexV2) : Prop where
  kind_eq : index.kind = diskIndexKind
  chunkSize_ne : index.chunkSize ≠ 0
  digests : GappedDigests (divCeil index.logicalSize index.chunkSize) index.chunkRanges
  gapped : GappedRanges index.zeroRanges
  below : ∀ range ∈ index.zeroRanges,
    range.start + range.count ≤ divCeil index.logicalSize index.chunkSize

lemma validateV2Shape_iff {index : DiskIndexV2}
    (hcount : divCeil index.logicalSize index.chunkSize ≤ maxU64) :
    validateV2Shape index = .ok () ↔ WellShapedV2 index := by
  unfold validateV2Shape
  rw [seq_ok, rejectIf_ok, not_not, seq_ok, rejectIf_ok, bind_ok]
  constructor
  · rintro ⟨hkind, hsize, chunkCount, hchunkCount, h⟩
    obtain ⟨-, hchunkCount⟩ := ite_error_ok.mp hchunkCount
    cases hchunkCount
    obtain ⟨hdigests, hzeros⟩ := seq_ok.mp h
    obtain ⟨hgapped, hbelow⟩ := gapped_of_checkZeroOrder _ _ _ hzeros
    exact ⟨hkind, hsize, ((checkRangeOrder_iff hcount).mp hdigests).1, hgapped,
      fun range hrange => (hbelow range hrange).1⟩
  · rintro ⟨hkind, hsize, hdigests, hgapped, hbelow⟩
    refine ⟨hkind, hsize, _, if_neg hsize, seq_ok.mpr ⟨?_, ?_⟩⟩
    · exact (checkRangeOrder_iff hcount).mpr ⟨hdigests, by simp⟩
    · exact checkZeroOrder_of_gapped _ hcount _ _ hgapped hbelow (by simp)

lemma checkRangeOrder_raises (chunkCount : ℕ) (previousEnd : Option ℕ)
    (ranges : List DiskIndexChunkRangeV2) :
    Raises Refused (checkRangeOrder chunkCount previousEnd ranges) := by
  induction ranges generalizing previousEnd with
  | nil => exact .ok _
  | cons range ranges ih =>
    exact .refuse (.inl rfl) <| .refuse (.inl rfl) <|
      .refuse (.inl rfl) <| .refuse (.inl rfl) <| ih _

lemma validateV2Shape_raises (index : DiskIndexV2) : Raises Refused (validateV2Shape index) := by
  refine .bind (.rejectIf (.inl rfl)) fun _ _ => .bind (.rejectIf (.inl rfl)) fun _ _ => ?_
  refine .bind (.refuse (.inl rfl) <| .ok _) fun _ _ => ?_
  exact .bind (checkRangeOrder_raises _ _ _) fun _ _ => checkZeroOrder_raises _ _ _

/-- An index of a retired kind is refused, though it covers what it should. -/
theorem retired_index_refused :
    ∃ index : DiskIndex ChunkId, SortedChunks index.chunks ∧ GappedRanges index.zeroRanges ∧
      Covers 0 (divCeil index.logicalSize index.chunkSize) index.chunks index.zeroRanges ∧
      validateIndexShape index = .error .formatTooOld := by
  refine ⟨⟨"spore-disk-index-v1", 0, 1, "", "", [], []⟩, .nil, ⟨by simp, .nil⟩, covers_nil 0, ?_⟩
  rfl

/-- **Acceptance.** For indexes whose sizes are machine integers. A decoded index passes exactly if
it is of the current kind with a chunk size that is not zero, its chunk numbers strictly increase,
its zero ranges are nonempty, sorted and do not touch, and the two lists are a partition of the
chunk numbers. An encoded index passes its own check exactly if it is of the current kind with a
chunk size that is not zero, and each of its two lists of ranges is nonempty by entry, sorted,
without two that touch, and below the chunk count. Every other index is refused with an error of the
codec: no addition of the checks overflows. -/
theorem index_accepted_iff {Id : Type} (index : DiskIndex Id) (v2 : DiskIndexV2)
    (hindex : index.logicalSize ≤ maxU64) (hv2 : v2.logicalSize ≤ maxU64) :
    (validateIndexShape index = .ok () ↔
        index.kind = diskIndexKind ∧ index.chunkSize ≠ 0 ∧ SortedChunks index.chunks ∧
          GappedRanges index.zeroRanges ∧
          Covers 0 (divCeil index.logicalSize index.chunkSize) index.chunks index.zeroRanges) ∧
      (validateV2Shape v2 = .ok () ↔
        v2.kind = diskIndexKind ∧ v2.chunkSize ≠ 0 ∧
          GappedDigests (divCeil v2.logicalSize v2.chunkSize) v2.chunkRanges ∧
          GappedRanges v2.zeroRanges ∧
          ∀ range ∈ v2.zeroRanges,
            range.start + range.count ≤ divCeil v2.logicalSize v2.chunkSize) ∧
      validateIndexShape index ≠ .error .assertionFailed ∧
      validateV2Shape v2 ≠ .error .assertionFailed := by
  have hcount : ∀ {size chunkSize : ℕ}, size ≤ maxU64 → divCeil size chunkSize ≤ maxU64 := by
    intro size chunkSize hsize
    by_cases hzero : chunkSize = 0
    · rw [hzero, divCeil, Nat.div_zero]
      exact Nat.zero_le _
    · exact (divCeil_le hzero).trans hsize
  have hrefused : ¬ Refused .assertionFailed := by
    rintro (h | h) <;> cases h
  refine ⟨(validateIndexShape_iff (hcount hindex)).trans ?_,
    (validateV2Shape_iff (hcount hv2)).trans ?_, ?_, ?_⟩
  · exact ⟨fun h => ⟨h.kind_eq, h.chunkSize_ne, h.sorted, h.gapped, h.covers⟩,
      fun ⟨hkind, hsize, hsorted, hgapped, hcovers⟩ => ⟨hkind, hsize, hsorted, hgapped, hcovers⟩⟩
  · exact ⟨fun h => ⟨h.kind_eq, h.chunkSize_ne, h.digests, h.gapped, h.below⟩,
      fun ⟨hkind, hsize, hdigests, hgapped, hbelow⟩ => ⟨hkind, hsize, hdigests, hgapped, hbelow⟩⟩
  · exact fun h => hrefused (validateIndexShape_raises (hcount hindex) _ h)
  · exact fun h => hrefused (validateV2Shape_raises v2 _ h)

/-- The largest sizes, with one zero range over all chunks. -/
theorem index_accepted_iff_largest :
    validateIndexShape (⟨diskIndexKind, maxU64, 1, "", "", [], [⟨0, maxU64⟩]⟩ : DiskIndex ChunkId) =
        .ok () ∧
      Covers 0 (divCeil maxU64 1) ([] : List (DiskIndexChunk ChunkId)) [⟨0, maxU64⟩] := by
  have h := index_accepted_iff
    (⟨diskIndexKind, maxU64, 1, "", "", [], [⟨0, maxU64⟩]⟩ : DiskIndex ChunkId)
    ⟨diskIndexKind, 0, 1, "", "", [], []⟩ (Nat.le_refl _) (Nat.zero_le _)
  have haccepted : validateIndexShape
      (⟨diskIndexKind, maxU64, 1, "", "", [], [⟨0, maxU64⟩]⟩ : DiskIndex ChunkId) = .ok () := by
    decide +kernel
  exact ⟨haccepted, (h.1.mp haccepted).2.2.2.2⟩

end SporeVM.IndexCodec
