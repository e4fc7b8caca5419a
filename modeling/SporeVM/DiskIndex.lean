import Mathlib.Data.List.Basic
import Mathlib.Order.Basic
import SporeVM.Lib.EState
import SporeVM.Lib.Chunking

/-!
# Chunk-mapped disk indexes

The index of `disk_index.zig` in decoded form: a sorted list of nonzero chunks with the digest of
each, and a list of ranges of zero chunks. The digest type `Id` is a parameter, since nothing here
looks inside a digest.

`DigestIndex` is the copy of the chunk list a runtime disk keeps, with its binary search and its
forward cursor. Both are proved to answer as a plain lookup does on every sorted list.
-/

namespace SporeVM

open List

def maxU64 : ℕ := 2 ^ 64 - 1

def maxOff : ℕ := 2 ^ 63 - 1

inductive StorageError
  | badManifest | formatTooOld | outOfMemory
  | badClusterSize | badDiskSize | outOfRange | readOnly | shortRead | shortWrite
  | resizeFailed | poisoned | fastForkUnavailable | imageStoreIncomplete
  | badChunk | missingChunk | ioFailed
  | badDescriptor | badOverlay | descriptorTooLarge
  /-- A failed `std.debug.assert`, or an unchecked addition that overflows. -/
  | assertionFailed
  deriving DecidableEq

inductive BaselineKind
  | rootfs | diskIndex
  deriving DecidableEq

structure DiskIndexChunk (Id : Type) where
  logicalChunk : ℕ
  id : Id
  deriving DecidableEq

structure DiskIndexZeroRange where
  start : ℕ
  count : ℕ
  deriving DecidableEq

structure DiskIndex (Id : Type) where
  kind : String
  logicalSize : ℕ
  chunkSize : ℕ
  hashAlgorithm : String
  objectNamespace : String
  chunks : List (DiskIndexChunk Id)
  zeroRanges : List DiskIndexZeroRange
  deriving DecidableEq

structure IndexDescriptor where
  logicalSize : ℕ
  chunkSize : ℕ
  hashAlgorithm : String
  objectNamespace : String

def diskIndexKind : String := "spore-disk-index-v2"

def retiredKinds : List String := ["rootfs-block-index-v0", "spore-disk-index-v1"]

def hashAlgorithmBlake3 : String := "blake3"

def rootfsObjectNamespace : String := "rootfs/blake3"

def diskChunkSize : ℕ := 64 * 1024

structure RootfsDevice where
  kind : String
  role : String
  virtioDeviceId : ℕ
  mmioSlot : ℕ
  deriving DecidableEq

structure SporeDisk (Id : Type) where
  kind : String
  device : RootfsDevice
  size : ℕ
  /-- Digest of the disk index. -/
  base : Id
  chunkSize : ℕ
  hashAlgorithm : String
  objectNamespace : String
  deriving DecidableEq

def diskKindChunkIndex : String := "chunk-index-disk-v0"

open Lib (divCeil)
open Lib.Check (rejectIf bind_ok ite_error_ok rejectIf_ok rejectIf_bind_ok)

variable {Id : Type}

def checkKind (kind : String) : Except StorageError Unit :=
  if kind = diskIndexKind then .ok ()
  else if kind ∈ retiredKinds then .error .formatTooOld
  else .error .badManifest

lemma checkKind_ok {kind : String} : checkKind kind = .ok () ↔ kind = diskIndexKind := by
  unfold checkKind
  split
  · next h => exact ⟨fun _ => h, fun _ => rfl⟩
  · next h =>
    split
    · exact ⟨nofun, fun hkind => absurd hkind h⟩
    · exact ⟨nofun, fun hkind => absurd hkind h⟩

def indexChunkCount (logicalSize chunkSize : ℕ) : Except StorageError ℕ :=
  if chunkSize = 0 then .error .badManifest else .ok (divCeil logicalSize chunkSize)

def sumZeroRanges : ℕ → List DiskIndexZeroRange → Except StorageError ℕ
  | zeroCount, [] => .ok zeroCount
  | zeroCount, range :: ranges =>
    if zeroCount + range.count > maxU64 then .error .badManifest
    else sumZeroRanges (zeroCount + range.count) ranges

def checkChunkOrder (chunkCount : ℕ) :
    Option ℕ → List (DiskIndexChunk Id) → Except StorageError Unit
  | _, [] => .ok ()
  | previous, entry :: entries =>
    if entry.logicalChunk ≥ chunkCount then .error .badManifest
    else if ∃ p ∈ previous, entry.logicalChunk ≤ p then .error .badManifest
    else checkChunkOrder chunkCount (some entry.logicalChunk) entries

def checkZeroOrder (chunkCount : ℕ) : Option ℕ → List DiskIndexZeroRange → Except StorageError Unit
  | _, [] => .ok ()
  | previousEnd, range :: ranges =>
    if range.count = 0 ∨ range.start ≥ chunkCount then .error .badManifest
    else if range.start + range.count > maxU64 then .error .badManifest
    else if range.start + range.count > chunkCount then .error .badManifest
    else if ∃ p ∈ previousEnd, range.start ≤ p then .error .badManifest
    else checkZeroOrder chunkCount (some (range.start + range.count)) ranges

/-- The merge loop: chunks and zero ranges together count up from `next` without gap or overlap.
The addition of one is not checked, so that an overflow would trap. The fuel is the number of
entries left, of which every iteration takes one. -/
def checkCover : ℕ → ℕ → List (DiskIndexChunk Id) → List DiskIndexZeroRange →
    Except StorageError ℕ
  | 0, next, _, _ => .ok next
  | _ + 1, next, [], [] => .ok next
  | fuel + 1, next, entry :: entries, [] =>
    if entry.logicalChunk ≠ next then .error .badManifest
    else if next + 1 > maxU64 then .error .assertionFailed
    else checkCover fuel (next + 1) entries []
  | fuel + 1, next, [], range :: ranges =>
    if range.start ≠ next then .error .badManifest
    else if next + range.count > maxU64 then .error .badManifest
    else checkCover fuel (next + range.count) [] ranges
  | fuel + 1, next, entry :: entries, range :: ranges =>
    if entry.logicalChunk < range.start then
      if entry.logicalChunk ≠ next then .error .badManifest
      else if next + 1 > maxU64 then .error .assertionFailed
      else checkCover fuel (next + 1) entries (range :: ranges)
    else
      if range.start ≠ next then .error .badManifest
      else if next + range.count > maxU64 then .error .badManifest
      else checkCover fuel (next + range.count) (entry :: entries) ranges

def validateIndexShape (index : DiskIndex Id) : Except StorageError Unit := do
  rejectIf (index.chunkSize = 0) .badManifest
  checkKind index.kind
  let chunkCount ← indexChunkCount index.logicalSize index.chunkSize
  let zeroCount ← sumZeroRanges 0 index.zeroRanges
  rejectIf (index.chunks.length + zeroCount > maxU64) .badManifest
  rejectIf (index.chunks.length + zeroCount ≠ chunkCount) .badManifest
  checkChunkOrder chunkCount none index.chunks
  checkZeroOrder chunkCount none index.zeroRanges
  let next ← checkCover (index.chunks.length + index.zeroRanges.length) 0 index.chunks
    index.zeroRanges
  rejectIf (next ≠ chunkCount) .badManifest

def validateDiskIndex (index : DiskIndex Id) (descriptor : IndexDescriptor) :
    Except StorageError Unit := do
  rejectIf (descriptor.chunkSize = 0) .badManifest
  rejectIf (index.logicalSize ≠ descriptor.logicalSize) .badManifest
  rejectIf (index.chunkSize ≠ descriptor.chunkSize) .badManifest
  rejectIf (index.hashAlgorithm ≠ descriptor.hashAlgorithm) .badManifest
  rejectIf (index.objectNamespace ≠ descriptor.objectNamespace) .badManifest
  validateIndexShape index

def maxIndexBytes : ℕ := 64 * 1024 * 1024

def encodeCanonical (hash : List UInt8 → Id) (stringify : DiskIndex Id → List UInt8)
    (index : DiskIndex Id) : Except StorageError Id := do
  validateIndexShape index
  checkKind index.kind
  rejectIf ((stringify index).length = 0 ∨ (stringify index).length > maxIndexBytes) .badManifest
  pure (hash (stringify index))

lemma encodeCanonical_ok {hash : List UInt8 → Id} {stringify : DiskIndex Id → List UInt8}
    {index : DiskIndex Id} {digest : Id} (h : encodeCanonical hash stringify index = .ok digest) :
    digest = hash (stringify index) := by
  iterate 3 obtain ⟨_, -, h⟩ := bind_ok.mp h
  cases h
  rfl

def appendZeroChunk (ranges : List DiskIndexZeroRange) (logicalChunk : ℕ) :
    List DiskIndexZeroRange :=
  match ranges.getLast? with
  | some last =>
    if last.start + last.count = logicalChunk then
      ranges.dropLast ++ [{ last with count := last.count + 1 }]
    else ranges ++ [⟨logicalChunk, 1⟩]
  | none => ranges ++ [⟨logicalChunk, 1⟩]

/-- The loop of `isZeroChunk`. A range whose end does not fit stops the search. -/
def isZeroLoop (ranges : List DiskIndexZeroRange) (c : ℕ) : ℕ → ℕ → ℕ → Bool
  | 0, _, _ => false
  | fuel + 1, low, high =>
    if low < high then
      match ranges[low + (high - low) / 2]? with
      | none => false
      | some range =>
        if c < range.start then isZeroLoop ranges c fuel low (low + (high - low) / 2)
        else if range.start + range.count > maxU64 then false
        else if c < range.start + range.count then true
        else isZeroLoop ranges c fuel (low + (high - low) / 2 + 1) high
    else false

def isZeroChunk (index : DiskIndex Id) (c : ℕ) : Bool :=
  isZeroLoop index.zeroRanges c index.zeroRanges.length 0 index.zeroRanges.length

def InZeroRanges (ranges : List DiskIndexZeroRange) (c : ℕ) : Prop :=
  ∃ range ∈ ranges, range.start ≤ c ∧ c < range.start + range.count

def HasDigest (chunks : List (DiskIndexChunk Id)) (c : ℕ) : Prop :=
  ∃ entry ∈ chunks, entry.logicalChunk = c

-- ══ What an accepted index covers

structure Covers (next stop : ℕ) (chunks : List (DiskIndexChunk Id))
    (ranges : List DiskIndexZeroRange) : Prop where
  le : next ≤ stop
  covered : ∀ c, (HasDigest chunks c ∨ InZeroRanges ranges c) ↔ next ≤ c ∧ c < stop
  disjoint : ∀ c, ¬ (HasDigest chunks c ∧ InZeroRanges ranges c)

def SortedChunks (chunks : List (DiskIndexChunk Id)) : Prop :=
  chunks.Pairwise fun a b => a.logicalChunk < b.logicalChunk

variable {entries : List (DiskIndexChunk Id)} {c : ℕ} {entry : DiskIndexChunk Id}

lemma hasDigest_cons :
    HasDigest (entry :: entries) c ↔ entry.logicalChunk = c ∨ HasDigest entries c := by
  simp [HasDigest]

variable {ranges : List DiskIndexZeroRange}

lemma inZeroRanges_cons {range : DiskIndexZeroRange} : InZeroRanges (range :: ranges) c ↔
      (range.start ≤ c ∧ c < range.start + range.count) ∨ InZeroRanges ranges c := by
  simp [InZeroRanges]

lemma covers_nil (next : ℕ) : Covers next next ([] : List (DiskIndexChunk Id)) [] := by
  refine ⟨Nat.le_refl _, fun c => ?_, fun c => by simp [HasDigest]⟩
  simp only [HasDigest, InZeroRanges, not_mem_nil, false_and, exists_false, or_self, false_iff]
  omega

lemma Covers.cons_chunk {next stop : ℕ}
    (hentry : entry.logicalChunk = next) (h : Covers (next + 1) stop entries ranges) :
    Covers next stop (entry :: entries) ranges := by
  have hle := h.le
  refine ⟨by omega, fun c => ?_, fun c hc => ?_⟩
  · have hcov := h.covered c
    rw [hasDigest_cons, hentry, or_assoc, hcov]
    omega
  · obtain ⟨hd, hz⟩ := hc
    rcases hasDigest_cons.mp hd with hd | hd
    · have := (h.covered c).mp (.inr hz)
      omega
    · exact h.disjoint c ⟨hd, hz⟩

lemma Covers.cons_range {next stop : ℕ} {range : DiskIndexZeroRange}
    {chunks : List (DiskIndexChunk Id)} (hrange : range.start = next)
    (h : Covers (next + range.count) stop chunks ranges) :
    Covers next stop chunks (range :: ranges) := by
  have hle := h.le
  refine ⟨by omega, fun c => ?_, fun c hc => ?_⟩
  · have hcov := h.covered c
    rw [inZeroRanges_cons, hrange, or_left_comm, hcov]
    omega
  · obtain ⟨hd, hz⟩ := hc
    rcases inZeroRanges_cons.mp hz with hz | hz
    · have := (h.covered c).mp (.inl hd)
      omega
    · exact h.disjoint c ⟨hd, hz⟩

/-- **Induction rule of the cover check.** A property of the next chunk and of what is left of the
lists that holds at the end, and that each entry taken passes backwards, holds at the start. -/
theorem checkCover_induction {stop : ℕ}
    {P : ℕ → List (DiskIndexChunk Id) → List DiskIndexZeroRange → Prop} (hnil : P stop [] [])
    (hchunk : ∀ entry entries ranges, P (entry.logicalChunk + 1) entries ranges →
      P entry.logicalChunk (entry :: entries) ranges)
    (hrange : ∀ range chunks ranges, P (range.start + range.count) chunks ranges →
      P range.start chunks (range :: ranges)) (fuel next : ℕ) (chunks : List (DiskIndexChunk Id))
    (ranges : List DiskIndexZeroRange) (hfuel : chunks.length + ranges.length ≤ fuel)
    (h : checkCover fuel next chunks ranges = .ok stop) : P next chunks ranges := by
  -- One entry is taken per unit of fuel, so the fuel runs out only on empty lists.
  induction fuel generalizing next chunks ranges with
  | zero =>
    obtain rfl : chunks = [] := eq_nil_of_length_eq_zero (by omega)
    obtain rfl : ranges = [] := eq_nil_of_length_eq_zero (by omega)
    cases h
    exact hnil
  | succ fuel ih =>
    match chunks, ranges with
    | [], [] =>
      cases h
      exact hnil
    | entry :: entries, [] =>
      obtain ⟨hentry, h⟩ := ite_error_ok.mp h
      obtain rfl := not_not.mp hentry
      exact hchunk _ _ _ (ih _ _ _ (by simp at hfuel ⊢; omega) (ite_error_ok.mp h).2)
    | [], range :: ranges =>
      obtain ⟨hstart, h⟩ := ite_error_ok.mp h
      obtain rfl := not_not.mp hstart
      exact hrange _ _ _ (ih _ _ _ (by simp at hfuel ⊢; omega) (ite_error_ok.mp h).2)
    | entry :: entries, range :: ranges =>
      simp only [checkCover] at h
      split at h
      · obtain ⟨hentry, h⟩ := ite_error_ok.mp h
        obtain rfl := not_not.mp hentry
        exact hchunk _ _ _ (ih _ _ _ (by simp at hfuel ⊢; omega) (ite_error_ok.mp h).2)
      · obtain ⟨hstart, h⟩ := ite_error_ok.mp h
        obtain rfl := not_not.mp hstart
        exact hrange _ _ _ (ih _ _ _ (by simp at hfuel ⊢; omega) (ite_error_ok.mp h).2)

lemma covers_of_checkCover (fuel next stop : ℕ) (chunks : List (DiskIndexChunk Id))
    (ranges : List DiskIndexZeroRange) (hfuel : chunks.length + ranges.length ≤ fuel)
    (h : checkCover fuel next chunks ranges = .ok stop) : Covers next stop chunks ranges :=
  checkCover_induction (P := fun next chunks ranges => Covers next stop chunks ranges)
    (covers_nil _) (fun _ _ _ hrest => hrest.cons_chunk rfl)
      (fun _ _ _ hrest => hrest.cons_range rfl)
    fuel next chunks ranges hfuel h

lemma sorted_of_checkChunkOrder (chunkCount : ℕ) (previous : Option ℕ)
    (chunks : List (DiskIndexChunk Id)) (h : checkChunkOrder chunkCount previous chunks = .ok ()) :
    SortedChunks chunks ∧ ∀ entry ∈ chunks, entry.logicalChunk < chunkCount ∧
      ∀ p ∈ previous, p < entry.logicalChunk := by
  induction chunks generalizing previous with
  | nil => exact ⟨List.Pairwise.nil, by simp⟩
  | cons entry entries ih =>
    obtain ⟨hlt, h⟩ := ite_error_ok.mp h
    obtain ⟨hprev, h⟩ := ite_error_ok.mp h
    obtain ⟨hsorted, hrest⟩ := ih _ h
    have habove : ∀ p ∈ previous, p < entry.logicalChunk := by
      intro p hp
      by_contra hle
      exact hprev ⟨p, hp, by omega⟩
    refine ⟨List.Pairwise.cons (fun e he => (hrest e he).2 _ rfl) hsorted, ?_⟩
    intro e he
    rcases mem_cons.mp he with rfl | he
    · exact ⟨by omega, habove⟩
    · have := hrest e he
      refine ⟨this.1, fun p hp => ?_⟩
      have h₁ := habove p hp
      have h₂ := this.2 _ rfl
      omega

lemma covers_of_validateIndexShape {index : DiskIndex Id} (h : validateIndexShape index = .ok ()) :
    0 < index.chunkSize ∧ SortedChunks index.chunks ∧
      Covers 0 (divCeil index.logicalSize index.chunkSize) index.chunks index.zeroRanges := by
  unfold validateIndexShape at h
  obtain ⟨hsize, h⟩ := rejectIf_bind_ok.mp h
  obtain ⟨_, -, h⟩ := bind_ok.mp h
  obtain ⟨chunkCount, hcount, h⟩ := bind_ok.mp h
  obtain ⟨-, hcount⟩ := ite_error_ok.mp hcount
  cases hcount
  obtain ⟨zeroCount, -, h⟩ := bind_ok.mp h
  iterate 2 obtain ⟨_, -, h⟩ := bind_ok.mp h
  obtain ⟨_, horder, h⟩ := bind_ok.mp h
  obtain ⟨_, -, h⟩ := bind_ok.mp h
  obtain ⟨next, hcover, h⟩ := bind_ok.mp h
  have hnext := not_not.mp (rejectIf_ok.mp h)
  subst hnext
  exact ⟨by omega, (sorted_of_checkChunkOrder _ _ _ horder).1,
    covers_of_checkCover _ _ _ _ _ (Nat.le_refl _) hcover⟩

lemma inZeroRanges_appendZeroChunk {x : ℕ} :
    InZeroRanges (appendZeroChunk ranges c) x ↔ InZeroRanges ranges x ∨ x = c := by
  have hsingle : InZeroRanges (ranges ++ [⟨c, 1⟩]) x ↔ InZeroRanges ranges x ∨ x = c := by
    simp only [InZeroRanges, mem_append, mem_singleton, or_and_right, exists_or, exists_eq_left]
    refine or_congr_right ?_
    omega
  unfold appendZeroChunk
  rcases eq_nil_or_concat ranges with rfl | ⟨front, last, rfl⟩
  · exact hsingle
  · rw [concat_eq_append] at hsingle ⊢
    rw [getLast?_append, getLast?_singleton]
    simp only [Option.some_or, dropLast_concat]
    split
    · next hend =>
      simp only [InZeroRanges, mem_append, mem_singleton, or_and_right, exists_or,
        exists_eq_left, or_assoc]
      refine or_congr_right ?_
      omega
    · exact hsingle

-- ══ Digest lookup

def lookupDigest (entries : List (DiskIndexChunk Id)) (c : ℕ) : Option Id :=
  (entries.find? (fun entry => entry.logicalChunk == c)).map (·.id)

namespace DigestIndex

def getLoop (entries : List (DiskIndexChunk Id)) (c : ℕ) : ℕ → ℕ → ℕ → Option Id
  | 0, _, _ => none
  | fuel + 1, low, high =>
    if low < high then
      match entries[low + (high - low) / 2]? with
      | none => none
      | some entry =>
        if entry.logicalChunk < c then getLoop entries c fuel (low + (high - low) / 2 + 1) high
        else if entry.logicalChunk > c then getLoop entries c fuel low (low + (high - low) / 2)
        else some entry.id
    else none

def get (entries : List (DiskIndexChunk Id)) (c : ℕ) : Option Id :=
  getLoop entries c entries.length 0 entries.length

/-- The loop of `Cursor.next` that skips the entries below `c`. The fuel is the number of entries
left. -/
def cursorSkip (entries : List (DiskIndexChunk Id)) (c : ℕ) : ℕ → ℕ → ℕ
  | 0, nextIndex => nextIndex
  | fuel + 1, nextIndex =>
    match entries[nextIndex]? with
    | some entry => if entry.logicalChunk < c then cursorSkip entries c fuel (nextIndex + 1)
      else nextIndex
    | none => nextIndex

def cursorNext (entries : List (DiskIndexChunk Id)) (nextIndex c : ℕ) : Option Id × ℕ :=
  let skipped := cursorSkip entries c (entries.length - nextIndex) nextIndex
  match entries[skipped]? with
  | some entry => if entry.logicalChunk ≠ c then (none, skipped) else (some entry.id, skipped + 1)
  | none => (none, skipped)

/-- What one cursor answers to one number after the other. -/
def cursorAnswers (entries : List (DiskIndexChunk Id)) : ℕ → List ℕ → List (Option Id)
  | _, [] => []
  | nextIndex, c :: queries =>
    (cursorNext entries nextIndex c).1 :: cursorAnswers entries (cursorNext entries nextIndex c).2
      queries

end DigestIndex

lemma lookupDigest_eq_none : lookupDigest entries c = none ↔ ¬ HasDigest entries c := by
  simp [lookupDigest, HasDigest]

lemma lookupDigest_of_mem (hsorted : SortedChunks entries)
    (hmem : entry ∈ entries) : lookupDigest entries entry.logicalChunk = some entry.id := by
  induction entries with
  | nil => simp at hmem
  | cons e es ih =>
    obtain ⟨hbelow, hrest⟩ := pairwise_cons.mp hsorted
    rcases mem_cons.mp hmem with rfl | hmem
    · simp [lookupDigest]
    · have hne : ¬ e.logicalChunk = entry.logicalChunk := by
        have := hbelow entry hmem
        omega
      rw [lookupDigest, List.find?_cons_of_neg (by simpa using hne)]
      exact ih hrest hmem

lemma mem_of_lookupDigest {id : Id} (h : lookupDigest entries c = some id) : ⟨c, id⟩ ∈ entries := by
  simp only [lookupDigest, Option.map_eq_some_iff] at h
  obtain ⟨entry, hfind, rfl⟩ := h
  have hc : entry.logicalChunk = c := by simpa using List.find?_some hfind
  subst hc
  exact List.mem_of_find?_eq_some hfind

namespace DigestIndex

lemma lookupDigest_none_of_split {low high : ℕ}
    (hbelow : ∀ i (hi : i < entries.length), i < low → entries[i].logicalChunk < c)
    (habove : ∀ i (hi : i < entries.length), high ≤ i → c < entries[i].logicalChunk)
    (hle : high ≤ low) : lookupDigest entries c = none := by
  rw [lookupDigest_eq_none]
  rintro ⟨entry, hmem, hc⟩
  obtain ⟨i, hi, rfl⟩ := getElem_of_mem hmem
  have h₁ := hbelow i hi
  have h₂ := habove i hi
  omega

lemma getLoop_eq_lookupDigest (hsorted : SortedChunks entries) (c : ℕ) (fuel low high : ℕ)
    (hfuel : high - low ≤ fuel) (hhigh : high ≤ entries.length)
    (hbelow : ∀ i (hi : i < entries.length), i < low → entries[i].logicalChunk < c)
    (habove : ∀ i (hi : i < entries.length), high ≤ i → c < entries[i].logicalChunk) :
    getLoop entries c fuel low high = lookupDigest entries c := by
  have horder := pairwise_iff_getElem.mp hsorted
  -- The interval shrinks around every entry of `c`; the fuel bounds its length.
  induction fuel generalizing low high with
  | zero => rw [getLoop, lookupDigest_none_of_split hbelow habove (by omega)]
  | succ fuel ih =>
    rw [getLoop]
    split
    · next hlt =>
      have hmid : low + (high - low) / 2 < entries.length := by omega
      rw [List.getElem?_eq_getElem hmid]
      simp only
      split
      · next hless =>
        refine ih _ _ (by omega) hhigh (fun i hi hlow => ?_) habove
        rcases Nat.lt_or_ge i (low + (high - low) / 2) with hi' | hi'
        · have := horder i _ hi hmid hi'
          omega
        · obtain rfl : i = low + (high - low) / 2 := by omega
          exact hless
      · split
        · next hmore =>
          refine ih _ _ (by omega) (by omega) hbelow (fun i hi hup => ?_)
          rcases Nat.lt_or_ge (low + (high - low) / 2) i with hi' | hi'
          · have := horder _ i hmid hi hi'
            omega
          · obtain rfl : i = low + (high - low) / 2 := by omega
            exact hmore
        · next hnotless hnotmore =>
          have hc : entries[low + (high - low) / 2].logicalChunk = c := by omega
          rw [← hc, lookupDigest_of_mem hsorted (getElem_mem hmid)]
    · next hge => rw [lookupDigest_none_of_split hbelow habove (by omega)]

/-- **Binary search.** On a sorted list `get` answers as a linear lookup. -/
theorem get_eq_lookupDigest (hsorted : SortedChunks entries) (c : ℕ) :
    get entries c = lookupDigest entries c := by
  refine getLoop_eq_lookupDigest hsorted c _ _ _ (by omega) (Nat.le_refl _) ?_ ?_
  · intro i hi hlow
    omega
  · intro i hi hup
    omega

def CursorBelow (entries : List (DiskIndexChunk Id)) (nextIndex c : ℕ) : Prop :=
  ∀ i (hi : i < entries.length), i < nextIndex → entries[i].logicalChunk < c

lemma cursorSkip_spec (fuel nextIndex : ℕ) (hfuel : entries.length - nextIndex ≤ fuel)
    (hbelow : CursorBelow entries nextIndex c) :
    CursorBelow entries (cursorSkip entries c fuel nextIndex) c ∧
      ∀ hi : cursorSkip entries c fuel nextIndex < entries.length,
        c ≤ (entries[cursorSkip entries c fuel nextIndex]).logicalChunk := by
  induction fuel generalizing nextIndex with
  | zero => exact ⟨hbelow, fun hi => by simp only [cursorSkip] at hi; omega⟩
  | succ fuel ih =>
    rcases Nat.lt_or_ge nextIndex entries.length with hlt | hge
    · by_cases hless : entries[nextIndex].logicalChunk < c
      · have hnext : cursorSkip entries c (fuel + 1) nextIndex =
            cursorSkip entries c fuel (nextIndex + 1) := by
          rw [cursorSkip, List.getElem?_eq_getElem hlt]
          exact if_pos hless
        simp only [hnext]
        refine ih _ (by omega) fun i hi hlow => ?_
        rcases Nat.lt_or_ge i nextIndex with hi' | hi'
        · exact hbelow i hi hi'
        · obtain rfl : i = nextIndex := by omega
          exact hless
      · have hstop : cursorSkip entries c (fuel + 1) nextIndex = nextIndex := by
          rw [cursorSkip, List.getElem?_eq_getElem hlt]
          exact if_neg hless
        simp only [hstop]
        exact ⟨hbelow, fun _ => by omega⟩
    · have hstop : cursorSkip entries c (fuel + 1) nextIndex = nextIndex := by
        rw [cursorSkip, List.getElem?_eq_none hge]
      simp only [hstop]
      exact ⟨hbelow, fun hi => by omega⟩

/-- **Forward cursor.** While chunk numbers are asked for in increasing order, the cursor answers as
a linear lookup and stays below every later number. -/
theorem cursorNext_spec (hsorted : SortedChunks entries) {nextIndex : ℕ}
    (hbelow : CursorBelow entries nextIndex c) :
    (cursorNext entries nextIndex c).1 = lookupDigest entries c ∧
      CursorBelow entries (cursorNext entries nextIndex c).2 (c + 1) := by
  have horder := pairwise_iff_getElem.mp hsorted
  obtain ⟨hskip, hstop⟩ := cursorSkip_spec _ nextIndex (Nat.le_refl _) hbelow
  have hcursor : cursorNext entries nextIndex c =
      match entries[cursorSkip entries c (entries.length - nextIndex) nextIndex]? with
      | some entry =>
        if entry.logicalChunk ≠ c then
          (none, cursorSkip entries c (entries.length - nextIndex) nextIndex)
        else (some entry.id, cursorSkip entries c (entries.length - nextIndex) nextIndex + 1)
      | none => (none, cursorSkip entries c (entries.length - nextIndex) nextIndex) := rfl
  generalize cursorSkip entries c (entries.length - nextIndex) nextIndex = k at *
  have hweak : CursorBelow entries k (c + 1) := fun i hi hk => by
    have := hskip i hi hk
    omega
  rcases Nat.lt_or_ge k entries.length with hlt | hge
  · rw [List.getElem?_eq_getElem hlt] at hcursor
    have hge' := hstop hlt
    by_cases hne : entries[k].logicalChunk ≠ c
    · rw [hcursor]
      simp only [if_pos hne]
      refine ⟨(lookupDigest_none_of_split hskip ?_ (Nat.le_refl _)).symm, hweak⟩
      intro i hi hup
      rcases Nat.lt_or_ge k i with hi' | hi'
      · have := horder k i hlt hi hi'
        omega
      · obtain rfl : i = k := by omega
        omega
    · rw [hcursor]
      simp only [if_neg hne]
      have hc := not_not.mp hne
      refine ⟨by rw [← hc, lookupDigest_of_mem hsorted (getElem_mem hlt)], ?_⟩
      intro i hi hlow
      rcases Nat.lt_or_ge i k with hi' | hi'
      · exact hweak i hi hi'
      · obtain rfl : i = k := by omega
        omega
  · rw [List.getElem?_eq_none hge] at hcursor
    rw [hcursor]
    refine ⟨(lookupDigest_none_of_split hskip ?_ (Nat.le_refl _)).symm, hweak⟩
    intro i hi hup
    omega

lemma cursorAnswers_eq (hsorted : SortedChunks entries) (queries : List ℕ) (nextIndex : ℕ)
    (hbelow : ∀ c ∈ queries, CursorBelow entries nextIndex c)
    (hqueries : queries.Pairwise fun a b => a ≤ b ∧ (a = b → lookupDigest entries a = none)) :
    cursorAnswers entries nextIndex queries = queries.map (lookupDigest entries) := by
  induction queries generalizing nextIndex with
  | nil => rfl
  | cons c queries ih =>
    obtain ⟨hfirst, hrest⟩ := pairwise_cons.mp hqueries
    obtain ⟨hanswer, hnext⟩ := cursorNext_spec hsorted (hbelow c mem_cons_self)
    rw [cursorAnswers, map_cons, hanswer, ih _ (fun d hd i hi hlow => ?_) hrest]
    -- An entry of `c` itself has been passed, so `c` is asked for again only if it has none.
    obtain ⟨hle, hagain⟩ := hfirst d hd
    have hupto := hnext i hi hlow
    rcases Nat.lt_or_eq_of_le hle with hlt | rfl
    · omega
    · have hne : entries[i].logicalChunk ≠ c := fun heq =>
        lookupDigest_eq_none.mp (hagain rfl) ⟨_, getElem_mem hi, heq⟩
      omega

end DigestIndex

-- ══ What an index denotes

/-- The index denotes the contents `A`: every listed chunk has the listed digest, every chunk of a
zero range is zero, and every chunk is listed or in a zero range, but not both. -/
structure IndexDenotes (hash : List UInt8 → Id) (index : DiskIndex Id) (A : Lib.SparseFile) :
    Prop where
  size : A.size = index.logicalSize
  digest : ∀ entry ∈ index.chunks,
    hash (Lib.chunkSlice index.chunkSize index.logicalSize A.byte entry.logicalChunk) = entry.id
  zero : ∀ c, InZeroRanges index.zeroRanges c →
    ∀ i, Lib.InChunk index.chunkSize index.logicalSize c i → A.byte i = 0
  covers : Covers 0 (divCeil index.logicalSize index.chunkSize) index.chunks index.zeroRanges

end SporeVM
