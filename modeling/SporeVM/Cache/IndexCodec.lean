import Mathlib.Data.List.SplitBy
import SporeVM.Lib.Json
import SporeVM.Cache.Steps

/-!
# The bytes of a disk index

`disk_index.zig` writes an index as one JSON text, with each run of consecutive chunks packed into
one entry, and accepts no other text: after decoding, the index is written again and compared with
the bytes as they come.

What `std.json` reads from bytes is a parameter here. It is only asked to read a JSON text as JSON
says; what it makes of other texts, or of a number in quotes, is left open. The text that it writes
is modelled.
-/

namespace SporeVM.IndexCodec

open Lib Lib.Check
open Lib.PathText (Text)
open List hiding not_lt
open ChunkId (hexLen bytesToHex hexDigit)

def orError {α : Type} (e : StorageError) : Option α → Except StorageError α
  | some a => .ok a
  | none => .error e

-- ══ The encoded form

structure DiskIndexChunkRangeV2 where
  start : ℕ
  digests : Bytes
  deriving DecidableEq

structure DiskIndexV2 where
  kind : String
  logicalSize : ℕ
  chunkSize : ℕ
  hashAlgorithm : String
  objectNamespace : String
  chunkRanges : List DiskIndexChunkRangeV2
  zeroRanges : List DiskIndexZeroRange
  deriving DecidableEq

def readU64 (j : Json) : Option ℕ := j.natOf.bind fun n => if n ≤ maxU64 then some n else none

def readString (j : Json) : Option String := j.stringOf.map String.ofList

def fieldsOf (names : List String) : Json → Option (List (List Char × Json))
  | .object ms => if ms.all (fun m => names.any fun name => m.1 = name.toList)
    then some ms else none
  | _ => none

def readChunkRange (j : Json) : Option DiskIndexChunkRangeV2 := do
  let ms ← fieldsOf ["start", "digests"] j
  let start ← (Json.member ms "start").bind readU64
  let digests ← (Json.member ms "digests").bind Json.stringOf
  pure { start, digests := Json.utf8 digests }

def readZeroRange (j : Json) : Option DiskIndexZeroRange := do
  let ms ← fieldsOf ["start", "count"] j
  let start ← (Json.member ms "start").bind readU64
  let count ← (Json.member ms "count").bind readU64
  pure { start, count }

def readV2 (j : Json) : Option DiskIndexV2 := do
  let ms ← fieldsOf ["kind", "logical_size", "chunk_size", "hash_algorithm", "object_namespace",
    "chunk_ranges", "zero_ranges"] j
  let kind ← (Json.member ms "kind").bind readString
  let logicalSize ← (Json.member ms "logical_size").bind readU64
  let chunkSize ← (Json.member ms "chunk_size").bind readU64
  let hashAlgorithm ← (Json.member ms "hash_algorithm").bind readString
  let objectNamespace ← (Json.member ms "object_namespace").bind readString
  let chunkRanges ← (Json.member ms "chunk_ranges").bind (Json.arrayOf readChunkRange)
  let zeroRanges ← (Json.member ms "zero_ranges").bind (Json.arrayOf readZeroRange)
  pure { kind, logicalSize, chunkSize, hashAlgorithm, objectNamespace, chunkRanges, zeroRanges }

def readKind : Json → Option String
  | .object ms => (Json.member ms "kind").bind readString
  | _ => none

/-- What `std.json` does for this codec. `kind` and `index` are `parseFromSlice` for the two types
that are parsed; `slices` is how a text arrives at the writer that compares it. -/
structure StdJson where
  kind : Bytes → Option String
  index : Bytes → Option DiskIndexV2
  slices : Bytes → List Bytes
  kind_of_json : ∀ bytes j k, Json.ofBytes bytes = some j → readKind j = some k →
    kind bytes = some k
  index_of_json : ∀ bytes j v, Json.ofBytes bytes = some j → readV2 j = some v →
    index bytes = some v
  flatten_slices : ∀ text, (slices text).flatten = text

-- ══ Decoding

def lowerHexValues (b : UInt8) : UInt8 :=
  if 0x30 ≤ b ∧ b ≤ 0x39 then b - 0x30
  else if 0x61 ≤ b ∧ b ≤ 0x66 then b - 0x61 + 10
  else 0xff

def lowerHexLoop : Bytes → Bytes × UInt8
  | high :: low :: rest =>
    (((lowerHexValues high <<< 4) ||| (lowerHexValues low &&& 0x0f)) :: (lowerHexLoop rest).1,
      (lowerHexValues high ||| lowerHexValues low) ||| (lowerHexLoop rest).2)
  | _ => ([], 0)

def idFromLowerHex (hex : Bytes) : Option ChunkId :=
  if h : (lowerHexLoop hex).1.length = 32 then
    if (lowerHexLoop hex).2 > 0x0f then none else some ⟨(lowerHexLoop hex).1, h⟩
  else none

/-- Chunk ranges hold whole digests, lie below the chunk count and leave a gap between each
other. -/
def checkRangeOrder (chunkCount : ℕ) :
    Option ℕ → List DiskIndexChunkRangeV2 → Except StorageError Unit
  | _, [] => .ok ()
  | previousEnd, range :: ranges =>
    if range.digests.length = 0 ∨ range.digests.length % hexLen ≠ 0 then .error .badManifest
    else if range.start + range.digests.length / hexLen > maxU64 then .error .badManifest
    else if range.start ≥ chunkCount ∨
        range.start + range.digests.length / hexLen > chunkCount then .error .badManifest
    else if ∃ p ∈ previousEnd, range.start ≤ p then .error .badManifest
    else checkRangeOrder chunkCount (some (range.start + range.digests.length / hexLen))
      ranges

def validateV2Shape (index : DiskIndexV2) : Except StorageError Unit := do
  rejectIf (index.kind ≠ diskIndexKind) .badManifest
  rejectIf (index.chunkSize = 0) .badManifest
  let chunkCount ← indexChunkCount index.logicalSize index.chunkSize
  checkRangeOrder chunkCount none index.chunkRanges
  checkZeroOrder chunkCount none index.zeroRanges

def countChunks : ℕ → List DiskIndexChunkRangeV2 → Except StorageError ℕ
  | nonzeroCount, [] => .ok nonzeroCount
  | nonzeroCount, range :: ranges =>
    if nonzeroCount + range.digests.length / hexLen > maxU64 then .error .badManifest
    else countChunks (nonzeroCount + range.digests.length / hexLen) ranges

def rangeChunk (range : DiskIndexChunkRangeV2) (offset : ℕ) :
    Except StorageError (DiskIndexChunk ChunkId) := do
  rejectIf (range.start + offset > maxU64) .badManifest
  let id ← orError .badManifest
    (idFromLowerHex (bytesAt range.digests (offset * hexLen) hexLen))
  pure { logicalChunk := range.start + offset, id }

def rangeChunks (range : DiskIndexChunkRangeV2) :
    Except StorageError (List (DiskIndexChunk ChunkId)) :=
  (List.range (range.digests.length / hexLen)).mapM (rangeChunk range)

def decodeChunkRanges (index : DiskIndexV2) :
    Except StorageError (List (DiskIndexChunk ChunkId)) := do
  validateV2Shape index
  let _ ← countChunks 0 index.chunkRanges
  let chunks ← index.chunkRanges.mapM rangeChunks
  pure chunks.flatten

def parseV2 (json : StdJson) (bytes : Bytes) : Except StorageError (DiskIndex ChunkId) := do
  let encoded ← orError .badManifest (json.index bytes)
  let chunks ← decodeChunkRanges encoded
  pure
    { kind := diskIndexKind
      logicalSize := encoded.logicalSize
      chunkSize := encoded.chunkSize
      hashAlgorithm := encoded.hashAlgorithm
      objectNamespace := encoded.objectNamespace
      chunks
      zeroRanges := encoded.zeroRanges }

-- ══ Encoding

def continues (previous entry : DiskIndexChunk ChunkId) : Bool :=
  entry.logicalChunk == (previous.logicalChunk + 1) % 2 ^ 64

def chunkRuns (chunks : List (DiskIndexChunk ChunkId)) : List (List (DiskIndexChunk ChunkId)) :=
  chunks.splitBy continues

def runStart : List (DiskIndexChunk ChunkId) → ℕ
  | [] => 0
  | entry :: _ => entry.logicalChunk

def runDigests (run : List (DiskIndexChunk ChunkId)) : List Char :=
  run.flatMap fun entry => entry.id.toHex

def chunkRangeMembers (run : List (DiskIndexChunk ChunkId)) : List (List Char × Json) :=
  [("start".toList, .nat (runStart run)), ("digests".toList, .string (runDigests run))]

def zeroRangeMembers (range : DiskIndexZeroRange) : List (List Char × Json) :=
  [("start".toList, .nat range.start), ("count".toList, .nat range.count)]

def indexMembers (index : DiskIndex ChunkId) : List (List Char × Json) :=
  [("kind".toList, .string index.kind.toList),
    ("logical_size".toList, .nat index.logicalSize),
    ("chunk_size".toList, .nat index.chunkSize),
    ("hash_algorithm".toList, .string index.hashAlgorithm.toList),
    ("object_namespace".toList, .string index.objectNamespace.toList),
    ("chunk_ranges".toList,
      .array ((chunkRuns index.chunks).map fun run => .object (chunkRangeMembers run))),
    ("zero_ranges".toList,
      .array (index.zeroRanges.map fun range => .object (zeroRangeMembers range)))]

def stringify (index : DiskIndex ChunkId) : Bytes :=
  Json.utf8 (Json.render 0 (.object (indexMembers index)))

def canonicalBytesAlloc (index : DiskIndex ChunkId) : Except StorageError Bytes := do
  validateIndexShape index
  checkKind index.kind
  rejectIf ((stringify index).length = 0 ∨ (stringify index).length > maxIndexBytes) .badManifest
  pure (stringify index)

variable (blake3 : Bytes → ChunkId)

def encodeCanonicalAlloc (index : DiskIndex ChunkId) : Except StorageError (Bytes × Text) := do
  let bytes ← canonicalBytesAlloc index
  pure (bytes, (blake3 bytes).toDigest)

-- ══ Parsing

def matchSlice (expected : Bytes) (matched : ℕ) (slice : Bytes) : Except StorageError ℕ :=
  if slice.length > (expected.drop matched).length ∨
      slice ≠ (expected.drop matched).take slice.length then .error .badManifest
  else .ok (matched + slice.length)

def expectCanonical (json : StdJson) (bytes : Bytes) (index : DiskIndex ChunkId) :
    Except StorageError Unit := do
  let matched ← (json.slices (stringify index)).foldlM (matchSlice bytes) 0
  rejectIf (matched ≠ bytes.length) .badManifest

def validateDigest (bytes : Bytes) (digest : Text) : Except StorageError Unit :=
  rejectIf (¬ digestPrefix.isPrefixOf digest ∨
    digest.drop digestPrefix.length ≠ (blake3 bytes).toHex) .badManifest

def parseDiskIndex (json : StdJson) (bytes : Bytes) (descriptor : IndexDescriptor)
    (indexDigest : Option Text) : Except StorageError (DiskIndex ChunkId) := do
  rejectIf (bytes.length = 0 ∨ bytes.length > maxIndexBytes) .badManifest
  checkSome indexDigest (validateDigest blake3 bytes)
  let kind ← orError .badManifest (json.kind bytes)
  checkKind kind
  let index ← parseV2 json bytes
  validateDiskIndex index descriptor
  expectCanonical json bytes index
  pure index

-- ══ The streamed comparison

lemma matchSlice_ok {expected slice : Bytes} {matched n : ℕ} :
    matchSlice expected matched slice = .ok n ↔
      n = matched + slice.length ∧ slice <+: expected.drop matched := by
  unfold matchSlice
  rw [ite_error_ok]
  constructor
  · rintro ⟨h, hn⟩
    rw [not_or, not_not] at h
    refine ⟨by cases hn; rfl, ?_⟩
    rw [h.2]
    exact take_prefix _ _
  · rintro ⟨rfl, hpre⟩
    refine ⟨?_, rfl⟩
    rw [not_or, not_not]
    exact ⟨not_lt.mpr hpre.length_le, prefix_iff_eq_take.mp hpre⟩

lemma matchSlices_ok {expected : Bytes} : ∀ {slices : List Bytes} {matched n : ℕ},
    slices.foldlM (matchSlice expected) matched = .ok n ↔
      n = matched + slices.flatten.length ∧ slices.flatten <+: expected.drop matched
  | [], matched, n => by
    rw [foldlM_nil]
    constructor
    · intro h
      cases h
      exact ⟨rfl, nil_prefix⟩
    · rintro ⟨rfl, -⟩
      rfl
  | slice :: slices, matched, n => by
    rw [foldlM_cons, bind_ok]
    constructor
    · rintro ⟨m, hslice, hrest⟩
      obtain ⟨rfl, hpre⟩ := matchSlice_ok.mp hslice
      obtain ⟨rfl, hpres⟩ := matchSlices_ok.mp hrest
      obtain ⟨tail, htail⟩ := hpre
      refine ⟨by rw [flatten_cons, length_append]; omega, ?_⟩
      rw [← drop_drop, ← htail, drop_left] at hpres
      rw [flatten_cons, ← htail]
      exact (prefix_append_right_inj slice).mpr hpres
    · rintro ⟨rfl, hpre⟩
      rw [flatten_cons] at hpre
      obtain ⟨tail, htail⟩ := hpre
      rw [append_assoc] at htail
      refine ⟨_, matchSlice_ok.mpr ⟨rfl, ⟨_, htail⟩⟩, matchSlices_ok.mpr ⟨?_, ?_⟩⟩
      · rw [flatten_cons, length_append]
        omega
      · rw [← drop_drop, ← htail, drop_left]
        exact prefix_append _ _

variable {index : DiskIndex ChunkId} {bytes : Bytes}

/-- **The comparison accepts exactly the written text**, however it is cut into slices. -/
theorem expectCanonical_ok {json : StdJson} {u : Unit} :
    expectCanonical json bytes index = .ok u ↔ stringify index = bytes := by
  unfold expectCanonical
  rw [bind_ok]
  constructor
  · rintro ⟨matched, hmatched, hlen⟩
    obtain ⟨rfl, hpre⟩ := matchSlices_ok.mp hmatched
    rw [json.flatten_slices, drop_zero] at hpre
    have hlen := not_not.mp (rejectIf_ok.mp hlen)
    rw [json.flatten_slices] at hlen
    exact hpre.eq_of_length (by omega)
  · rintro rfl
    refine ⟨_, matchSlices_ok.mpr ⟨rfl, ?_⟩, rejectIf_ok.mpr (not_not.mpr ?_)⟩
    · simp [json.flatten_slices]
    · rw [json.flatten_slices, Nat.zero_add]

-- ══ Digests read back

lemma lowerHexValues_hexDigit : ∀ n < 16, ∃ d : UInt8,
    String.utf8EncodeChar (hexDigit n) = [d] ∧ lowerHexValues d = UInt8.ofNat n := by
  intro n hn
  refine ⟨UInt8.ofNat (hexDigit n).toNat, ?_⟩
  revert n
  decide

lemma lowerHex_byte (b : UInt8) :
    ∃ high low, String.utf8EncodeChar (hexDigit (b.toNat / 16)) = [high] ∧
      String.utf8EncodeChar (hexDigit (b.toNat % 16)) = [low] ∧
      ((lowerHexValues high <<< 4) ||| (lowerHexValues low &&& 0x0f)) = b ∧
      (lowerHexValues high ||| lowerHexValues low).toNat < 16 := by
  have hb := b.toNat_lt
  obtain ⟨high, hhigh, hvalue⟩ := lowerHexValues_hexDigit (b.toNat / 16) (by omega)
  obtain ⟨low, hlow, hvalue'⟩ := lowerHexValues_hexDigit (b.toNat % 16) (by omega)
  have hjoin : ∀ n < 256, ((UInt8.ofNat (n / 16) <<< 4) ||| (UInt8.ofNat (n % 16) &&& 0x0f)) =
      UInt8.ofNat n ∧ (UInt8.ofNat (n / 16) ||| UInt8.ofNat (n % 16)).toNat < 16 := by
    decide +kernel
  obtain ⟨hbyte, hvalid⟩ := hjoin b.toNat hb
  refine ⟨high, low, hhigh, hlow, ?_, ?_⟩
  · rw [hvalue, hvalue', hbyte, UInt8.ofNat_toNat]
  · rw [hvalue, hvalue']
    exact hvalid

lemma lowerHexLoop_bytesToHex : ∀ bytes : List UInt8,
    (lowerHexLoop (Json.utf8 (bytesToHex bytes))).1 = bytes ∧
      (lowerHexLoop (Json.utf8 (bytesToHex bytes))).2.toNat < 16
  | [] => ⟨rfl, by decide⟩
  | b :: bytes => by
    obtain ⟨high, low, hhigh, hlow, hbyte, hvalid⟩ := lowerHex_byte b
    obtain ⟨hbytes, hrest⟩ := lowerHexLoop_bytesToHex bytes
    have hcons : Json.utf8 (bytesToHex (b :: bytes)) =
        high :: low :: Json.utf8 (bytesToHex bytes) := by
      simp only [Json.utf8, bytesToHex, flatMap_cons, hhigh, hlow, singleton_append]
    rw [hcons, lowerHexLoop]
    refine ⟨by rw [hbyte, hbytes], ?_⟩
    exact @Nat.or_lt_two_pow _ _ 4 hvalid hrest

lemma idFromLowerHex_toHex (id : ChunkId) : idFromLowerHex (Json.utf8 id.toHex) = some id := by
  obtain ⟨hbytes, hvalid⟩ := lowerHexLoop_bytesToHex id.bytes
  have hlen : (lowerHexLoop (Json.utf8 id.toHex)).1.length = 32 := by
    rw [ChunkId.toHex, hbytes]
    exact id.size
  have hle : ¬ (lowerHexLoop (Json.utf8 id.toHex)).2 > 0x0f := by
    intro hgt
    have hgt : 15 < (lowerHexLoop (Json.utf8 id.toHex)).2.toNat := hgt
    rw [ChunkId.toHex] at hgt
    omega
  unfold idFromLowerHex
  rw [dif_pos hlen, if_neg hle]
  cases id
  simp only [ChunkId.toHex] at hbytes ⊢
  simp only [hbytes]

lemma length_utf8_toHex (id : ChunkId) : (Json.utf8 id.toHex).length = hexLen := by
  have hlen : ∀ bytes : List UInt8,
      (Json.utf8 (bytesToHex bytes)).length = 2 * bytes.length := by
    intro bytes
    induction bytes with
    | nil => rfl
    | cons b bytes ih =>
      obtain ⟨high, low, hhigh, hlow, -, -⟩ := lowerHex_byte b
      simp only [Json.utf8, bytesToHex, flatMap_cons, hhigh, hlow,
        singleton_append, length_cons] at ih ⊢
      omega
  rw [ChunkId.toHex, hlen, id.size]
  rfl

-- ══ Runs

structure IsRun (run : List (DiskIndexChunk ChunkId)) : Prop where
  ne_nil : run ≠ []
  consecutive : ∀ i (hi : i < run.length), run[i].logicalChunk = runStart run + i

def encodedRange (run : List (DiskIndexChunk ChunkId)) : DiskIndexChunkRangeV2 :=
  { start := runStart run
    digests := Json.utf8 (runDigests run) }

lemma digests_encodedRange (run : List (DiskIndexChunk ChunkId)) :
    (encodedRange run).digests = (run.map fun entry => Json.utf8 entry.id.toHex).flatten := by
  show Json.utf8 (runDigests run) = _
  rw [runDigests, Json.utf8, flatMap_assoc, flatMap_def]
  rfl

lemma length_digests (run : List (DiskIndexChunk ChunkId)) :
    (encodedRange run).digests.length = hexLen * run.length := by
  rw [digests_encodedRange]
  induction run with
  | nil => rfl
  | cons entry run ih =>
    rw [map_cons, flatten_cons, length_append, ih, length_utf8_toHex,
      length_cons, Nat.mul_succ, Nat.add_comm]

lemma count_digests (run : List (DiskIndexChunk ChunkId)) :
    (encodedRange run).digests.length / hexLen = run.length := by
  rw [length_digests]
  exact Nat.mul_div_cancel_left _ (by decide)

variable {run : List (DiskIndexChunk ChunkId)}

lemma bytesAt_digests {i : ℕ} (hi : i < run.length) :
    bytesAt (encodedRange run).digests (i * hexLen) hexLen =
      Json.utf8 run[i].id.toHex := by
  rw [digests_encodedRange]
  refine @bytesAt_flatten _ i _ _ _ ?_ ?_ (length_utf8_toHex _)
  · rw [List.getElem?_map, List.getElem?_eq_getElem hi, Option.map_some]
  · rw [← map_take, map_map]
    have hconst : (length ∘ fun entry : DiskIndexChunk ChunkId => Json.utf8 entry.id.toHex) =
        fun _ => hexLen := funext fun entry => length_utf8_toHex entry.id
    rw [hconst, map_const', sum_replicate_nat, length_take]
    rw [Nat.min_eq_left (by omega)]

lemma rangeChunks_encodedRange (h : IsRun run) (hle : ∀ entry ∈ run, entry.logicalChunk ≤ maxU64) :
    rangeChunks (encodedRange run) = .ok run := by
  unfold rangeChunks
  rw [count_digests]
  refine mapM_range_ok fun i hi => ?_
  have hchunk : run[i].logicalChunk = (encodedRange run).start + i := h.consecutive i hi
  have hmax := hle run[i] (getElem_mem hi)
  refine bind_ok.mpr ⟨(), rejectIf_ok.mpr (by omega), bind_ok.mpr ⟨run[i].id, ?_, ?_⟩⟩
  · rw [bytesAt_digests hi, idFromLowerHex_toHex]
    rfl
  · rw [← hchunk]
    rfl

structure ChunksBelow (chunkCount : ℕ) (chunks : List (DiskIndexChunk ChunkId)) : Prop where
  sorted : SortedChunks chunks
  below : ∀ entry ∈ chunks, entry.logicalChunk < chunkCount
  count_le : chunkCount ≤ maxU64

section Runs

variable {chunkCount : ℕ} {chunks : List (DiskIndexChunk ChunkId)}

lemma continues_iff {a b : DiskIndexChunk ChunkId} (ha : a.logicalChunk < maxU64) :
    continues a b = true ↔ b.logicalChunk = a.logicalChunk + 1 := by
  have hmax : maxU64 + 1 = 2 ^ 64 := by decide
  rw [continues, beq_iff_eq, Nat.mod_eq_of_lt (by omega)]

lemma mem_of_mem_run (hrun : run ∈ chunkRuns chunks)
    {entry : DiskIndexChunk ChunkId} (hentry : entry ∈ run) : entry ∈ chunks := by
  rw [← flatten_splitBy continues chunks]
  exact mem_flatten_of_mem hrun hentry

lemma isRun_of_mem (h : ChunksBelow chunkCount chunks)
    (hrun : run ∈ chunkRuns chunks) : IsRun run := by
  have hchain := isChain_iff_getElem.mp (isChain_of_mem_splitBy hrun)
  have hle := h.count_le
  cases run with
  | nil => exact absurd hrun (nil_notMem_splitBy _ _)
  | cons first rest =>
    refine ⟨cons_ne_nil _ _, fun i => ?_⟩
    induction i with
    | zero =>
      intro _
      rfl
    | succ i ih =>
      intro hi
      have hprev := ih (by omega)
      have hbelow := h.below _ (mem_of_mem_run hrun (getElem_mem (Nat.lt_of_succ_lt hi)))
      have hnext := (continues_iff (by omega)).mp (hchain i hi)
      omega

lemma IsRun.start_eq (hne : run ≠ []) : (run.head hne).logicalChunk = runStart run := by
  cases run with
  | nil => exact absurd rfl hne
  | cons first rest => rfl

lemma IsRun.last_eq (h : IsRun run) (hne : run ≠ []) :
    (run.getLast hne).logicalChunk + 1 = runStart run + run.length := by
  have hpos := length_pos_iff.mpr hne
  have hlast := h.consecutive (run.length - 1) (by omega)
  rw [getLast_eq_getElem hne, hlast]
  omega

lemma runs_gapped (h : ChunksBelow chunkCount chunks) :
    (chunkRuns chunks).IsChain fun a b => runStart a + a.length < runStart b := by
  have hbreak := isChain_iff_getElem.mp (isChain_getLast_head_splitBy continues chunks)
  have hsorted : SortedChunks (chunkRuns chunks).flatten := by
    rw [chunkRuns, flatten_splitBy]
    exact h.sorted
  have horder := isChain_iff_getElem.mp (pairwise_flatten.mp hsorted).2.isChain
  have hle := h.count_le
  refine isChain_iff_getElem.mpr fun i hi => ?_
  obtain ⟨ha, hb, hcontinues⟩ := hbreak i hi
  have hrun := isRun_of_mem h (getElem_mem (Nat.lt_of_succ_lt hi))
  have hlast := hrun.last_eq ha
  have hfirst := IsRun.start_eq hb
  have hlt := horder i hi _ (getLast_mem ha) _ (head_mem hb)
  have hbelow := h.below _ (mem_of_mem_run (getElem_mem (Nat.lt_of_succ_lt hi)) (getLast_mem ha))
  have hne := (not_congr (continues_iff (by omega))).mp (Bool.eq_false_iff.mp hcontinues)
  simp only [chunkRuns] at *
  omega

lemma checkRangeOrder_runs : ∀ {runs : List (List (DiskIndexChunk ChunkId))} {previous : Option ℕ},
    (∀ run ∈ runs, IsRun run ∧ runStart run + run.length ≤ chunkCount) → chunkCount ≤ maxU64 →
    runs.IsChain (fun a b => runStart a + a.length < runStart b) →
    (∀ p ∈ previous, ∀ first ∈ runs.head?, p < runStart first) →
    checkRangeOrder chunkCount previous (runs.map encodedRange) = .ok ()
  | [], _, _, _, _, _ => rfl
  | run :: runs, previous, hruns, hcount, hchain, hprevious => by
    obtain ⟨hrun, hend⟩ := hruns run (by simp)
    obtain ⟨hnext, hchain⟩ := isChain_cons.mp hchain
    have hpos := length_pos_iff.mpr hrun.ne_nil
    have hlen := length_digests run
    have hdiv := count_digests run
    have hwhole : (encodedRange run).digests.length % hexLen = 0 := by
      rw [hlen, Nat.mul_mod_right]
    have hnonempty : (encodedRange run).digests.length ≠ 0 := by
      intro hzero
      rw [hzero, Nat.zero_div] at hdiv
      omega
    have hstart : (encodedRange run).start = runStart run := rfl
    refine ite_error_ok.mpr ⟨by omega, ite_error_ok.mpr ⟨by omega, ite_error_ok.mpr ⟨by omega, ?_⟩⟩⟩
    refine ite_error_ok.mpr ⟨?_, ?_⟩
    · rintro ⟨p, hp, hle⟩
      have := hprevious p hp run rfl
      omega
    · refine checkRangeOrder_runs (fun r hr => hruns r (by simp [hr])) hcount hchain ?_
      rintro p hp first hfirst
      cases hp
      rw [hdiv, hstart]
      exact hnext first hfirst

lemma countChunks_runs : ∀ {runs : List (List (DiskIndexChunk ChunkId))} {n : ℕ},
    n + runs.flatten.length ≤ maxU64 →
    countChunks n (runs.map encodedRange) = .ok (n + runs.flatten.length)
  | [], n, _ => rfl
  | run :: runs, n, h => by
    rw [flatten_cons, length_append] at h ⊢
    have hrest := @countChunks_runs runs (n + run.length) (by omega)
    rw [map_cons]
    refine ite_error_ok.mpr ⟨by rw [count_digests]; omega, ?_⟩
    rw [count_digests, hrest, Nat.add_assoc]

end Runs

-- ══ Indexes read back

def encoded (index : DiskIndex ChunkId) : DiskIndexV2 :=
  { kind := index.kind
    logicalSize := index.logicalSize
    chunkSize := index.chunkSize
    hashAlgorithm := index.hashAlgorithm
    objectNamespace := index.objectNamespace
    chunkRanges := (chunkRuns index.chunks).map encodedRange
    zeroRanges := index.zeroRanges }

structure MachineIndex (index : DiskIndex ChunkId) : Prop where
  logicalSize_le : index.logicalSize ≤ maxU64
  chunkSize_le : index.chunkSize ≤ maxU64

structure Shaped (index : DiskIndex ChunkId) : Prop where
  chunkSize_ne : index.chunkSize ≠ 0
  kind_eq : index.kind = diskIndexKind
  chunks : checkChunkOrder (divCeil index.logicalSize index.chunkSize) none index.chunks = .ok ()
  zeros : checkZeroOrder (divCeil index.logicalSize index.chunkSize) none index.zeroRanges = .ok ()
  count_le : index.chunks.length ≤ maxU64

lemma shaped_of_validateIndexShape (h : validateIndexShape index = .ok ()) : Shaped index := by
  unfold validateIndexShape at h
  obtain ⟨_, hsize, h⟩ := bind_ok.mp h
  obtain ⟨_, hkind, h⟩ := bind_ok.mp h
  obtain ⟨chunkCount, hcount, h⟩ := bind_ok.mp h
  obtain ⟨-, hcount⟩ := ite_error_ok.mp hcount
  cases hcount
  obtain ⟨zeroCount, -, h⟩ := bind_ok.mp h
  obtain ⟨hmax, h⟩ := rejectIf_bind_ok.mp h
  obtain ⟨_, -, h⟩ := bind_ok.mp h
  obtain ⟨_, hchunks, h⟩ := bind_ok.mp h
  obtain ⟨_, hzeros, -⟩ := bind_ok.mp h
  exact ⟨rejectIf_ok.mp hsize, checkKind_ok.mp hkind, hchunks, hzeros, by omega⟩

lemma chunksBelow_of_shaped (h : Shaped index) (hmachine : MachineIndex index) :
    ChunksBelow (divCeil index.logicalSize index.chunkSize) index.chunks := by
  obtain ⟨hsorted, hbelow⟩ := sorted_of_checkChunkOrder _ _ _ h.chunks
  exact ⟨hsorted, fun entry hentry => (hbelow entry hentry).1,
    Nat.le_trans (divCeil_le h.chunkSize_ne) hmachine.logicalSize_le⟩

lemma decodeChunkRanges_encoded (h : Shaped index)
    (hmachine : MachineIndex index) : decodeChunkRanges (encoded index) = .ok index.chunks := by
  have hchunks := chunksBelow_of_shaped h hmachine
  have hcount := hchunks.count_le
  have hflatten : (chunkRuns index.chunks).flatten = index.chunks := flatten_splitBy _ _
  have hruns : ∀ run ∈ chunkRuns index.chunks, IsRun run ∧
      runStart run + run.length ≤ divCeil index.logicalSize index.chunkSize := by
    intro run hrun
    have hisRun := isRun_of_mem hchunks hrun
    have hlast := hisRun.last_eq hisRun.ne_nil
    have hlt := hchunks.below _ (mem_of_mem_run hrun (getLast_mem hisRun.ne_nil))
    exact ⟨hisRun, by omega⟩
  have hshape : validateV2Shape (encoded index) = .ok () := by
    refine rejectIf_bind_ok.mpr ⟨not_not.mpr h.kind_eq, ?_⟩
    refine rejectIf_bind_ok.mpr ⟨h.chunkSize_ne, ?_⟩
    refine bind_ok.mpr ⟨_, ite_error_ok.mpr ⟨h.chunkSize_ne, rfl⟩, ?_⟩
    refine bind_ok.mpr ⟨(), ?_, h.zeros⟩
    exact checkRangeOrder_runs hruns hcount (runs_gapped hchunks) (by simp)
  have hdecode : ((chunkRuns index.chunks).map encodedRange).mapM rangeChunks =
      .ok (chunkRuns index.chunks) := by
    refine mapM_map_ok fun run hrun => rangeChunks_encodedRange (hruns run hrun).1 ?_
    intro entry hentry
    have := hchunks.below entry (mem_of_mem_run hrun hentry)
    omega
  have hnumber := @countChunks_runs (chunkRuns index.chunks) 0
    (by rw [hflatten]; have := h.count_le; omega)
  refine bind_ok.mpr ⟨(), hshape, bind_ok.mpr ⟨_, hnumber, bind_ok.mpr ⟨_, hdecode, ?_⟩⟩⟩
  rw [hflatten]
  rfl

lemma readU64_nat {n : ℕ} (h : n ≤ maxU64) : readU64 (.nat n) = some n := by
  rw [readU64, Json.natOf_nat, Option.bind_some, if_pos h]

lemma readString_string (text : String) : readString (.string text.toList) = some text := by
  rw [readString, Json.stringOf, Option.map_some, String.ofList_toList]

lemma readChunkRange_members (h : runStart run ≤ maxU64) :
    readChunkRange (.object (chunkRangeMembers run)) = some (encodedRange run) := by
  have hfields : fieldsOf ["start", "digests"] (.object (chunkRangeMembers run)) =
      some (chunkRangeMembers run) := rfl
  have hstart : Json.member (chunkRangeMembers run) "start" = some (.nat (runStart run)) := rfl
  have hdigests : Json.member (chunkRangeMembers run) "digests" =
      some (.string (runDigests run)) := rfl
  unfold readChunkRange
  rw [hfields]
  simp only [Option.bind_eq_bind, Option.bind_some, hstart, hdigests, readU64_nat h]
  rfl

lemma readZeroRange_members {range : DiskIndexZeroRange} (hstart : range.start ≤ maxU64)
    (hcount : range.count ≤ maxU64) :
    readZeroRange (.object (zeroRangeMembers range)) = some range := by
  have hfields : fieldsOf ["start", "count"] (.object (zeroRangeMembers range)) =
      some (zeroRangeMembers range) := rfl
  have hmemberStart : Json.member (zeroRangeMembers range) "start" = some (.nat range.start) := rfl
  have hmemberCount : Json.member (zeroRangeMembers range) "count" = some (.nat range.count) := rfl
  unfold readZeroRange
  rw [hfields]
  simp only [Option.bind_eq_bind, Option.bind_some, hmemberStart, hmemberCount,
    readU64_nat hstart, readU64_nat hcount]
  rfl

lemma zeroRange_le {chunkCount : ℕ} : ∀ {ranges : List DiskIndexZeroRange} {previous : Option ℕ},
    checkZeroOrder chunkCount previous ranges = .ok () →
    ∀ range ∈ ranges, range.start + range.count ≤ maxU64
  | [], _, _, range, hrange => by simp at hrange
  | first :: ranges, _, h, range, hrange => by
    obtain ⟨-, h⟩ := ite_error_ok.mp h
    obtain ⟨hend, h⟩ := ite_error_ok.mp h
    iterate 2 obtain ⟨-, h⟩ := ite_error_ok.mp h
    rcases mem_cons.mp hrange with rfl | hrange
    · omega
    · exact zeroRange_le h range hrange

lemma runStart_le {chunkCount : ℕ} {chunks : List (DiskIndexChunk ChunkId)}
    (h : ChunksBelow chunkCount chunks)
    (hrun : run ∈ chunkRuns chunks) : runStart run ≤ maxU64 := by
  have hne := (isRun_of_mem h hrun).ne_nil
  have hbelow := h.below _ (mem_of_mem_run hrun (head_mem hne))
  have hstart := IsRun.start_eq hne
  have hle := h.count_le
  omega

lemma readV2_members (h : Shaped index) (hmachine : MachineIndex index) :
    readV2 (.object (indexMembers index)) = some (encoded index) := by
  have hbelow := chunksBelow_of_shaped h hmachine
  have hchunkRanges : Json.arrayOf readChunkRange
      (.array ((chunkRuns index.chunks).map fun run => .object (chunkRangeMembers run))) =
      some ((chunkRuns index.chunks).map encodedRange) :=
    Json.arrayOf_map fun run hrun => readChunkRange_members (runStart_le hbelow hrun)
  have hzeroRanges : Json.arrayOf readZeroRange
      (.array (index.zeroRanges.map fun range => .object (zeroRangeMembers range))) =
      some (index.zeroRanges.map fun range => range) := by
    refine Json.arrayOf_map fun range hrange => ?_
    have hend := zeroRange_le h.zeros range hrange
    exact readZeroRange_members (by omega) (by omega)
  rw [map_id'] at hzeroRanges
  have hfields : fieldsOf ["kind", "logical_size", "chunk_size", "hash_algorithm",
      "object_namespace", "chunk_ranges", "zero_ranges"] (.object (indexMembers index)) =
      some (indexMembers index) := rfl
  have hkind : Json.member (indexMembers index) "kind" = some (.string index.kind.toList) := rfl
  have hlogical : Json.member (indexMembers index) "logical_size" =
      some (.nat index.logicalSize) := rfl
  have hchunk : Json.member (indexMembers index) "chunk_size" = some (.nat index.chunkSize) := rfl
  have hhash : Json.member (indexMembers index) "hash_algorithm" =
      some (.string index.hashAlgorithm.toList) := rfl
  have hnamespace : Json.member (indexMembers index) "object_namespace" =
      some (.string index.objectNamespace.toList) := rfl
  have hchunks : Json.member (indexMembers index) "chunk_ranges" =
      some (.array ((chunkRuns index.chunks).map fun run => .object (chunkRangeMembers run))) := rfl
  have hzeros : Json.member (indexMembers index) "zero_ranges" =
      some (.array (index.zeroRanges.map fun range => .object (zeroRangeMembers range))) := rfl
  unfold readV2
  rw [hfields]
  simp only [Option.bind_eq_bind, Option.bind_some, hkind, hlogical, hchunk, hhash, hnamespace,
    hchunks, hzeros, readString_string, readU64_nat hmachine.logicalSize_le,
    readU64_nat hmachine.chunkSize_le, hchunkRanges, hzeroRanges]
  rfl

lemma wellFormed_chunkRange (run : List (DiskIndexChunk ChunkId)) :
    Json.WellFormed (.object (chunkRangeMembers run)) :=
  ⟨Json.wellFormed_nat _, trivial, trivial⟩

lemma wellFormed_zeroRange (range : DiskIndexZeroRange) :
    Json.WellFormed (.object (zeroRangeMembers range)) :=
  ⟨Json.wellFormed_nat _, Json.wellFormed_nat _, trivial⟩

lemma wellFormed_members (index : DiskIndex ChunkId) :
    Json.WellFormed (.object (indexMembers index)) :=
  ⟨trivial, Json.wellFormed_nat _, Json.wellFormed_nat _, trivial, trivial,
    Json.wellFormedElements_map wellFormed_chunkRange _,
    Json.wellFormedElements_map wellFormed_zeroRange _, trivial⟩

structure Matches (index : DiskIndex ChunkId) (descriptor : IndexDescriptor) : Prop where
  logicalSize : index.logicalSize = descriptor.logicalSize
  chunkSize : index.chunkSize = descriptor.chunkSize
  hashAlgorithm : index.hashAlgorithm = descriptor.hashAlgorithm
  objectNamespace : index.objectNamespace = descriptor.objectNamespace

lemma canonicalBytesAlloc_ok :
    canonicalBytesAlloc index = .ok bytes ↔ validateIndexShape index = .ok () ∧
      ¬ (bytes.length = 0 ∨ bytes.length > maxIndexBytes) ∧ stringify index = bytes := by
  constructor
  · intro h
    obtain ⟨_, hshape, h⟩ := bind_ok.mp h
    obtain ⟨_, -, h⟩ := bind_ok.mp h
    obtain ⟨_, hlen, h⟩ := bind_ok.mp h
    cases h
    exact ⟨hshape, rejectIf_ok.mp hlen, rfl⟩
  · rintro ⟨hshape, hlen, rfl⟩
    have hkind : checkKind index.kind = .ok () := by
      rw [(shaped_of_validateIndexShape hshape).kind_eq]
      rfl
    exact bind_ok.mpr ⟨(), hshape, bind_ok.mpr ⟨(), hkind, rejectIf_bind_ok.mpr ⟨hlen, rfl⟩⟩⟩

lemma encodeCanonicalAlloc_ok {digest : Text} :
    encodeCanonicalAlloc blake3 index = .ok (bytes, digest) ↔
      canonicalBytesAlloc index = .ok bytes ∧ digest = (blake3 bytes).toDigest := by
  unfold encodeCanonicalAlloc
  rw [bind_ok]
  constructor
  · rintro ⟨b, hbytes, h⟩
    cases h
    exact ⟨hbytes, rfl⟩
  · rintro ⟨hbytes, rfl⟩
    exact ⟨bytes, hbytes, rfl⟩

lemma parseV2_stringify (json : StdJson) (h : Shaped index)
    (hmachine : MachineIndex index) : parseV2 json (stringify index) = .ok index := by
  have hjson := Json.ofBytes_utf8 (wellFormed_members index) 0
  have hread := json.index_of_json _ _ _ hjson (readV2_members h hmachine)
  refine bind_ok.mpr ⟨encoded index, ?_, ?_⟩
  · rw [stringify, hread]
    rfl
  · refine bind_ok.mpr ⟨_, decodeChunkRanges_encoded h hmachine, ?_⟩
    have hkind := h.kind_eq
    cases index
    subst hkind
    rfl

/-- **What is written is accepted**, and decoded to the index it was written from. -/
theorem parseDiskIndex_stringify (json : StdJson) {digest : Text} (hmachine : MachineIndex index)
    (hencode : encodeCanonicalAlloc blake3 index = .ok (bytes, digest))
    {descriptor : IndexDescriptor} (hmatches : Matches index descriptor) {indexDigest : Option Text}
    (hdigest : ∀ d ∈ indexDigest, d = digest) :
    parseDiskIndex blake3 json bytes descriptor indexDigest = .ok index := by
  obtain ⟨hbytes, rfl⟩ := (encodeCanonicalAlloc_ok blake3).mp hencode
  obtain ⟨hshape, hlen, rfl⟩ := canonicalBytesAlloc_ok.mp hbytes
  have hshaped := shaped_of_validateIndexShape hshape
  have hkind : json.kind (stringify index) = some index.kind :=
    json.kind_of_json _ _ _ (Json.ofBytes_utf8 (wellFormed_members index) 0)
      (readString_string index.kind)
  have hdescriptor : validateDiskIndex index descriptor = .ok () := by
    refine rejectIf_bind_ok.mpr ⟨?_, ?_⟩
    · rw [← hmatches.chunkSize]
      exact hshaped.chunkSize_ne
    · refine rejectIf_bind_ok.mpr ⟨not_not.mpr hmatches.logicalSize, ?_⟩
      refine rejectIf_bind_ok.mpr ⟨not_not.mpr hmatches.chunkSize, ?_⟩
      refine rejectIf_bind_ok.mpr ⟨not_not.mpr hmatches.hashAlgorithm, ?_⟩
      exact rejectIf_bind_ok.mpr ⟨not_not.mpr hmatches.objectNamespace, hshape⟩
  refine bind_ok.mpr ⟨(), rejectIf_ok.mpr hlen, bind_ok.mpr ⟨(), ?_, ?_⟩⟩
  · cases indexDigest with
    | none => rfl
    | some d =>
      rw [hdigest d rfl]
      refine rejectIf_ok.mpr ?_
      rw [not_or, not_not, not_not, ChunkId.toDigest, drop_left]
      exact ⟨List.isPrefixOf_iff_prefix.mpr (prefix_append _ _), rfl⟩
  · refine bind_ok.mpr ⟨index.kind, by rw [hkind]; rfl, bind_ok.mpr ⟨(), ?_, ?_⟩⟩
    · rw [hshaped.kind_eq]
      rfl
    · refine bind_ok.mpr ⟨index, parseV2_stringify json hshaped hmachine, ?_⟩
      refine bind_ok.mpr ⟨(), hdescriptor, bind_ok.mpr ⟨(), expectCanonical_ok.mpr rfl, rfl⟩⟩

/-- **Accepted bytes are the written ones.** -/
theorem canonicalBytesAlloc_of_parse {json : StdJson} {descriptor : IndexDescriptor}
    {indexDigest : Option Text}
    (h : parseDiskIndex blake3 json bytes descriptor indexDigest = .ok index) :
    canonicalBytesAlloc index = .ok bytes := by
  obtain ⟨_, hlen, h⟩ := bind_ok.mp h
  iterate 4 obtain ⟨_, -, h⟩ := bind_ok.mp h
  obtain ⟨_, hvalid, h⟩ := bind_ok.mp h
  obtain ⟨_, hcanonical, h⟩ := bind_ok.mp h
  cases h
  iterate 4 obtain ⟨_, -, hvalid⟩ := bind_ok.mp hvalid
  obtain ⟨_, -, hshape⟩ := bind_ok.mp hvalid
  exact canonicalBytesAlloc_ok.mpr ⟨hshape, rejectIf_ok.mp hlen, expectCanonical_ok.mp hcanonical⟩

/-- **The codec of disk indexes.** Every index that is encoded is parsed from its bytes under every
descriptor that matches it, every accepted byte string is the encoding of what was parsed from it,
and two accepted byte strings of one index are the same. -/
theorem diskIndex_codec (json : StdJson) :
    (∀ (index : DiskIndex ChunkId) (bytes : Bytes) (digest : Text), MachineIndex index →
      encodeCanonicalAlloc blake3 index = .ok (bytes, digest) →
      ∀ (descriptor : IndexDescriptor) (indexDigest : Option Text), Matches index descriptor →
        (∀ d ∈ indexDigest, d = digest) →
        parseDiskIndex blake3 json bytes descriptor indexDigest = .ok index) ∧
    (∀ (bytes : Bytes) (descriptor : IndexDescriptor) (indexDigest : Option Text)
      (index : DiskIndex ChunkId),
      parseDiskIndex blake3 json bytes descriptor indexDigest = .ok index →
      encodeCanonicalAlloc blake3 index = .ok (bytes, (blake3 bytes).toDigest)) ∧
    (∀ (bytes bytes' : Bytes) (descriptor descriptor' : IndexDescriptor)
      (indexDigest indexDigest' : Option Text) (index : DiskIndex ChunkId),
      parseDiskIndex blake3 json bytes descriptor indexDigest = .ok index →
      parseDiskIndex blake3 json bytes' descriptor' indexDigest' = .ok index → bytes = bytes') := by
  refine ⟨?_, ?_, ?_⟩
  · intro index bytes digest hmachine hencode descriptor indexDigest hmatches hdigest
    exact parseDiskIndex_stringify blake3 json hmachine hencode hmatches hdigest
  · intro bytes descriptor indexDigest index h
    exact (encodeCanonicalAlloc_ok blake3).mpr ⟨canonicalBytesAlloc_of_parse blake3 h, rfl⟩
  · intro bytes bytes' descriptor descriptor' indexDigest indexDigest' index h h'
    have hbytes := (canonicalBytesAlloc_ok.mp (canonicalBytesAlloc_of_parse blake3 h)).2.2
    have hbytes' := (canonicalBytesAlloc_ok.mp (canonicalBytesAlloc_of_parse blake3 h')).2.2
    exact hbytes.symm.trans hbytes'

def strictJson : StdJson where
  kind bytes := (Json.ofBytes bytes).bind readKind
  index bytes := (Json.ofBytes bytes).bind readV2
  slices text := [text]
  kind_of_json bytes j k hj hk := by rw [hj, Option.bind_some, hk]
  index_of_json bytes j v hj hv := by rw [hj, Option.bind_some, hv]
  flatten_slices text := by simp

def sampleIndex : DiskIndex ChunkId where
  kind := diskIndexKind
  logicalSize := 4 * diskChunkSize
  chunkSize := diskChunkSize
  hashAlgorithm := hashAlgorithmBlake3
  objectNamespace := rootfsObjectNamespace
  chunks := [⟨0, ⟨replicate 32 0xbb, rfl⟩⟩, ⟨1, ⟨replicate 32 0xcc, rfl⟩⟩,
    ⟨3, ⟨replicate 32 0xbb, rfl⟩⟩]
  zeroRanges := [⟨2, 1⟩]

theorem diskIndex_codec_sampleIndex : MachineIndex sampleIndex ∧
    encodeCanonicalAlloc (fun _ => ⟨replicate 32 0, rfl⟩) sampleIndex =
      .ok (stringify sampleIndex, (⟨replicate 32 0, rfl⟩ : ChunkId).toDigest) ∧
    parseDiskIndex (fun _ => ⟨replicate 32 0, rfl⟩) strictJson (stringify sampleIndex)
      ⟨4 * diskChunkSize, diskChunkSize, hashAlgorithmBlake3, rootfsObjectNamespace⟩ none =
      .ok sampleIndex := by
  have hmachine : MachineIndex sampleIndex := ⟨by decide, by decide⟩
  have hbytes : canonicalBytesAlloc sampleIndex = .ok (stringify sampleIndex) :=
    canonicalBytesAlloc_ok.mpr ⟨by rfl, by decide +kernel, rfl⟩
  have hencode := (encodeCanonicalAlloc_ok fun _ => ⟨replicate 32 0, rfl⟩).mpr ⟨hbytes, rfl⟩
  exact ⟨hmachine, hencode, (diskIndex_codec _ strictJson).1 sampleIndex _ _ hmachine hencode _ none
    ⟨rfl, rfl, rfl, rfl⟩ (by simp)⟩

end SporeVM.IndexCodec
