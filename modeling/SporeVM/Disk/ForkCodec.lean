import SporeVM.Lib.LittleEndian
import SporeVM.Cache.Digests
import SporeVM.Disk.Fork

/-!
# The bytes of a fork descriptor

A monitor hands a forked disk head to its child as a descriptor in a fixed byte form: a header of 48
bytes, the identity of the baseline and the two bitmaps of chunks. `parse` reads the form back and
checks every field. The two are inverse to each other, so that every descriptor that fits has one
byte form, and every accepted byte string is the form of one descriptor.

A descriptor here has the identity as bytes and carries the bounds of its machine integers, since
the form has eight bytes for each. Memory that cannot be allocated is left out.
-/

namespace SporeVM.RuntimeDiskFork

open Lib Lib.Check
open Lib.PathText (Text)
open List hiding not_lt

def maxDescriptorBytes : ℕ := 2 * 1024 * 1024

def maxBaselineIdentityBytes : ℕ := 128

def headerLen : ℕ := 48

def magic : Bytes := textBytes "SPDFORK1".toList

def version : ℕ := 1

def kindByte : BaselineKind → UInt8
  | .rootfs => 1
  | .diskIndex => 2

def parseKind (raw : UInt8) : Option BaselineKind :=
  if raw = 1 then some .rootfs else if raw = 2 then some .diskIndex else none

def methodByte : CloneMethod → UInt8
  | .reflink => 1
  | .copy => 2
  | .sparse => 3

def parseMethod (raw : UInt8) : Option CloneMethod :=
  if raw = 1 then some .reflink
  else if raw = 2 then some .copy
  else if raw = 3 then some .sparse
  else none

def bytesText (bytes : Bytes) : Text := bytes.map fun b => Char.ofNat b.toNat

structure Descriptor extends ForkDescriptor Bytes where
  logicalSize_le : logicalSize ≤ maxU64
  chunkSize_le : chunkSize ≤ maxU64
  chunkCount_le : chunkCount ≤ maxU64
  deriving DecidableEq

namespace Descriptor

/-- The checks of a disk head and those of the identity. They all fail alike, so that their order
does not show. -/
def validateFields (descriptor : Descriptor) : Except StorageError Unit := do
  descriptor.toForkDescriptor.validateFields
  rejectIf (descriptor.baseline.identity.length = 0 ∨
    descriptor.baseline.identity.length > maxBaselineIdentityBytes) .badDescriptor
  rejectIf (validateDiskDigest (bytesText descriptor.baseline.identity) ≠ .ok ()) .badDescriptor

def encodedLen (self : Descriptor) : Except StorageError ℕ := do
  self.validateFields
  let bitmapBytes := self.overlayChunks.length * 2
  rejectIf (bitmapBytes > maxU64) .descriptorTooLarge
  let payloadLen := self.baseline.identity.length + bitmapBytes
  rejectIf (payloadLen > maxU64) .descriptorTooLarge
  let totalLen := headerLen + payloadLen
  rejectIf (totalLen > maxU64) .descriptorTooLarge
  rejectIf (totalLen > maxDescriptorBytes) .descriptorTooLarge
  pure totalLen

/-- The parts of the byte form: what `encodeAlloc` stores at the offsets 0, 8, 10, 11, 16, 24, 32,
40 and 44 of the header, with the zeros it leaves in between, and what it appends. -/
def parts (self : Descriptor) : List Bytes :=
  [magic, littleEndian version 2, [kindByte self.baseline.kind], [methodByte self.cloneMethod],
    [0, 0, 0, 0], littleEndian self.logicalSize 8, littleEndian self.chunkSize 8,
    littleEndian self.chunkCount 8, littleEndian self.baseline.identity.length 2, [0, 0],
    littleEndian self.overlayChunks.length 4, self.baseline.identity, self.overlayChunks,
    self.zeroChunks]

def bytes (self : Descriptor) : Bytes := self.parts.flatten

def encodeAlloc (self : Descriptor) : Except StorageError Bytes := do
  let _ ← self.encodedLen
  pure self.bytes

end Descriptor

def readInt (bytes : Bytes) (offset count : ℕ) : ℕ := ofLittleEndian (bytesAt bytes offset count)

lemma readInt_u64_le (bytes : Bytes) (offset : ℕ) : readInt bytes offset 8 ≤ maxU64 := by
  have hlt : readInt bytes offset 8 < 256 ^ 8 :=
    calc readInt bytes offset 8 < 256 ^ (bytesAt bytes offset 8).length := ofLittleEndian_lt _
      _ ≤ 256 ^ 8 := Nat.pow_le_pow_right (by decide) (length_bytesAt_le _ _ _)
  have hmax : 256 ^ 8 = maxU64 + 1 := by decide
  omega

def descriptorAt (bytes : Bytes) (kind : BaselineKind) (cloneMethod : CloneMethod)
    (identityLen bitmapLen : ℕ) : Descriptor where
  baseline :=
    { kind
      identity := bytesAt bytes headerLen identityLen }
  cloneMethod
  logicalSize := readInt bytes 16 8
  chunkSize := readInt bytes 24 8
  chunkCount := readInt bytes 32 8
  overlayChunks := bytesAt bytes (headerLen + identityLen) bitmapLen
  zeroChunks := bytesAt bytes (headerLen + identityLen + bitmapLen) bitmapLen
  logicalSize_le := readInt_u64_le _ _
  chunkSize_le := readInt_u64_le _ _
  chunkCount_le := readInt_u64_le _ _

def parsePayload (bytes : Bytes) (kind : BaselineKind) (cloneMethod : CloneMethod) :
    Except StorageError Descriptor := do
  let identityLen := readInt bytes 40 2
  let bitmapLen := readInt bytes 44 4
  rejectIf (identityLen = 0 ∨ identityLen > maxBaselineIdentityBytes) .badDescriptor
  rejectIf (bitmapLen * 2 > maxU64) .descriptorTooLarge
  rejectIf (identityLen + bitmapLen * 2 > maxU64) .descriptorTooLarge
  rejectIf (headerLen + (identityLen + bitmapLen * 2) > maxU64) .descriptorTooLarge
  rejectIf (headerLen + (identityLen + bitmapLen * 2) ≠ bytes.length) .badDescriptor
  let descriptor := descriptorAt bytes kind cloneMethod identityLen bitmapLen
  descriptor.validateFields
  pure descriptor

def parse (bytes : Bytes) : Except StorageError Descriptor := do
  rejectIf (bytes.length < headerLen) .badDescriptor
  rejectIf (bytes.length > maxDescriptorBytes) .descriptorTooLarge
  rejectIf (bytesAt bytes 0 magic.length ≠ magic) .badDescriptor
  rejectIf (readInt bytes 8 2 ≠ version) .badDescriptor
  rejectIf (¬ (bytesAt bytes 12 4).all (· == 0) = true ∨ ¬ (bytesAt bytes 42 2).all (· == 0) = true)
    .badDescriptor
  match parseKind (bytes.getD 10 0), parseMethod (bytes.getD 11 0) with
  | some kind, some cloneMethod => parsePayload bytes kind cloneMethod
  | _, _ => .error .badDescriptor

-- ══ Reading the form back

@[simp] lemma length_magic : magic.length = 8 := rfl

lemma parseKind_kindByte (kind : BaselineKind) : parseKind (kindByte kind) = some kind := by
  cases kind <;> rfl

lemma parseMethod_methodByte (method : CloneMethod) :
    parseMethod (methodByte method) = some method := by
  cases method <;> rfl

lemma kindByte_of_parseKind {raw : UInt8} {kind : BaselineKind} (h : parseKind raw = some kind) :
    kindByte kind = raw := by
  unfold parseKind at h
  split at h
  · next hraw =>
    cases h
    exact hraw.symm
  · split at h
    · next hraw =>
      cases h
      exact hraw.symm
    · cases h

lemma methodByte_of_parseMethod {raw : UInt8} {method : CloneMethod}
    (h : parseMethod raw = some method) : methodByte method = raw := by
  unfold parseMethod at h
  split at h
  · next hraw =>
    cases h
    exact hraw.symm
  · split at h
    · next hraw =>
      cases h
      exact hraw.symm
    · split at h
      · next hraw =>
        cases h
        exact hraw.symm
      · cases h

structure Fits (d : Descriptor) : Prop where
  valid : d.validateFields = .ok ()
  short : headerLen + (d.baseline.identity.length + d.overlayChunks.length * 2) ≤ maxDescriptorBytes

variable {d : Descriptor}

lemma lengths_of_validateFields (h : d.validateFields = .ok ()) :
    d.zeroChunks.length = d.overlayChunks.length ∧ d.baseline.identity.length ≠ 0 ∧
      d.baseline.identity.length ≤ maxBaselineIdentityBytes := by
  obtain ⟨_, hfork, h⟩ := bind_ok.mp h
  obtain ⟨_, hidentity, -⟩ := bind_ok.mp h
  have hidentity := rejectIf_ok.mp hidentity
  iterate 2 obtain ⟨_, -, hfork⟩ := bind_ok.mp hfork
  obtain ⟨_, hbitmaps, -⟩ := bind_ok.mp hfork
  have hbitmaps := rejectIf_ok.mp hbitmaps
  omega

lemma length_bytes (h : d.validateFields = .ok ()) :
    d.bytes.length = headerLen + (d.baseline.identity.length + d.overlayChunks.length * 2) := by
  have hzero := (lengths_of_validateFields h).1
  simp only [Descriptor.bytes, Descriptor.parts, flatten_cons, flatten_nil,
    length_append, length_magic, length_littleEndian, length_cons, length_nil, hzero,
    headerLen]
  omega

lemma encodedLen_ok {n : ℕ} : d.encodedLen = .ok n ↔
      Fits d ∧ n = headerLen + (d.baseline.identity.length + d.overlayChunks.length * 2) := by
  have hmax : maxDescriptorBytes ≤ maxU64 := by decide
  constructor
  · intro h
    obtain ⟨_, hvalid, h⟩ := bind_ok.mp h
    iterate 3 obtain ⟨_, -, h⟩ := bind_ok.mp h
    obtain ⟨_, hshort, h⟩ := bind_ok.mp h
    cases h
    exact ⟨⟨hvalid, not_lt.mp (rejectIf_ok.mp hshort)⟩, rfl⟩
  · rintro ⟨hfits, rfl⟩
    have hshort := hfits.short
    refine bind_ok.mpr ⟨(), hfits.valid, ?_⟩
    iterate 3 refine rejectIf_bind_ok.mpr ⟨by omega, ?_⟩
    exact bind_ok.mpr ⟨(), rejectIf_ok.mpr (by omega), rfl⟩

variable {b : Bytes}

lemma encodeAlloc_ok : d.encodeAlloc = .ok b ↔ Fits d ∧ b = d.bytes := by
  constructor
  · intro h
    obtain ⟨n, hlen, h⟩ := bind_ok.mp h
    cases h
    exact ⟨(encodedLen_ok.mp hlen).1, rfl⟩
  · rintro ⟨hfits, rfl⟩
    exact bind_ok.mpr ⟨_, encodedLen_ok.mpr ⟨hfits, rfl⟩, rfl⟩

lemma encodeAlloc_of_long (hvalid : d.validateFields = .ok ())
    (hlong : maxDescriptorBytes < headerLen +
      (d.baseline.identity.length + d.overlayChunks.length * 2)) :
    d.encodeAlloc = .error .descriptorTooLarge := by
  unfold Descriptor.encodeAlloc Descriptor.encodedLen
  rw [hvalid]
  dsimp only [rejectIf]
  by_cases hbitmaps : d.overlayChunks.length * 2 > maxU64
  · rw [if_pos hbitmaps]
    rfl
  · rw [if_neg hbitmaps]
    by_cases hpayload : d.baseline.identity.length + d.overlayChunks.length * 2 > maxU64
    · rw [if_pos hpayload]
      rfl
    · rw [if_neg hpayload, if_pos hlong]
      split <;> rfl

lemma readInt_bytes {d : Descriptor} {i offset count value : ℕ}
    (hpart : d.parts[i]? = some (littleEndian value count))
    (hoffset : ((d.parts.take i).map length).sum = offset) (hlt : value < 256 ^ count) :
    readInt d.bytes offset count = value := by
  have hfield := bytesAt_flatten hpart hoffset (length_littleEndian value count)
  rw [readInt, Descriptor.bytes, hfield, ofLittleEndian_littleEndian hlt]

lemma lt_of_le_maxU64 {n : ℕ} (h : n ≤ maxU64) : n < 256 ^ 8 :=
  Nat.lt_of_le_of_lt h (by decide)

lemma descriptorAt_bytes (hfits : Fits d) :
    descriptorAt d.bytes d.baseline.kind d.cloneMethod d.baseline.identity.length
      d.overlayChunks.length = d := by
  obtain ⟨hzero, -, -⟩ := lengths_of_validateFields hfits.valid
  have hlogical : readInt d.bytes 16 8 = d.logicalSize :=
    @readInt_bytes d 5 16 8 _ rfl rfl (lt_of_le_maxU64 d.logicalSize_le)
  have hchunk : readInt d.bytes 24 8 = d.chunkSize :=
    @readInt_bytes d 6 24 8 _ rfl rfl (lt_of_le_maxU64 d.chunkSize_le)
  have hcount : readInt d.bytes 32 8 = d.chunkCount :=
    @readInt_bytes d 7 32 8 _ rfl rfl (lt_of_le_maxU64 d.chunkCount_le)
  have hidentity : bytesAt d.bytes headerLen d.baseline.identity.length = d.baseline.identity :=
    @bytesAt_flatten d.parts 11 _ _ _ rfl rfl rfl
  have hoverlay : bytesAt d.bytes (headerLen + d.baseline.identity.length)
      d.overlayChunks.length = d.overlayChunks :=
    @bytesAt_flatten d.parts 12 _ _ _ rfl (by simp [Descriptor.parts, headerLen]; omega) rfl
  have hzeros : bytesAt d.bytes (headerLen + d.baseline.identity.length + d.overlayChunks.length)
      d.overlayChunks.length = d.zeroChunks :=
    @bytesAt_flatten d.parts 13 _ _ _ rfl (by simp [Descriptor.parts, headerLen]; omega) hzero
  unfold descriptorAt
  simp only [hlogical, hchunk, hcount, hidentity, hoverlay, hzeros]

/-- **Reading back.** The form of a descriptor that fits is accepted and holds that descriptor. -/
theorem parse_bytes (hfits : Fits d) : parse d.bytes = .ok d := by
  obtain ⟨hzero, hnonempty, hidentity⟩ := lengths_of_validateFields hfits.valid
  have hlen := length_bytes hfits.valid
  have hshort := hfits.short
  have hbound : maxDescriptorBytes ≤ maxU64 ∧ maxDescriptorBytes < 256 ^ 4 ∧
      maxBaselineIdentityBytes < 256 ^ 2 := by decide
  have hidentityLen : readInt d.bytes 40 2 = d.baseline.identity.length :=
    @readInt_bytes d 8 40 2 _ rfl rfl (by omega)
  have hbitmapLen : readInt d.bytes 44 4 = d.overlayChunks.length :=
    @readInt_bytes d 10 44 4 _ rfl rfl (by omega)
  have hpayload : parsePayload d.bytes d.baseline.kind d.cloneMethod = .ok d := by
    unfold parsePayload
    simp only [hidentityLen, hbitmapLen, descriptorAt_bytes hfits]
    iterate 4 refine rejectIf_bind_ok.mpr ⟨by omega, ?_⟩
    refine rejectIf_bind_ok.mpr ⟨not_not.mpr hlen.symm, ?_⟩
    exact bind_ok.mpr ⟨(), hfits.valid, rfl⟩
  have hmagic : bytesAt d.bytes 0 magic.length = magic :=
    @bytesAt_flatten d.parts 0 _ _ _ rfl rfl rfl
  have hversion : readInt d.bytes 8 2 = version := @readInt_bytes d 1 8 2 _ rfl rfl (by decide)
  have hfirst : bytesAt d.bytes 12 4 = [0, 0, 0, 0] := @bytesAt_flatten d.parts 4 12 4 _ rfl rfl rfl
  have hsecond : bytesAt d.bytes 42 2 = [0, 0] := @bytesAt_flatten d.parts 9 42 2 _ rfl rfl rfl
  have hkind : d.bytes.getD 10 0 = kindByte d.baseline.kind := rfl
  have hmethod : d.bytes.getD 11 0 = methodByte d.cloneMethod := rfl
  unfold parse
  iterate 2 refine rejectIf_bind_ok.mpr ⟨by omega, ?_⟩
  refine rejectIf_bind_ok.mpr ⟨not_not.mpr hmagic, ?_⟩
  refine rejectIf_bind_ok.mpr ⟨not_not.mpr hversion, ?_⟩
  refine rejectIf_bind_ok.mpr ⟨by rw [hfirst, hsecond]; decide, ?_⟩
  rw [hkind, hmethod, parseKind_kindByte, parseMethod_methodByte]
  exact hpayload

-- ══ Accepted bytes

structure Accepted (b : Bytes) (kind : BaselineKind) (cloneMethod : CloneMethod) : Prop where
  long : headerLen ≤ b.length
  short : b.length ≤ maxDescriptorBytes
  magic_eq : bytesAt b 0 magic.length = magic
  version_eq : readInt b 8 2 = version
  first_zero : (bytesAt b 12 4).all (· == 0) = true
  second_zero : (bytesAt b 42 2).all (· == 0) = true
  kind_eq : kindByte kind = b.getD 10 0
  method_eq : methodByte cloneMethod = b.getD 11 0
  length_eq : headerLen + (readInt b 40 2 + readInt b 44 4 * 2) = b.length
  valid : (descriptorAt b kind cloneMethod (readInt b 40 2) (readInt b 44 4)).validateFields =
    .ok ()

lemma accepted_of_parse (h : parse b = .ok d) : ∃ kind cloneMethod, Accepted b kind cloneMethod ∧
      d = descriptorAt b kind cloneMethod (readInt b 40 2) (readInt b 44 4) := by
  unfold parse at h
  obtain ⟨_, hlong, h⟩ := bind_ok.mp h
  obtain ⟨_, hshort, h⟩ := bind_ok.mp h
  obtain ⟨_, hmagic, h⟩ := bind_ok.mp h
  obtain ⟨_, hversion, h⟩ := bind_ok.mp h
  obtain ⟨hzeros, h⟩ := rejectIf_bind_ok.mp h
  rw [not_or, not_not, not_not] at hzeros
  split at h
  · next kind cloneMethod hkind hmethod =>
    unfold parsePayload at h
    iterate 4 obtain ⟨_, -, h⟩ := bind_ok.mp h
    obtain ⟨_, hlength, h⟩ := bind_ok.mp h
    obtain ⟨_, hvalid, h⟩ := bind_ok.mp h
    cases h
    exact ⟨kind, cloneMethod,
      { long := not_lt.mp (rejectIf_ok.mp hlong)
        short := not_lt.mp (rejectIf_ok.mp hshort)
        magic_eq := not_not.mp (rejectIf_ok.mp hmagic)
        version_eq := not_not.mp (rejectIf_ok.mp hversion)
        first_zero := hzeros.1
        second_zero := hzeros.2
        kind_eq := kindByte_of_parseKind hkind
        method_eq := methodByte_of_parseMethod hmethod
        length_eq := not_not.mp (rejectIf_ok.mp hlength)
        valid := hvalid }, rfl⟩
  · cases h

lemma littleEndian_readInt {offset count : ℕ} (h : offset + count ≤ b.length) :
    littleEndian (readInt b offset count) count = bytesAt b offset count := by
  have hfield := littleEndian_ofLittleEndian (bytesAt b offset count)
  rwa [length_bytesAt h] at hfield

lemma eq_replicate_of_all_zero {n : ℕ} (hlen : b.length = n) (h : b.all (· == 0) = true) :
    b = replicate n 0 := by
  refine eq_replicate_iff.mpr ⟨hlen, fun x hx => ?_⟩
  exact eq_of_beq (all_eq_true.mp h x hx)

lemma bytesAt_one {offset : ℕ} (h : offset < b.length) :
    bytesAt b offset 1 = [b.getD offset 0] := by
  rw [bytesAt, drop_eq_getElem_cons h, take_succ_cons, take_zero, getD_eq_getElem b 0 h]

/-- **Accepted bytes are the form of what they hold.** -/
theorem bytes_descriptorAt {kind : BaselineKind} {cloneMethod : CloneMethod}
    (h : Accepted b kind cloneMethod) :
    (descriptorAt b kind cloneMethod (readInt b 40 2) (readInt b 44 4)).bytes = b := by
  have hlength := h.length_eq
  have hheader : headerLen = 48 := rfl
  rw [hheader] at hlength
  have hidentity : (bytesAt b 48 (readInt b 40 2)).length = readInt b 40 2 :=
    length_bytesAt (by omega)
  have hoverlay : (bytesAt b (48 + readInt b 40 2) (readInt b 44 4)).length = readInt b 44 4 :=
    length_bytesAt (by omega)
  -- The byte string, cut at the offsets of the header and of the payload.
  have hcut : b = (bytesAt b 0 8 ++ (bytesAt b 8 2 ++ (bytesAt b 10 1 ++ (bytesAt b 11 1 ++
      (bytesAt b 12 4 ++ (bytesAt b 16 8 ++ (bytesAt b 24 8 ++ (bytesAt b 32 8 ++
      (bytesAt b 40 2 ++ (bytesAt b 42 2 ++ (bytesAt b 44 4 ++ (bytesAt b 48 (readInt b 40 2) ++
      (bytesAt b (48 + readInt b 40 2) (readInt b 44 4) ++
      (bytesAt b (48 + readInt b 40 2 + readInt b 44 4) (readInt b 44 4) ++
        b.drop (48 + readInt b 40 2 + readInt b 44 4 + readInt b 44 4))))))))))))))) := by
    iterate 14 rw [← drop_eq_bytesAt_append]
    rw [drop_zero]
  have hend : b.drop (48 + readInt b 40 2 + readInt b 44 4 + readInt b 44 4) = [] :=
    drop_eq_nil_of_le (by omega)
  have hmagic : bytesAt b 0 8 = magic := h.magic_eq
  have hversion : bytesAt b 8 2 = littleEndian version 2 := by
    rw [← h.version_eq, littleEndian_readInt (by omega)]
  have hfirst : bytesAt b 12 4 = [0, 0, 0, 0] :=
    eq_replicate_of_all_zero (length_bytesAt (by omega)) h.first_zero
  have hsecond : bytesAt b 42 2 = [0, 0] :=
    eq_replicate_of_all_zero (length_bytesAt (by omega)) h.second_zero
  have hkind : bytesAt b 10 1 = [kindByte kind] := by
    rw [bytesAt_one (by omega), h.kind_eq]
  have hmethod : bytesAt b 11 1 = [methodByte cloneMethod] := by
    rw [bytesAt_one (by omega), h.method_eq]
  have hparts : (descriptorAt b kind cloneMethod (readInt b 40 2) (readInt b 44 4)).parts =
      [magic, littleEndian version 2, [kindByte kind], [methodByte cloneMethod], [0, 0, 0, 0],
        bytesAt b 16 8, bytesAt b 24 8, bytesAt b 32 8, bytesAt b 40 2, [0, 0], bytesAt b 44 4,
        bytesAt b 48 (readInt b 40 2), bytesAt b (48 + readInt b 40 2) (readInt b 44 4),
        bytesAt b (48 + readInt b 40 2 + readInt b 44 4) (readInt b 44 4)] := by
    unfold Descriptor.parts descriptorAt
    simp only [hheader, hidentity, hoverlay]
    iterate 5 rw [littleEndian_readInt (by omega)]
  rw [hend, hmagic, hversion, hfirst, hsecond, hkind, hmethod] at hcut
  rw [Descriptor.bytes, hparts]
  simp only [flatten_cons, flatten_nil]
  exact hcut.symm

/-- **Canonicity.** Accepted bytes hold a descriptor that fits, and are its form. -/
theorem bytes_of_parse (h : parse b = .ok d) : Fits d ∧ d.bytes = b := by
  obtain ⟨kind, cloneMethod, haccepted, rfl⟩ := accepted_of_parse h
  have hbytes := bytes_descriptorAt haccepted
  refine ⟨⟨haccepted.valid, ?_⟩, hbytes⟩
  rw [← length_bytes haccepted.valid, hbytes]
  exact haccepted.short

/-- **The codec of fork descriptors.** Every descriptor that fits is encoded, to as many bytes as
`encodedLen` says, and read back from them and from no other bytes. What is read from accepted bytes
fits and is encoded to the same bytes. -/
theorem forkDescriptor_codec :
    (∀ d : Descriptor, Fits d → ∃ b, d.encodeAlloc = .ok b ∧ d.encodedLen = .ok b.length ∧
      parse b = .ok d ∧ ∀ b', parse b' = .ok d → b' = b) ∧
    (∀ (b : Bytes) (d : Descriptor), parse b = .ok d → Fits d ∧ d.encodeAlloc = .ok b) := by
  constructor
  · intro d hfits
    have hlen := encodedLen_ok.mpr ⟨hfits, length_bytes hfits.valid⟩
    refine ⟨d.bytes, encodeAlloc_ok.mpr ⟨hfits, rfl⟩, hlen, parse_bytes hfits, fun b' h => ?_⟩
    exact (bytes_of_parse h).2.symm
  · intro b d h
    obtain ⟨hfits, hbytes⟩ := bytes_of_parse h
    exact ⟨hfits, encodeAlloc_ok.mpr ⟨hfits, hbytes.symm⟩⟩

def testIdentity : Bytes := textBytes ("blake3:".toList ++ replicate 64 'a')

def testDescriptor : Descriptor where
  baseline := { kind := .rootfs, identity := testIdentity }
  cloneMethod := .reflink
  logicalSize := 2 * diskChunkSize
  chunkSize := diskChunkSize
  chunkCount := 2
  overlayChunks := bitmapSet [0] 0
  zeroChunks := bitmapSet [0] 1
  logicalSize_le := by decide
  chunkSize_le := by decide
  chunkCount_le := by decide

theorem forkDescriptor_codec_testDescriptor :
    Fits testDescriptor ∧ ∃ b, testDescriptor.encodeAlloc = .ok b ∧
      testDescriptor.encodedLen = .ok b.length ∧ parse b = .ok testDescriptor ∧
      ∀ b', parse b' = .ok testDescriptor → b' = b :=
  have hfits : Fits testDescriptor := ⟨by decide +kernel, by decide +kernel⟩
  ⟨hfits, forkDescriptor_codec.1 testDescriptor hfits⟩

def largeDescriptor : Descriptor where
  baseline := { kind := .rootfs, identity := testIdentity }
  cloneMethod := .reflink
  logicalSize := 2 ^ 23 * diskChunkSize
  chunkSize := diskChunkSize
  chunkCount := 2 ^ 23
  overlayChunks := replicate (2 ^ 20) 0
  zeroChunks := replicate (2 ^ 20) 0
  logicalSize_le := by decide
  chunkSize_le := by decide
  chunkCount_le := by decide

/-- The descriptor of a large disk passes its checks and is still not encoded: with the header and
the identity, its bitmaps do not fit. -/
theorem largeDescriptor_not_encoded : largeDescriptor.validateFields = .ok () ∧
      largeDescriptor.encodeAlloc = .error .descriptorTooLarge := by
  have hoverlay : largeDescriptor.overlayChunks.length = 2 ^ 20 := length_replicate
  have hzero : largeDescriptor.zeroChunks.length = 2 ^ 20 := length_replicate
  have hvalid : largeDescriptor.validateFields = .ok () := by
    refine bind_ok.mpr ⟨(), ?_, by decide +kernel⟩
    iterate 2 refine rejectIf_bind_ok.mpr ⟨by decide, ?_⟩
    refine rejectIf_bind_ok.mpr ⟨?_, ?_⟩
    · rw [hoverlay, hzero]
      decide
    · refine rejectIf_bind_ok.mpr ⟨?_, ?_⟩
      · rintro ⟨pair, hpair, hne⟩
        have hfirst := eq_of_mem_replicate (of_mem_zip hpair).1
        rw [hfirst] at hne
        exact hne (UInt8.zero_and)
      · refine rejectIf_bind_ok.mpr ⟨fun h => (by cases h.1), ?_⟩
        exact rejectIf_ok.mpr fun h => h.1 rfl
  refine ⟨hvalid, encodeAlloc_of_long hvalid ?_⟩
  rw [hoverlay]
  decide

end SporeVM.RuntimeDiskFork
