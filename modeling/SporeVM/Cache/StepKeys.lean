import SporeVM.Cache.Steps
import SporeVM.Lib.PrefixCode
import Mathlib.Data.Set.Function

/-!
# Keys of build steps

Two steps have the same key exactly when `stepInputEql` takes them for the same step. The message
that is hashed is a concatenation of self-delimiting words, one for each field, with a marker at
its end that is only there when it is set. So it determines the fields it is made from.

The digest function is arbitrary: all that is asked of it is that it tells the two messages apart.
-/

namespace SporeVM

open Lib
open Lib.PathText (Text)
open List
open Function

-- ══ Comparing steps

def stepInputEql (a b : StepInput) : Bool :=
  let af := a.flatFields
  let bf := b.flatFields
  a.platform.os = b.platform.os && a.platform.arch = b.platform.arch &&
    a.parentIndexDigest = b.parentIndexDigest &&
    a.canonicalInstruction = b.canonicalInstruction &&
    af.instructionKind = bf.instructionKind && af.inputDigest = bf.inputDigest &&
    af.envDigest = bf.envDigest && af.workdir = bf.workdir && af.networkMode = bf.networkMode &&
    af.memoryBytes = bf.memoryBytes && af.vcpus = bf.vcpus && af.nofileSoft = bf.nofileSoft &&
    af.nofileHard = bf.nofileHard && af.exactTarget = bf.exactTarget &&
    af.producerIdentity = bf.producerIdentity && af.executorIdentity = bf.executorIdentity &&
    af.copyDestinationPolicy = bf.copyDestinationPolicy &&
    af.cacheMountDigest = bf.cacheMountDigest && af.sshDeclaredAbsent = bf.sshDeclaredAbsent

variable {a b : StepInput}

lemma stepInputEql_iff :
    stepInputEql a b ↔ a.platform = b.platform ∧ a.parentIndexDigest = b.parentIndexDigest ∧
      a.canonicalInstruction = b.canonicalInstruction ∧ a.flatFields = b.flatFields := by
  simp only [stepInputEql, Bool.and_eq_true, decide_eq_true_eq]
  constructor
  · rintro ⟨⟨⟨⟨⟨⟨⟨⟨⟨⟨⟨⟨⟨⟨⟨⟨⟨⟨hos, harch⟩, hparent⟩, hcanonical⟩, hkind⟩, hinput⟩, henv⟩, hworkdir⟩,
      hnetwork⟩, hmemory⟩, hvcpus⟩, hsoft⟩, hhard⟩, htarget⟩, hproducer⟩, hexecutor⟩, hpolicy⟩,
      hmount⟩, hssh⟩
    refine ⟨?_, hparent, hcanonical, ?_⟩
    · cases hp : a.platform
      cases hq : b.platform
      simp_all
    · cases hf : a.flatFields
      cases hg : b.flatFields
      simp_all
  · rintro ⟨hplatform, hparent, hcanonical, hfields⟩
    simp [hplatform, hparent, hcanonical, hfields]

-- ══ What the types of the source hold

structure IsByteString (text : Text) : Prop where
  length_lt : text.length < 256 ^ 8
  bytes : ∀ c ∈ text, c.toNat < 256

instance decidableIsByteString (text : Text) : Decidable (IsByteString text) :=
  decidable_of_iff (text.length < 256 ^ 8 ∧ text.all (fun c => decide (c.toNat < 256)) = true)
    ⟨fun h => ⟨h.1, fun c hc => of_decide_eq_true (all_eq_true.mp h.2 c hc)⟩,
      fun h => ⟨h.length_lt, all_eq_true.mpr fun c hc => decide_eq_true (h.bytes c hc)⟩⟩

structure FlatFields.Representable (fields : FlatFields) : Prop where
  instructionKind : IsByteString fields.instructionKind
  inputDigest : IsByteString fields.inputDigest
  envDigest : IsByteString fields.envDigest
  workdir : IsByteString fields.workdir
  memoryBytes : ∀ n ∈ fields.memoryBytes, n < 256 ^ 8
  vcpus : ∀ n ∈ fields.vcpus, n < 256 ^ 4
  nofileSoft : ∀ n ∈ fields.nofileSoft, n < 256 ^ 8
  nofileHard : ∀ n ∈ fields.nofileHard, n < 256 ^ 8
  exactTarget : ∀ n ∈ fields.exactTarget, n < 256 ^ 8
  producerIdentity : ∀ text ∈ fields.producerIdentity, IsByteString text
  executorIdentity : IsByteString fields.executorIdentity
  cacheMountDigest : IsByteString fields.cacheMountDigest

structure StepInput.Representable (input : StepInput) : Prop where
  os : IsByteString input.platform.os
  parentIndexDigest : IsByteString input.parentIndexDigest
  canonicalInstruction : IsByteString input.canonicalInstruction
  fields : input.flatFields.Representable

-- ══ The words of the message

lemma selfDelimiting_littleEndian (count : ℕ) :
    SelfDelimiting (fun n => littleEndian n count) (· < 256 ^ count) :=
  .of_length (fun n => length_littleEndian n count) fun _ _ hm hn h => littleEndian_inj hm hn h

lemma textBytes_inj {text text' : Text} (htext : IsByteString text) (htext' : IsByteString text')
    (h : textBytes text = textBytes text') : text = text' := by
  have hbyte : ∀ c d : Char, c.toNat < 256 → d.toNat < 256 →
      UInt8.ofNat c.toNat = UInt8.ofNat d.toNat → c = d := by
    intro c d hc hd hcd
    have hcd := congrArg UInt8.toNat hcd
    rw [UInt8.toNat_ofNat', UInt8.toNat_ofNat', Nat.mod_eq_of_lt hc, Nat.mod_eq_of_lt hd] at hcd
    exact Char.toNat_inj.mp hcd
  refine ext_getElem (by simpa [textBytes] using congrArg length h) fun i hi hi' => ?_
  apply hbyte _ _ (htext.bytes _ (getElem_mem hi)) (htext'.bytes _ (getElem_mem hi'))
  have hat := congrArg (fun bytes => bytes[i]?) h
  simpa [textBytes, hi, hi'] using hat

lemma selfDelimiting_hashField : SelfDelimiting hashField IsByteString := by
  refine (selfDelimiting_littleEndian 8).lengthFirst (fun text h => ?_) fun _ _ h h' heq =>
    textBytes_inj h h' heq
  simpa [textBytes] using h.length_lt

lemma selfDelimiting_hashOptionalField :
    SelfDelimiting hashOptionalField fun text => ∀ t ∈ text, IsByteString t :=
  selfDelimiting_hashField.optional (by decide : (1 : UInt8) ≠ 0) rfl fun _ => rfl

lemma selfDelimiting_hashOptionalU64 :
    SelfDelimiting hashOptionalU64 fun value => ∀ n ∈ value, n < 256 ^ 8 :=
  (selfDelimiting_littleEndian 8).optional (by decide : (1 : UInt8) ≠ 0) rfl fun _ => rfl

lemma selfDelimiting_hashOptionalU32 :
    SelfDelimiting hashOptionalU32 fun value => ∀ n ∈ value, n < 256 ^ 4 :=
  (selfDelimiting_littleEndian 4).optional (by decide : (1 : UInt8) ≠ 0) rfl fun _ => rfl

lemma selfDelimiting_tag {τ : Type} {name : τ → Text} (hname : ∀ x, IsByteString (name x))
    (hinj : Injective name) :
    SelfDelimiting (fun tag : Option τ => hashOptionalField (tag.map name)) fun _ => True := by
  refine selfDelimiting_hashOptionalField.comp (fun tag _ text htext => ?_) fun tag tag' _ _ h => ?_
  · obtain ⟨x, -, rfl⟩ := Option.map_eq_some_iff.mp htext
    exact hname x
  · exact Option.map_injective hinj h

lemma Architecture.name_injective : Injective Architecture.name := by
  intro a b
  cases a <;> cases b <;> decide

lemma NetworkMode.tagName_injective : Injective NetworkMode.tagName := by
  intro a b
  cases a <;> cases b <;> decide

lemma CopyDestinationPolicy.tagName_injective :
    Injective CopyDestinationPolicy.tagName := by
  intro a b
  cases a <;> cases b <;> decide

-- ══ The message and its key

lemma hashField_ne_nil (text : Text) : hashField text ≠ [] := by
  intro h
  have hlen := congrArg length h
  rw [hashField, length_append, length_littleEndian, length_nil] at hlen
  omega

lemma sshMarker_inj {s s' : Bool} {marker : Bytes} (hmarker : marker ≠ [])
    (h : (if s then marker else []) = if s' then marker else []) : s = s' := by
  cases s <;> cases s' <;> simp_all

lemma stepInputEql_of_stepKeyBytes (ha : a.Representable)
    (hb : b.Representable) (h : stepKeyBytes a = stepKeyBytes b) : stepInputEql a b := by
  have hversion : IsByteString builderVersion := by decide
  have harch : ∀ arch : Architecture, IsByteString arch.name := fun arch => by
    cases arch <;> decide
  have hmode : ∀ mode : NetworkMode, IsByteString mode.tagName := fun mode => by
    cases mode <;> decide
  have hpolicy : ∀ policy : CopyDestinationPolicy, IsByteString policy.tagName := fun policy => by
    cases policy <;> decide
  have fa := ha.fields
  have fb := hb.fields
  unfold stepKeyBytes at h
  simp only [append_assoc] at h
  -- one word after the other, in the order in which they are hashed
  obtain ⟨-, h⟩ := selfDelimiting_hashField hversion hversion h
  obtain ⟨hos, h⟩ := selfDelimiting_hashField ha.os hb.os h
  obtain ⟨harch, h⟩ := selfDelimiting_hashField (harch _) (harch _) h
  obtain ⟨hparent, h⟩ := selfDelimiting_hashField ha.parentIndexDigest hb.parentIndexDigest h
  obtain ⟨hkind, h⟩ := selfDelimiting_hashField fa.instructionKind fb.instructionKind h
  obtain ⟨hcanonical, h⟩ :=
    selfDelimiting_hashField ha.canonicalInstruction hb.canonicalInstruction h
  obtain ⟨hinput, h⟩ := selfDelimiting_hashField fa.inputDigest fb.inputDigest h
  obtain ⟨henv, h⟩ := selfDelimiting_hashField fa.envDigest fb.envDigest h
  obtain ⟨hworkdir, h⟩ := selfDelimiting_hashField fa.workdir fb.workdir h
  obtain ⟨hnetwork, h⟩ := selfDelimiting_tag hmode NetworkMode.tagName_injective trivial trivial h
  obtain ⟨hmemory, h⟩ := selfDelimiting_hashOptionalU64 fa.memoryBytes fb.memoryBytes h
  obtain ⟨hvcpus, h⟩ := selfDelimiting_hashOptionalU32 fa.vcpus fb.vcpus h
  obtain ⟨hsoft, h⟩ := selfDelimiting_hashOptionalU64 fa.nofileSoft fb.nofileSoft h
  obtain ⟨hhard, h⟩ := selfDelimiting_hashOptionalU64 fa.nofileHard fb.nofileHard h
  obtain ⟨htarget, h⟩ := selfDelimiting_hashOptionalU64 fa.exactTarget fb.exactTarget h
  obtain ⟨hproducer, h⟩ :=
    selfDelimiting_hashOptionalField fa.producerIdentity fb.producerIdentity h
  obtain ⟨hexecutor, h⟩ := selfDelimiting_hashField fa.executorIdentity fb.executorIdentity h
  obtain ⟨hcopy, h⟩ :=
    selfDelimiting_tag hpolicy CopyDestinationPolicy.tagName_injective trivial trivial h
  obtain ⟨hmount, h⟩ := selfDelimiting_hashField fa.cacheMountDigest fb.cacheMountDigest h
  have hssh := sshMarker_inj (hashField_ne_nil _) h
  simp only [stepInputEql, Bool.and_eq_true, decide_eq_true_eq]
  exact ⟨⟨⟨⟨⟨⟨⟨⟨⟨⟨⟨⟨⟨⟨⟨⟨⟨⟨hos, Architecture.name_injective harch⟩, hparent⟩, hcanonical⟩, hkind⟩,
    hinput⟩,
    henv⟩, hworkdir⟩, hnetwork⟩, hmemory⟩, hvcpus⟩, hsoft⟩, hhard⟩, htarget⟩, hproducer⟩,
    hexecutor⟩, hcopy⟩, hmount⟩, hssh⟩

lemma stepKeyBytes_eq_of_stepInputEql (h : stepInputEql a b) : stepKeyBytes a = stepKeyBytes b := by
  obtain ⟨hplatform, hparent, hcanonical, hfields⟩ := stepInputEql_iff.mp h
  unfold stepKeyBytes
  rw [hplatform, hparent, hcanonical, hfields]

lemma ChunkId.hexDigit_inj : ∀ m < 16, ∀ n < 16, hexDigit m = hexDigit n → m = n := by
  decide

lemma ChunkId.bytesToHex_injective : Injective bytesToHex := by
  intro bs cs h
  induction bs generalizing cs with
  | nil =>
    cases cs with
    | nil => rfl
    | cons c cs => cases h
  | cons b bs ih =>
    cases cs with
    | nil => cases h
    | cons c cs =>
      simp only [bytesToHex, List.cons.injEq] at h
      obtain ⟨hhigh, hlow, hrest⟩ := h
      have hb := b.toNat_lt
      have hc := c.toNat_lt
      have hhigh := hexDigit_inj _ (by omega) _ (by omega) hhigh
      have hlow := hexDigit_inj _ (by omega) _ (by omega) hlow
      have hbyte : b = c := UInt8.toNat_inj.mp (by omega)
      rw [hbyte, ih hrest]

lemma ChunkId.toHex_injective : Injective toHex := by
  intro x y h
  cases x
  cases y
  congr
  exact bytesToHex_injective h

lemma stepKey_eq_ok {blake3 : Bytes → ChunkId} {input : StepInput}
    (hvalid : validateInput input input.flatFields = .ok ()) :
    stepKey blake3 input = .ok (blake3 (stepKeyBytes input)).toHex := by
  rw [stepKey, hvalid]
  rfl

/-- **The key of a step is the step**: valid steps have one key exactly when `stepInputEql` takes
them for one step, if the digest tells their two messages apart. -/
theorem stepKey_eq_iff_stepInputEql (blake3 : Bytes → ChunkId) (a b : StepInput)
    (ha : a.Representable) (hb : b.Representable) (hvalidA : validateInput a a.flatFields = .ok ())
    (hvalidB : validateInput b b.flatFields = .ok ())
    (hfree : Set.InjOn blake3 {stepKeyBytes a, stepKeyBytes b}) :
    stepKey blake3 a = stepKey blake3 b ↔ stepInputEql a b = true := by
  rw [stepKey_eq_ok hvalidA, stepKey_eq_ok hvalidB, Except.ok.injEq, ChunkId.toHex_injective.eq_iff]
  constructor
  · intro h
    exact stepInputEql_of_stepKeyBytes ha hb (hfree (by simp) (by simp) h)
  · intro h
    rw [stepKeyBytes_eq_of_stepInputEql h]

def runTrue (sshDeclaredAbsent : Bool) : StepInput :=
  { platform := { os := "linux".toList, arch := .arm64 }
    parentIndexDigest := digestPrefix ++ replicate ChunkId.hexLen 'a'
    canonicalInstruction := "RUN true".toList
    executorIdentity := digestPrefix ++ replicate ChunkId.hexLen 'e'
    operation := .run
      { envDigest := []
        workdir := "/".toList
        networkMode := .spore
        memoryBytes := some 1073741824
        vcpus := some 2
        nofileSoft := none
        nofileHard := none
        cacheMountDigest := []
        contextBindDigest := []
        sshDeclaredAbsent } }

lemma runTrue_representable (ssh : Bool) : (runTrue ssh).Representable where
  os := by decide +kernel +revert
  parentIndexDigest := by decide +kernel +revert
  canonicalInstruction := by decide +kernel +revert
  fields :=
    { instructionKind := by decide +kernel +revert
      inputDigest := by decide +kernel +revert
      envDigest := by decide +kernel +revert
      workdir := by decide +kernel +revert
      memoryBytes := by decide +kernel +revert
      vcpus := by decide +kernel +revert
      nofileSoft := by decide +kernel +revert
      nofileHard := by decide +kernel +revert
      exactTarget := by decide +kernel +revert
      producerIdentity := by decide +kernel +revert
      executorIdentity := by decide +kernel +revert
      cacheMountDigest := by decide +kernel +revert }

def lengthDigest (bytes : Bytes) : ChunkId :=
  ⟨littleEndian bytes.length 32, length_littleEndian _ _⟩

theorem stepKey_eq_iff_stepInputEql_runTrue :
    (runTrue false).Representable ∧ (runTrue true).Representable ∧
      (stepKey lengthDigest (runTrue false) = stepKey lengthDigest (runTrue true) ↔
        stepInputEql (runTrue false) (runTrue true) = true) :=
  ⟨runTrue_representable false, runTrue_representable true,
    stepKey_eq_iff_stepInputEql lengthDigest _ _ (runTrue_representable false)
      (runTrue_representable true) (by decide +kernel) (by decide +kernel)
      (Set.injOn_pair.mpr fun h => absurd h (by decide +kernel))⟩

end SporeVM
