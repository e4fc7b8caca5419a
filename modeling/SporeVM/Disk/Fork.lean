import Mathlib.Data.Nat.Bitwise
import SporeVM.Disk.Outcomes

/-!
# Forking a live disk head

`exportForkHead` describes a live disk relative to its fork authority: one bitmap of chunks whose
bytes are in the overlay, one of chunks that are zero, and a clone of the overlay file. A child
opens the authority by itself, and `applyForkDescriptor` lays the two bitmaps over its source map.

Digests are values of `Id` here, so the check that an identity is a well-formed digest has no
counterpart; clone timings are left out.
-/

namespace SporeVM

open Lib
open Lib.EState (rejectIf check bind_ok pure_ok foldlM_range_ok check_bind_ok rejectIf_bind_ok)
open List

variable {Id : Type}

-- ══ Descriptors

inductive CloneMethod
  | reflink | copy | sparse
  deriving DecidableEq

structure ForkBaseline (Id : Type) where
  kind : BaselineKind
  identity : Id
  deriving DecidableEq

structure ForkDescriptor (Id : Type) where
  baseline : ForkBaseline Id
  cloneMethod : CloneMethod
  logicalSize : ℕ
  chunkSize : ℕ
  chunkCount : ℕ
  overlayChunks : List UInt8
  zeroChunks : List UInt8
  deriving DecidableEq

def bitmapLen (chunkCount : ℕ) : ℕ := divCeil chunkCount 8

def bitmapSet (bitmap : List UInt8) (c : ℕ) : List UInt8 :=
  bitmap.modify (c / 8) (· ||| (1 <<< UInt8.ofNat (c % 8)))

def bitmapContains (bitmap : List UInt8) (c : ℕ) : Bool :=
  bitmap.getD (c / 8) 0 &&& (1 <<< UInt8.ofNat (c % 8)) != 0

def paddingMask (chunkCount : ℕ) : UInt8 := ~~~((1 <<< UInt8.ofNat (chunkCount % 8)) - 1)

def ForkDescriptor.validateFields (descriptor : ForkDescriptor Id) : Except StorageError Unit := do
  Check.rejectIf (descriptor.logicalSize = 0 ∨ descriptor.chunkSize ≠ diskChunkSize)
    .badDescriptor
  Check.rejectIf (descriptor.chunkCount ≠ divCeil descriptor.logicalSize descriptor.chunkSize)
    .badDescriptor
  let expectedBitmapLen := bitmapLen descriptor.chunkCount
  Check.rejectIf (descriptor.overlayChunks.length ≠ expectedBitmapLen ∨
    descriptor.zeroChunks.length ≠ expectedBitmapLen) .badDescriptor
  Check.rejectIf (∃ pair ∈ descriptor.overlayChunks.zip descriptor.zeroChunks,
    pair.1 &&& pair.2 ≠ 0) .badDescriptor
  Check.rejectIf (descriptor.cloneMethod = .sparse ∧
    ¬ descriptor.overlayChunks.all (· == 0) = true) .badDescriptor
  Check.rejectIf (descriptor.chunkCount % 8 ≠ 0 ∧
    (descriptor.overlayChunks.getD (expectedBitmapLen - 1) 0 &&& paddingMask
      descriptor.chunkCount ≠ 0 ∨
      descriptor.zeroChunks.getD (expectedBitmapLen - 1) 0 &&& paddingMask descriptor.chunkCount ≠
        0))
    .badDescriptor

lemma toNat_one_shiftLeft {k : ℕ} (hk : k < 8) : ((1 : UInt8) <<< UInt8.ofNat k).toNat = 2 ^ k := by
  have h : ∀ k < 8, ((1 : UInt8) <<< UInt8.ofNat k).toNat = 2 ^ k := by decide
  exact h k hk

lemma bitmapContains_eq_testBit (bitmap : List UInt8) (c : ℕ) :
    bitmapContains bitmap c = (bitmap.getD (c / 8) 0).toNat.testBit (c % 8) := by
  have hk : c % 8 < 8 := Nat.mod_lt _ (by decide)
  have hand : (bitmap.getD (c / 8) 0 &&& (1 <<< UInt8.ofNat (c % 8))).toNat =
      if (bitmap.getD (c / 8) 0).toNat.testBit (c % 8) then 2 ^ (c % 8) else 0 := by
    rw [UInt8.toNat_and, toNat_one_shiftLeft hk, Nat.and_two_pow]
    cases (bitmap.getD (c / 8) 0).toNat.testBit (c % 8) <;> simp
  rw [bitmapContains, Bool.eq_iff_iff]
  simp only [bne_iff_ne, ne_eq, ← UInt8.toNat_inj, hand]
  split <;> simp_all

@[simp] lemma length_bitmapSet (bitmap : List UInt8) (c : ℕ) :
    (bitmapSet bitmap c).length = bitmap.length := by
  simp [bitmapSet]

lemma bitmapContains_bitmapSet {bitmap : List UInt8} {c c' : ℕ} (hc : c / 8 < bitmap.length) :
    bitmapContains (bitmapSet bitmap c) c' = (bitmapContains bitmap c' || decide (c = c')) := by
  have hk : c % 8 < 8 := Nat.mod_lt _ (by decide)
  simp only [bitmapContains_eq_testBit, bitmapSet, getD_eq_getElem?_getD,
    List.getElem?_modify, Option.map_eq_map]
  by_cases hbyte : c / 8 = c' / 8
  · rw [← hbyte, List.getElem?_eq_getElem hc]
    simp only [Option.map_some, Option.getD_some, if_true, UInt8.toNat_or, toNat_one_shiftLeft hk,
      Nat.testBit_or, Nat.testBit_two_pow]
    congr 1
    rw [decide_eq_decide]
    constructor
    · intro hmod
      rw [← Nat.div_add_mod c 8, ← Nat.div_add_mod c' 8, hbyte, hmod]
    · rintro rfl
      rfl
  · have hne : c ≠ c' := fun h => hbyte (by rw [h])
    simp [hbyte, hne]

-- ══ Export

structure ExportForkOptions where
  quiesced : Bool
  allowCopy : Bool
  forceCopy : Bool

structure ForkHead (Id : Type) where
  descriptor : ForkDescriptor Id
  overlayFd : ℕ
  copiedBytes : ℕ

def cleanSourcesAreBaseline (d : ChunkMappedDisk Id) : Bool :=
  d.committedSnapshotIdentity.isSome && d.pendingSnapshotIdentity.isNone

def exportsOverlay (d : ChunkMappedDisk Id) (c : ℕ) : Bool :=
  match d.source c with
  | .overlay => true
  | .overlayClean => !cleanSourcesAreBaseline d
  | .zero | .zeroDirty | .base | .cas => false

def exportsZero (d : ChunkMappedDisk Id) (c : ℕ) : Bool :=
  match d.source c with
  | .zeroDirty => true
  | .zero => !cleanSourcesAreBaseline d
  | .overlay | .overlayClean | .base | .cas => false

def bitmapOf (p : ℕ → Bool) (count : ℕ) : List UInt8 :=
  (range count).foldl (fun bitmap c => if p c = true then bitmapSet bitmap c else bitmap)
    (replicate (bitmapLen count) 0)

lemma bitmapContains_of_all_zero {bitmap : List UInt8} (h : bitmap.all (· == 0) = true) (c : ℕ) :
    bitmapContains bitmap c = false := by
  have hbyte : bitmap.getD (c / 8) 0 = 0 := by
    rw [getD_eq_getElem?_getD]
    cases hget : bitmap[c / 8]? with
    | none => rfl
    | some byte =>
      have hmem := mem_of_getElem? hget
      simpa using all_eq_true.mp h byte hmem
  rw [bitmapContains, hbyte, UInt8.zero_and]
  rfl

lemma bitmapContains_bitmapOf (p : ℕ → Bool) {count c : ℕ} (hc : c < count) :
    bitmapContains (bitmapOf p count) c = p c := by
  -- After `n` chunks the bits below `n` are decided and the others are still clear.
  have hfold : ∀ n, n ≤ count →
      ((range n).foldl (fun bitmap c => if p c = true then bitmapSet bitmap c else bitmap)
        (replicate (bitmapLen count) 0)).length = bitmapLen count ∧
      ∀ c, bitmapContains
        ((range n).foldl (fun bitmap c => if p c = true then bitmapSet bitmap c else bitmap)
          (replicate (bitmapLen count) 0)) c = (decide (c < n) && p c) := by
    intro n hn
    induction n with
    | zero =>
      refine ⟨length_replicate, fun c => ?_⟩
      rw [range_zero, foldl_nil, bitmapContains_of_all_zero (by simp) c]
      simp
    | succ n ih =>
      obtain ⟨hlen, hbits⟩ := ih (by omega)
      rw [range_succ, foldl_append, foldl_cons, foldl_nil]
      by_cases hp : p n = true
      · rw [if_pos hp]
        refine ⟨by rw [length_bitmapSet, hlen], fun c => ?_⟩
        have hbyte : n / 8 < bitmapLen count := (lt_divCeil (by decide)).mpr (by omega)
        rw [bitmapContains_bitmapSet (by rw [hlen]; exact hbyte), hbits c]
        by_cases heq : n = c
        · subst heq
          simp [hp]
        · have hiff : c < n + 1 ↔ c < n := by omega
          simp [heq, hiff]
      · rw [if_neg hp]
        refine ⟨hlen, fun c => ?_⟩
        rw [hbits c]
        by_cases heq : n = c
        · subst heq
          simp [hp]
        · have hiff : c < n + 1 ↔ c < n := by omega
          simp [hiff]
  rw [bitmapOf, (hfold count (Nat.le_refl _)).2 c]
  simp [hc]

def createTempOverlayFd (dir : String) (fd : ℕ) : DiskM Id Unit := do
  rejectIf (dir = "") .badOverlay
  let fault ← nextFault
  rejectIf (fault ≠ none) .ioFailed
  setFile fd (SparseFile.zeros 0)

def copyOverlayChunks (parentFd childFd : ℕ) : DiskM Id ℕ := do
  let d ← getDisk
  ftruncate childFd d.size
  (range d.chunkCount).foldlM (fun copiedBytes c =>
    if d.source c ≠ .overlay ∧ d.source c ≠ .overlayClean then pure copiedBytes
    else do
      let len ← check (d.chunkLen c)
      rejectIf (c * d.chunkSize > maxU64) .outOfRange
      let data ← readExact parentFd len (c * d.chunkSize)
      writeExact childFd data (c * d.chunkSize)
      pure (copiedBytes + len)) 0

def cloneOverlayNative (dir : String) (parentFd childFd : ℕ) : DiskM Id Bool := do
  createTempOverlayFd dir childFd
  let fault ← nextFault
  match fault with
  | some _ => pure false
  | none => do
    let file ← getFile parentFd
    setFile childFd file
    pure true

def cloneOverlay (parent : Overlay) (childFd : ℕ) (options : ExportForkOptions) :
    DiskM Id (CloneMethod × ℕ) := do
  let cloned ← (if options.forceCopy = true then pure false
    else cloneOverlayNative parent.dir parent.fd childFd)
  if cloned = true then pure (.reflink, 0)
  else do
    rejectIf (options.allowCopy = false) .fastForkUnavailable
    createTempOverlayFd parent.dir childFd
    let copiedBytes ← copyOverlayChunks parent.fd childFd
    pure (.copy, copiedBytes)

def createSparseOverlay (parent : Overlay) (childFd : ℕ) : DiskM Id (CloneMethod × ℕ) := do
  let d ← getDisk
  createTempOverlayFd parent.dir childFd
  ftruncate childFd d.size
  pure (.sparse, 0)

def effectiveBaseline (d : ChunkMappedDisk Id) (baseline : ForkBaseline Id) : ForkBaseline Id :=
  match d.committedSnapshotIdentity with
  | some identity => ⟨.diskIndex, identity⟩
  | none => baseline

def exportForkHead (baseline : ForkBaseline Id) (options : ExportForkOptions) (childFd : ℕ) :
    DiskM Id (ForkHead Id) := do
  rejectIf (options.quiesced = false) .assertionFailed
  let d ← getDisk
  rejectIf (d.poisoned = true) .poisoned
  match d.overlay with
  | none => throw .readOnly
  | some parent => do
    let overlayChunks := bitmapOf (exportsOverlay d) d.chunkCount
    let zeroChunks := bitmapOf (exportsZero d) d.chunkCount
    let cloned ← (if overlayChunks.all (· == 0) = true then createSparseOverlay parent childFd
      else cloneOverlay parent childFd options)
    pure {
      descriptor := ⟨effectiveBaseline d baseline, cloned.1, d.size, d.chunkSize, d.chunkCount,
        overlayChunks, zeroChunks⟩
      overlayFd := childFd
      copiedBytes := cloned.2 }

-- ══ Apply

/-- The source of a chunk under a descriptor. A zero that the child's baseline already has stays
clean; a new one is dirty, so that a snapshot cannot reuse the baseline's entry for it. -/
def forkedSource (d : ChunkMappedDisk Id) (descriptor : ForkDescriptor Id) (c : ℕ) : Source :=
  if bitmapContains descriptor.overlayChunks c = true then .overlay
  else if bitmapContains descriptor.zeroChunks c = true then
    if d.chunkKnownZero c = false then .zeroDirty else d.source c
  else d.source c

def ChunkMappedDisk.fork (d : ChunkMappedDisk Id) (descriptor : ForkDescriptor Id)
    (overlay : Overlay) : ChunkMappedDisk Id :=
  { d with
    overlay := some overlay
    sources := (range d.chunkCount).map (forkedSource d descriptor)
    sources_length := by rw [length_map, length_range]; exact d.sources_length }

/-- Applies a descriptor to a freshly opened disk and returns the overlay descriptor it replaces. -/
def applyForkDescriptor (descriptor : ForkDescriptor Id) (fd : ℕ) : DiskM Id ℕ := do
  check descriptor.validateFields
  let file ← getFile fd
  rejectIf (file.size ≠ descriptor.logicalSize) .badOverlay
  let d ← getDisk
  match d.overlay with
  | none => throw .readOnly
  | some overlay => do
    rejectIf (descriptor.logicalSize ≠ d.size ∨ descriptor.chunkSize ≠ d.chunkSize ∨
      descriptor.chunkCount ≠ d.chunkCount) .badManifest
    rejectIf (∃ source ∈ d.sources, source = .overlay ∨ source = .overlayClean ∨
      source = .zeroDirty) .badManifest
    modifyDisk fun d => d.fork descriptor { overlay with fd := fd }
    pure overlay.fd

-- ══ What an export holds

structure OnlyFile (fd : ℕ) (s s' : DiskState Id) : Prop where
  disk : s'.disk = s.disk
  files : ∀ fd', fd' ≠ fd → s'.host.files fd' = s.host.files fd'

variable {s s' : DiskState Id}

lemma OnlyFile.trans {fd : ℕ} {s'' : DiskState Id} (h : OnlyFile fd s s')
    (h' : OnlyFile fd s' s'') : OnlyFile fd s s'' :=
  ⟨h'.disk.trans h.disk, fun fd' hne => (h'.files fd' hne).trans (h.files fd' hne)⟩

lemma OnlyFile.of_update {fd : ℕ} {f : SparseFile} (hdisk : s'.disk = s.disk)
    (hfiles : s'.host.files = Function.update s.host.files fd f) : OnlyFile fd s s' :=
  ⟨hdisk, fun fd' hne => by rw [hfiles, Function.update_of_ne hne]⟩

lemma createTempOverlayFd_ok {dir : String} {fd : ℕ} {u : Unit}
    (h : createTempOverlayFd dir fd s = .ok u s') : OnlyFile fd s s' := by
  obtain ⟨-, h⟩ := rejectIf_bind_ok.mp h
  obtain ⟨fault, s₂, hfault, h⟩ := bind_ok.mp h
  obtain ⟨hdisk, hfiles⟩ := nextFault_ok hfault
  obtain ⟨-, h⟩ := rejectIf_bind_ok.mp h
  obtain ⟨hdisk', hfiles'⟩ := setFile_ok h
  exact .of_update (hdisk'.trans hdisk) (by rw [hfiles', hfiles])

def Cloned (s s' : DiskState Id) (parentFd childFd c : ℕ) : Prop :=
  ∀ i, s.disk.Holds c i → (s'.host.files childFd).byte i = (s.host.files parentFd).byte i

lemma copyOverlayChunks_ok {parentFd childFd n : ℕ} (hne : parentFd ≠ childFd)
    (h : copyOverlayChunks parentFd childFd s = .ok n s') :
    OnlyFile childFd s s' ∧ ∀ c, c < s.disk.chunkCount →
      s.disk.source c = .overlay ∨ s.disk.source c = .overlayClean →
      Cloned s s' parentFd childFd c := by
  replace h := getDisk_bind_ok.mp h
  obtain ⟨_, s₂, htruncate, h⟩ := bind_ok.mp h
  obtain ⟨-, hdisk, hfiles⟩ := ftruncate_ok htruncate
  -- After `k` iterations the overlay chunks below `k` are copied.
  refine foldlM_range_ok (I := fun k _ t => OnlyFile childFd s t ∧ ∀ c, c < k →
    s.disk.source c = .overlay ∨ s.disk.source c = .overlayClean →
    Cloned s t parentFd childFd c) ?_ ⟨.of_update hdisk hfiles, by simp⟩ h
  rintro k copied t copied' t' hk ⟨honly, hcopied⟩ hstep
  split at hstep
  · next hskip =>
    obtain ⟨-, rfl⟩ := pure_ok.mp hstep
    refine ⟨honly, fun c hc hsource => ?_⟩
    rcases Nat.lt_succ_iff_lt_or_eq.mp hc with hlt | rfl
    · exact hcopied c hlt hsource
    · exact absurd hsource (not_or.mpr hskip)
  · obtain ⟨len, hchunk, hstep⟩ := check_bind_ok.mp hstep
    obtain ⟨-, hlen⟩ := ChunkMappedDisk.chunkLen_ok hchunk
    obtain ⟨-, hstep⟩ := rejectIf_bind_ok.mp hstep
    obtain ⟨data, t₃, hread, hstep⟩ := bind_ok.mp hstep
    obtain ⟨hdata, hdisk₃, hfiles₃⟩ := readExact_ok hread
    obtain ⟨_, t₄, hwrite, hstep⟩ := bind_ok.mp hstep
    obtain ⟨hdisk₄, hfiles₄⟩ := writeExact_ok hwrite
    obtain ⟨-, rfl⟩ := pure_ok.mp hstep
    rw [hfiles₃] at hfiles₄
    refine ⟨honly.trans (.of_update (hdisk₄.trans hdisk₃) hfiles₄), fun c hc hsource i hi => ?_⟩
    rw [hfiles₄, Function.update_self]
    by_cases heq : c = k
    · subst heq
      have hrange := inChunk_iff.mp hi
      rw [← hlen] at hrange
      rw [SparseFile.pwrite_byte_in _ _ _ _ hrange.1 (by rw [hdata, length_slice]; exact hrange.2),
        hdata, getD_slice _ _ _ _ (by omega), honly.files _ hne, Nat.add_sub_cancel' hrange.1]
    · have hout : ¬ s.disk.Holds k i := fun hi' => heq (hi.unique hi')
      rw [ChunkMappedDisk.Holds, inChunk_iff, ← hlen] at hout
      rw [SparseFile.pwrite_byte_out _ _ _ _ (by rw [hdata, length_slice]; omega)]
      exact hcopied c (by omega) hsource i hi

lemma cloneOverlay_ok {parent : Overlay} {childFd : ℕ} (hne : parent.fd ≠ childFd)
    {options : ExportForkOptions} {result : CloneMethod × ℕ}
    (h : cloneOverlay parent childFd options s = .ok result s') :
    OnlyFile childFd s s' ∧ ∀ c, c < s.disk.chunkCount →
      s.disk.source c = .overlay ∨ s.disk.source c = .overlayClean →
      Cloned s s' parent.fd childFd c := by
  obtain ⟨cloned, s₁, hnative, h⟩ := bind_ok.mp h
  -- A native attempt leaves an exact clone, or at most a scratch file.
  have hnative : OnlyFile childFd s s₁ ∧
      (cloned = true → s₁.host.files childFd = s.host.files parent.fd) := by
    split at hnative
    · obtain ⟨rfl, rfl⟩ := pure_ok.mp hnative
      exact ⟨⟨rfl, fun _ _ => rfl⟩, by simp⟩
    · obtain ⟨_, t, htemp, hnative⟩ := bind_ok.mp hnative
      have htemp := createTempOverlayFd_ok htemp
      obtain ⟨fault, t', hfault, hnative⟩ := bind_ok.mp hnative
      obtain ⟨hdisk, hfiles⟩ := nextFault_ok hfault
      have htemp : OnlyFile childFd s t' := htemp.trans ⟨hdisk, fun _ _ => by rw [hfiles]⟩
      cases fault with
      | some n =>
        obtain ⟨rfl, rfl⟩ := pure_ok.mp hnative
        exact ⟨htemp, by simp⟩
      | none =>
        obtain ⟨file, t₁, hfile, hnative⟩ := bind_ok.mp hnative
        obtain ⟨rfl, rfl⟩ := getFile_ok.mp hfile
        obtain ⟨_, t₂, hset, hnative⟩ := bind_ok.mp hnative
        obtain ⟨hdisk', hfiles'⟩ := setFile_ok hset
        obtain ⟨rfl, rfl⟩ := pure_ok.mp hnative
        refine ⟨htemp.trans (.of_update hdisk' hfiles'), fun _ => ?_⟩
        rw [hfiles', Function.update_self, htemp.files _ hne]
  split at h
  · next hcloned =>
    obtain ⟨-, rfl⟩ := pure_ok.mp h
    exact ⟨hnative.1, fun c _ _ i _ => by rw [hnative.2 hcloned]⟩
  · obtain ⟨-, h⟩ := rejectIf_bind_ok.mp h
    obtain ⟨_, s₃, htemp, h⟩ := bind_ok.mp h
    obtain ⟨copied, s₄, hcopy, h⟩ := bind_ok.mp h
    obtain ⟨-, rfl⟩ := pure_ok.mp h
    have hbefore := hnative.1.trans (createTempOverlayFd_ok htemp)
    obtain ⟨honly, hcopied⟩ := copyOverlayChunks_ok hne hcopy
    refine ⟨hbefore.trans honly, fun c hc hsource i hi => ?_⟩
    rw [hbefore.disk] at hcopied
    have := hcopied c hc hsource i (by rw [hbefore.disk]; exact hi)
    rw [this, hbefore.files _ hne]

structure Exported (baseline : ForkBaseline Id) (childFd : ℕ) (o : Overlay) (s s' : DiskState Id)
    (head : ForkHead Id) : Prop where
  only : OnlyFile childFd s s'
  overlayFd : head.overlayFd = childFd
  baseline : head.descriptor.baseline = effectiveBaseline s.disk baseline
  logicalSize : head.descriptor.logicalSize = s.disk.size
  chunkSize : head.descriptor.chunkSize = s.disk.chunkSize
  overlayChunks : ∀ c, c < s.disk.chunkCount →
    bitmapContains head.descriptor.overlayChunks c = exportsOverlay s.disk c
  zeroChunks : ∀ c, c < s.disk.chunkCount →
    bitmapContains head.descriptor.zeroChunks c = exportsZero s.disk c
  cloned : ∀ c, c < s.disk.chunkCount → exportsOverlay s.disk c = true →
    Cloned s s' o.fd childFd c

/-- **Export.** The disk is as before; the descriptor names the chunks to take from the clone and
the chunks that are zero, and the clone has the bytes of the former. -/
theorem exportForkHead_ok {baseline : ForkBaseline Id} {options : ExportForkOptions} {childFd : ℕ}
    {head : ForkHead Id} (hfresh : ¬ s.disk.Reads childFd)
    (h : exportForkHead baseline options childFd s = .ok head s') :
    ∃ o, s.disk.overlay = some o ∧ Exported baseline childFd o s s' head := by
  obtain ⟨-, h⟩ := rejectIf_bind_ok.mp h
  replace h := getDisk_bind_ok.mp h
  obtain ⟨-, h⟩ := rejectIf_bind_ok.mp h
  cases hover : s.disk.overlay with
  | none => simp [hover] at h
  | some parent =>
    simp only [hover] at h
    have hne : parent.fd ≠ childFd := fun heq => hfresh (.inl ⟨parent, hover, heq⟩)
    obtain ⟨cloned, s₄, hclone, h⟩ := bind_ok.mp h
    obtain ⟨rfl, rfl⟩ := pure_ok.mp h
    have hbits : ∀ c, c < s.disk.chunkCount →
        bitmapContains (bitmapOf (exportsOverlay s.disk) s.disk.chunkCount) c =
          exportsOverlay s.disk c := fun c hc => bitmapContains_bitmapOf _ hc
    have hclone : OnlyFile childFd s s₄ ∧ ∀ c, c < s.disk.chunkCount →
        exportsOverlay s.disk c = true → Cloned s s₄ parent.fd childFd c := by
      split at hclone
      · next hall =>
        replace hclone := getDisk_bind_ok.mp hclone
        obtain ⟨_, t₂, htemp, hclone⟩ := bind_ok.mp hclone
        obtain ⟨_, t₃, htruncate, hclone⟩ := bind_ok.mp hclone
        obtain ⟨-, hdisk, hfiles⟩ := ftruncate_ok htruncate
        obtain ⟨-, rfl⟩ := pure_ok.mp hclone
        refine ⟨(createTempOverlayFd_ok htemp).trans (.of_update hdisk hfiles), fun c hc hexport =>
          ?_⟩
        rw [← hbits c hc, bitmapContains_of_all_zero hall c] at hexport
        cases hexport
      · obtain ⟨honly, hcopied⟩ := cloneOverlay_ok hne hclone
        refine ⟨honly, fun c hc hexport => hcopied c hc ?_⟩
        unfold exportsOverlay at hexport
        cases hsource : s.disk.source c <;> simp [hsource] at hexport <;> simp
    exact ⟨parent, rfl, hclone.1, rfl, rfl, rfl, rfl, hbits,
      fun c hc => bitmapContains_bitmapOf _ hc, hclone.2⟩

-- ══ What an application shows

variable {descriptor : ForkDescriptor Id}

lemma fork_source {d : ChunkMappedDisk Id} {o : Overlay} {c : ℕ}
    (hc : c < d.chunkCount) : (d.fork descriptor o).source c = forkedSource d descriptor c := by
  change ((range d.chunkCount).map (forkedSource d descriptor)).getD c .base = _
  rw [getD_eq_getElem _ _ (by simpa using hc)]
  simp

variable {hash : List UInt8 → Id}

/-- **Application.** A disk over clean chunks that takes a descriptor stands for the contents `A'`,
if the clone has the bytes of the exported chunks, the zero chunks are zero in `A'`, and the disk
already has the bytes of all other chunks. -/
theorem Inv.fork {d : ChunkMappedDisk Id} {files : ℕ → SparseFile} {G : Contents} {o : Overlay}
    {A' : SparseFile} (h : Inv hash d files G)
    (hclean : ∀ c, c < d.chunkCount → d.source c ≠ .overlay ∧ d.source c ≠ .overlayClean ∧
      d.source c ≠ .zeroDirty)
    (hsize : A'.size = d.size) (hne : o.fd ≠ d.base.fd) (hover : (files o.fd).size ≤ d.size)
    (hoverlay : ∀ c, c < d.chunkCount → bitmapContains descriptor.overlayChunks c = true →
      ∀ i, d.Holds c i → (files o.fd).byte i = A'.byte i)
    (hzero : ∀ c, c < d.chunkCount → bitmapContains descriptor.zeroChunks c = true →
      ∀ i, d.Holds c i → A'.byte i = 0)
    (hkept : ∀ c, c < d.chunkCount → bitmapContains descriptor.overlayChunks c = false →
      bitmapContains descriptor.zeroChunks c = false → ∀ i, d.Holds c i → A'.byte i =
      G.now.byte i) :
    Inv hash (d.fork descriptor o) files { G with now := A' } where
  size_eq := hsize
  clean_size := h.clean_size
  based_size := h.based_size
  settled := h.settled
  overlay_ne_base := by
    rintro o' ho'
    cases ho'
    exact hne
  overlay_size := by
    rintro o' ho'
    cases ho'
    exact hover
  sorted := h.sorted
  baseline_le := h.baseline_le
  chunk c hc := by
    have hc : c < d.chunkCount := by simpa [ChunkMappedDisk.fork, ChunkMappedDisk.chunkCount]
      using hc
    have hsource : (d.fork descriptor o).source c = forkedSource d descriptor c := fork_source hc
    have hold := h.chunk c hc
    -- A chunk whose source stays has to keep its bytes.
    have hsame : (d.fork descriptor o).source c = d.source c →
        (∀ i, d.Holds c i → A'.byte i = G.now.byte i) →
        ChunkOk hash (d.fork descriptor o) files { G with now := A' } c := by
      intro hs hA
      refine ⟨?_, ?_, ?_, ?_, ?_⟩
      · have hshow := hold.shows
        unfold ChunkShows at hshow ⊢
        rw [hs]
        obtain ⟨hno, hnoc, -⟩ := hclean c hc
        cases hd : d.source c with
        | base =>
          rw [hd] at hshow
          exact fun i hi => (hshow i hi).trans (hA i hi).symm
        | overlay => exact absurd hd hno
        | overlayClean => exact absurd hd hnoc
        | zero | zeroDirty =>
          rw [hd] at hshow
          exact fun i hi => (hA i hi).trans (hshow i hi)
        | cas =>
          rw [hd] at hshow
          exact hshow.trans (congrArg (some ∘ hash) (chunkOf_congr rfl rfl hA).symm)
      · intro hreusable hreuse hlt
        rw [hs] at hreusable
        exact entryDescribes_congr hash rfl rfl rfl hA (hold.agrees hreusable hreuse hlt)
      · intro hdirty i hi
        rw [hs] at hdirty
        exact (hA i hi).trans (hold.clean hdirty i hi)
      · intro hbased i hi
        rw [hs] at hbased
        exact (hA i hi).trans (hold.based hbased i hi)
      · intro hcas
        rw [hs] at hcas
        exact hold.unread hcas
    unfold forkedSource at hsource
    split at hsource
    · next hbit =>
      refine .of_dirty (by rw [hsource]; rfl) ?_
      unfold ChunkShows
      rw [hsource]
      exact ⟨o, rfl, hoverlay c hc hbit⟩
    next hbit =>
    split at hsource
    · next hzbit =>
      split at hsource
      · refine .of_dirty (by rw [hsource]; rfl) ?_
        unfold ChunkShows
        rw [hsource]
        exact hzero c hc hzbit
      · next hknown =>
        refine hsame hsource fun i hi => ?_
        rw [hzero c hc hzbit i hi, h.knownZero (Bool.not_eq_false _ ▸ hknown) i hi]
    · next hzbit =>
      exact hsame hsource (hkept c hc (Bool.not_eq_true _ ▸ hbit) (Bool.not_eq_true _ ▸ hzbit))

/-- What a successful application has checked and changed. -/
theorem applyForkDescriptor_ok {fd old : ℕ} {t t' : DiskState Id}
    (h : applyForkDescriptor descriptor fd t = .ok old t') :
    ∃ o, t.disk.overlay = some o ∧ (t.host.files fd).size = descriptor.logicalSize ∧
      descriptor.logicalSize = t.disk.size ∧ descriptor.chunkSize = t.disk.chunkSize ∧
      descriptor.chunkCount = t.disk.chunkCount ∧
      (∀ c, c < t.disk.chunkCount → t.disk.source c ≠ .overlay ∧
        t.disk.source c ≠ .overlayClean ∧ t.disk.source c ≠ .zeroDirty) ∧
      t' = { t with disk := t.disk.fork descriptor { o with fd := fd } } := by
  obtain ⟨_, -, h⟩ := check_bind_ok.mp h
  obtain ⟨file, t₂, hfile, h⟩ := bind_ok.mp h
  obtain ⟨rfl, rfl⟩ := getFile_ok.mp hfile
  obtain ⟨hsize, h⟩ := rejectIf_bind_ok.mp h
  replace h := getDisk_bind_ok.mp h
  cases hover : t.disk.overlay with
  | none => simp [hover] at h
  | some o =>
    simp only [hover] at h
    obtain ⟨hgeometry, h⟩ := rejectIf_bind_ok.mp h
    obtain ⟨hclean, h⟩ := rejectIf_bind_ok.mp h
    obtain ⟨_, t₇, hmodify, h⟩ := bind_ok.mp h
    cases modifyDisk_ok.mp hmodify
    obtain ⟨-, rfl⟩ := pure_ok.mp h
    simp only [ne_eq, not_or, not_not] at hsize hgeometry
    refine ⟨o, rfl, hsize, hgeometry.1, hgeometry.2.1, hgeometry.2.2, fun c hc => ?_, rfl⟩
    have hmem : t.disk.source c ∈ t.disk.sources := by
      rw [ChunkMappedDisk.source, getD_eq_getElem _ _ hc]
      exact getElem_mem hc
    exact not_or.mp (fun hbad => hclean ⟨_, hmem, hbad⟩) |>.imp_right not_or.mp

end SporeVM
