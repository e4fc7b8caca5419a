import SporeVM.Virtio.Devices

/-!
# Elastic memory

The memory device of `Virtio/Devices.lean` over its lifetime: the configuration it is set up from
(`memory.zig`), the requested size that the host raises, and the state that a spore captures and
restores (`virtio/mem.zig`, `validateMemoryState` of `spore.zig`).

Sizes are numbers of bytes. Sums that the source checks are checked; those that it does not check
are bounded by the maximum size, which is one of them.
-/

namespace SporeVM.Virtio

open Lib
open Lib.Check (bind_ok seq_ok rejectIf_ok rejectIf_bind_ok rejectIf)
open Lib.EState (outcome Stays)
open Function

-- ══ Configurations

def elasticBlockSize : ℕ := 2 * 1024 * 1024

def maxElasticBlocks : ℕ := 8192

def maxElasticRegionBytes : ℕ := elasticBlockSize * maxElasticBlocks

inductive ParseError
  | zeroMemory | unalignedMemory | maximumBelowInitial | unalignedElasticMemory
  | elasticRegionTooLarge
  deriving DecidableEq

structure MemoryConfig where
  initialBytes : ℕ
  maximumBytes : ℕ
  deriving DecidableEq

namespace MemoryConfig

def isElastic (config : MemoryConfig) : Prop := config.maximumBytes > config.initialBytes

instance (config : MemoryConfig) : Decidable config.isElastic :=
  inferInstanceAs (Decidable (_ > _))

def validateBytes (pageAlignment bytes : ℕ) : Except ParseError Unit := do
  rejectIf (bytes = 0) .zeroMemory
  rejectIf (bytes % pageAlignment ≠ 0) .unalignedMemory

def validate (pageAlignment : ℕ) (config : MemoryConfig) : Except ParseError Unit := do
  validateBytes pageAlignment config.initialBytes
  validateBytes pageAlignment config.maximumBytes
  rejectIf (config.maximumBytes < config.initialBytes) .maximumBelowInitial
  rejectIf (config.isElastic ∧ (config.initialBytes % elasticBlockSize ≠ 0 ∨
    config.maximumBytes % elasticBlockSize ≠ 0)) .unalignedElasticMemory
  rejectIf (config.isElastic ∧
    config.maximumBytes - config.initialBytes > maxElasticRegionBytes) .elasticRegionTooLarge

end MemoryConfig

structure PluggedRange where
  startBlock : ℕ
  blockCount : ℕ
  deriving DecidableEq

structure CapturedState where
  initialSize : ℕ
  maximumSize : ℕ
  requestedSize : ℕ
  capturedSize : ℕ
  blockSize : ℕ := elasticBlockSize
  pluggedRanges : List PluggedRange
  deriving DecidableEq

def CapturedState.config (state : CapturedState) : MemoryConfig where
  initialBytes := state.initialSize
  maximumBytes := state.maximumSize

-- ══ The manifest's check

def checkPluggedRanges (regionBlocks requestedBlocks : ℕ) :
    List PluggedRange → ℕ → ℕ → Except StorageError ℕ
  | [], _, pluggedBlocks => .ok pluggedBlocks
  | range :: ranges, nextBlock, pluggedBlocks =>
    if range.blockCount = 0 ∨ range.startBlock < nextBlock then .error .badManifest
    else if range.startBlock + range.blockCount > maxU64 then .error .badManifest
    else if range.startBlock + range.blockCount > regionBlocks ∨
        range.startBlock + range.blockCount > requestedBlocks then .error .badManifest
    else if pluggedBlocks + range.blockCount > maxU64 then .error .badManifest
    else
      checkPluggedRanges regionBlocks requestedBlocks ranges (range.startBlock + range.blockCount)
        (pluggedBlocks + range.blockCount)

def validateMemoryState (pageAlignment : ℕ) (state : CapturedState) (ramSize : ℕ) :
    Except StorageError ℕ := do
  rejectIf (state.initialSize ≠ ramSize ∨ state.maximumSize ≤ state.initialSize)
    .badManifest
  (state.config.validate pageAlignment).mapError fun _ => .badManifest
  rejectIf (state.blockSize ≠ elasticBlockSize) .badManifest
  rejectIf (state.requestedSize < state.initialSize ∨
    state.requestedSize > state.maximumSize) .badManifest
  rejectIf (state.capturedSize < state.initialSize ∨
    state.capturedSize > state.requestedSize) .badManifest
  rejectIf ((state.requestedSize - state.initialSize) % state.blockSize ≠ 0) .badManifest
  rejectIf ((state.capturedSize - state.initialSize) % state.blockSize ≠ 0) .badManifest
  let pluggedBlocks ← checkPluggedRanges
    ((state.maximumSize - state.initialSize) / state.blockSize)
    ((state.requestedSize - state.initialSize) / state.blockSize) state.pluggedRanges 0 0
  rejectIf (pluggedBlocks * state.blockSize > maxU64) .badManifest
  rejectIf (state.capturedSize ≠ state.initialSize + pluggedBlocks * state.blockSize)
    .badManifest
  pure state.maximumSize

-- ══ The device

namespace Mem

structure Config where
  addr : ℕ
  regionSize : ℕ
  requestedSize : ℕ
  blockSize : ℕ := elasticBlockSize
  plugFn : Bool := false
  plugContext : Bool := false

def Config.Valid (config : Config) : Prop :=
  config.blockSize ≠ 0 ∧ config.regionSize % config.blockSize = 0 ∧
    config.requestedSize ≤ config.regionSize ∧ config.requestedSize % config.blockSize = 0 ∧
    config.regionSize / config.blockSize ≤ maxBlocks

instance (config : Config) : Decidable config.Valid := inferInstanceAs (Decidable (_ ∧ _))

def init (config : Config) : Option Mem :=
  if config.Valid then
    some
      { blockSize := config.blockSize
        addr := config.addr
        regionSize := config.regionSize
        requestedSize := config.requestedSize
        plugFn := config.plugFn
        plugContext := config.plugContext }
  else none

def Config.ofMemory (memory : MemoryConfig) (addr : ℕ) : Config where
  addr
  regionSize := memory.maximumBytes - memory.initialBytes
  requestedSize := 0
  plugFn := true
  plugContext := true

inductive MemError
  | invalidVirtioMemRequest | invalidVirtioMemState
  deriving DecidableEq

def setRequestedSize (mem : Mem) (bytes : ℕ) : Except MemError Mem :=
  if bytes < mem.requestedSize ∨ bytes > mem.regionSize ∨ bytes % mem.blockSize ≠ 0 then
    .error .invalidVirtioMemRequest
  else .ok { mem with requestedSize := bytes }

/-- The inner loop of the capture: the end of a run of plugged blocks, of at most `left` blocks. -/
def runEnd (plugged : ℕ → Bool) : ℕ → ℕ → ℕ
  | 0, index => index
  | left + 1, index => if plugged index = true then runEnd plugged left (index + 1) else index

lemma le_runEnd (plugged : ℕ → Bool) : ∀ left index, index ≤ runEnd plugged left index
  | 0, _ => Nat.le_refl _
  | left + 1, index => by
    rw [runEnd]
    split
    · exact Nat.le_of_succ_le (le_runEnd plugged left (index + 1))
    · exact Nat.le_refl _

lemma lt_runEnd {plugged : ℕ → Bool} {left index : ℕ} (hleft : 0 < left)
    (hset : plugged index = true) : index < runEnd plugged left index := by
  obtain ⟨left, rfl⟩ := Nat.exists_eq_add_of_lt hleft
  rw [Nat.zero_add, runEnd, if_pos hset]
  exact le_runEnd plugged left (index + 1)

def pluggedRanges (plugged : ℕ → Bool) (blockCount index : ℕ) : List PluggedRange :=
  if hlt : index < blockCount then
    if hset : plugged index = true then
      let stop := runEnd plugged (blockCount - index) index
      ⟨index, stop - index⟩ :: pluggedRanges plugged blockCount stop
    else pluggedRanges plugged blockCount (index + 1)
  else []
termination_by blockCount - index
decreasing_by
  · have := lt_runEnd (Nat.sub_pos_of_lt hlt) hset
    omega
  · omega

def captureState (mem : Mem) (initialSize : ℕ) : CapturedState where
  initialSize
  maximumSize := initialSize + mem.regionSize
  requestedSize := initialSize + mem.requestedSize
  capturedSize := initialSize + mem.pluggedSize
  blockSize := mem.blockSize
  pluggedRanges := Mem.pluggedRanges mem.plugged (mem.regionSize / mem.blockSize) 0

def setBlocks : (ℕ → Bool) → ℕ → ℕ → Option (ℕ → Bool)
  | plugged, _, 0 => some plugged
  | plugged, index, left + 1 =>
    if plugged index = true then none
    else setBlocks (update plugged index true) (index + 1) left

def restoreRanges (mem : Mem) (requestedRegionSize : ℕ) :
    List PluggedRange → (ℕ → Bool) → ℕ → Except MemError ((ℕ → Bool) × ℕ)
  | [], plugged, pluggedSize => .ok (plugged, pluggedSize)
  | range :: ranges, plugged, pluggedSize =>
    if range.blockCount = 0 then .error .invalidVirtioMemState
    else if range.startBlock + range.blockCount > mem.regionSize / mem.blockSize ∨
        range.startBlock + range.blockCount > requestedRegionSize / mem.blockSize then
      .error .invalidVirtioMemState
    else
      match setBlocks plugged range.startBlock range.blockCount with
      | none => .error .invalidVirtioMemState
      | some plugged =>
        restoreRanges mem requestedRegionSize ranges plugged
          (pluggedSize + range.blockCount * mem.blockSize)

def decodeState (mem : Mem) (captured : CapturedState) : Except MemError ((ℕ → Bool) × ℕ) := do
  rejectIf (captured.blockSize ≠ mem.blockSize ∨
    captured.maximumSize < captured.initialSize ∨
    captured.maximumSize - captured.initialSize ≠ mem.regionSize ∨
    captured.requestedSize < captured.initialSize ∨
    captured.requestedSize > captured.maximumSize) .invalidVirtioMemState
  rejectIf ((captured.requestedSize - captured.initialSize) % mem.blockSize ≠ 0)
    .invalidVirtioMemState
  let (plugged, pluggedSize) ← restoreRanges mem (captured.requestedSize - captured.initialSize)
    captured.pluggedRanges (fun _ => false) 0
  rejectIf (captured.capturedSize ≠ captured.initialSize + pluggedSize)
    .invalidVirtioMemState
  pure (plugged, pluggedSize)

def askForRestore (mem : Mem) (requestedRegionSize : ℕ) : Bool × Mem :=
  if requestedRegionSize > 0 then mem.askBackend else (true, mem)

def restoreState (mem : Mem) (captured : CapturedState) : Except MemError Unit × Mem :=
  match mem.decodeState captured with
  | .error e => (.error e, mem)
  | .ok (plugged, pluggedSize) =>
    match mem.askForRestore (captured.requestedSize - captured.initialSize) with
    | (false, mem) => (.error .invalidVirtioMemState, mem)
    | (true, mem) =>
      (.ok (),
        { mem with
          requestedSize := captured.requestedSize - captured.initialSize
          plugged
          pluggedSize })

/-- The steps of a device: the guest notifies it, with any queues and any memory; the host raises
the requested size; a captured state is restored. Any of them may fail. -/
inductive Step : Mem → Mem → Prop
  | notify (mem : Mem) (queues : ℕ → Queue.VirtQueue) (ram : GuestRam) (qi : ℕ) :
      Step mem (outcome (Mem.notify qi) ⟨mem, queues, ram⟩).2.device
  | setRequestedSize {mem mem' : Mem} {bytes : ℕ} (h : mem.setRequestedSize bytes = .ok mem') :
      Step mem mem'
  | restoreState (mem : Mem) (captured : CapturedState) : Step mem (mem.restoreState captured).2
  | replies (mem : Mem) (plugReplies : List Bool) : Step mem { mem with plugReplies }

-- ══ The invariant

structure Sound (memory : MemoryConfig) (mem : Mem) : Prop where
  blockSize : mem.blockSize = elasticBlockSize
  regionSize : mem.regionSize = memory.maximumBytes - memory.initialBytes
  region_le : mem.regionSize / mem.blockSize ≤ maxBlocks
  requested_le : mem.requestedSize ≤ mem.regionSize
  requested_aligned : mem.requestedSize % mem.blockSize = 0
  pluggedSize : mem.pluggedSize = flagCount mem.plugged maxBlocks * mem.blockSize
  plugged_below : ∀ i, mem.plugged i = true → (i + 1) * mem.blockSize ≤ mem.requestedSize

section Invariant

variable {memory : MemoryConfig} {mem mem' : Mem}

namespace Sound

variable (h : Sound memory mem)

include h

lemma blockSize_pos : 0 < mem.blockSize := by
  rw [h.blockSize, elasticBlockSize]
  decide

lemma plugged_lt {i : ℕ} (hi : mem.plugged i = true) :
    i < mem.requestedSize / mem.blockSize :=
  (Nat.le_div_iff_mul_le h.blockSize_pos).mpr (h.plugged_below i hi)

lemma requested_blocks_le :
    mem.requestedSize / mem.blockSize ≤ mem.regionSize / mem.blockSize :=
  Nat.div_le_div_right h.requested_le

lemma plugged_le : mem.pluggedSize ≤ mem.requestedSize := by
  rw [h.pluggedSize, ← Nat.le_div_iff_mul_le h.blockSize_pos]
  exact flagCount_le fun i hi => h.plugged_lt hi

lemma withReplies (plugReplies : List Bool) :
    Sound memory { mem with plugReplies } :=
  ⟨h.blockSize, h.regionSize, h.region_le, h.requested_le, h.requested_aligned, h.pluggedSize,
    h.plugged_below⟩

end Sound

lemma askBackend_device (mem : Mem) :
    ∃ plugReplies, mem.askBackend.2 = { mem with plugReplies } := by
  unfold askBackend
  split
  · exact ⟨mem.plugReplies, rfl⟩
  · split
    · exact ⟨mem.plugReplies, rfl⟩
    · exact ⟨_, rfl⟩

lemma blockRange_some {addr nbBlocks first last : ℕ}
    (h : mem.blockRange addr nbBlocks = some (first, last)) (hpos : 0 < mem.blockSize) :
    last = first + nbBlocks ∧ last ≤ maxBlocks ∧
      addr - mem.addr + nbBlocks * mem.blockSize = last * mem.blockSize := by
  unfold blockRange at h
  split at h
  · cases h
  split at h
  · cases h
  next hmod =>
  split at h
  · cases h
  split at h
  · cases h
  split at h
  · cases h
  split at h
  · cases h
  next hmax =>
  cases h
  have haligned := Nat.div_mul_cancel (Nat.dvd_of_mod_eq_zero (not_not.mp hmod))
  rw [Nat.add_mul_div_right _ _ hpos] at hmax ⊢
  refine ⟨rfl, not_lt.mp hmax, ?_⟩
  rw [Nat.add_mul, haligned]

variable (h : Sound memory mem)

include h

lemma Sound.fill {first last : ℕ} (hle : first ≤ last)
    (hmax : last ≤ maxBlocks) (hfree : ∀ i, first ≤ i → i < last → mem.plugged i = false)
    (hrequested : last * mem.blockSize ≤ mem.requestedSize) :
    Sound memory { mem with
      plugged := fun i => (first ≤ i && i < last) || mem.plugged i
      pluggedSize := mem.pluggedSize + (last - first) * mem.blockSize } := by
  refine ⟨h.blockSize, h.regionSize, h.region_le, h.requested_le, h.requested_aligned, ?_, ?_⟩
  · rw [flagCount_fill hle hmax hfree, Nat.add_mul, h.pluggedSize]
  · intro i hi
    simp only [Bool.or_eq_true, Bool.and_eq_true, decide_eq_true_eq] at hi
    rcases hi with ⟨-, hlast⟩ | hi
    · exact Nat.le_trans (Nat.mul_le_mul_right _ hlast) hrequested
    · exact h.plugged_below i hi

lemma Sound.plug (addr nbBlocks : ℕ) : Sound memory (mem.plug addr nbBlocks).2 := by
  unfold Mem.plug
  cases hrange : mem.blockRange addr nbBlocks with
  | none => exact h
  | some range =>
    obtain ⟨first, last⟩ := range
    obtain ⟨hlast, hmax, hend⟩ := blockRange_some hrange h.blockSize_pos
    dsimp only
    split
    · exact h
    next hfits =>
    split
    · exact h
    next hnone =>
    obtain ⟨replies, hask⟩ := askBackend_device mem
    cases hreply : mem.askBackend with
    | mk accepted mem₁ =>
      rw [hreply] at hask
      dsimp only at hask
      subst hask
      cases accepted with
      | false => exact h.withReplies replies
      | true =>
        rw [hend] at hfits
        have hfree : ∀ i, first ≤ i → i < last → mem.plugged i = false := by
          intro i hlo hhi
          rw [List.any_eq_true, not_exists] at hnone
          have hi := hnone i
          rw [List.mem_range'_1] at hi
          cases hset : mem.plugged i with
          | false => rfl
          | true => exact absurd ⟨⟨hlo, by omega⟩, hset⟩ hi
        have hfill := (h.withReplies replies).fill (show first ≤ last by omega) hmax hfree
          (by dsimp only; omega)
        have hcount : last - first = nbBlocks := by omega
        rw [hcount] at hfill
        exact hfill

lemma Sound.answer (kind addr nbBlocks : ℕ) : Sound memory (mem.answer kind addr nbBlocks).2.2 := by
  unfold Mem.answer
  split
  · exact h.plug addr nbBlocks
  · split
    · cases mem.blockRange addr nbBlocks <;> exact h
    · split <;> exact h

lemma Sound.handleRequest (chain : Queue.Chain) (ram : GuestRam) :
    Sound memory (Mem.handleRequest chain mem ram).2.1 := by
  unfold Mem.handleRequest
  cases chain.segments.find? Queue.Segment.writable with
  | none => exact h
  | some response =>
    dsimp only
    split
    · exact h
    · cases (chain.view ram).copyReadableRange 0 24 with
      | none => exact h
      | some request => exact h.answer _ _ _

lemma Sound.notify (queues : ℕ → Queue.VirtQueue) (ram : GuestRam)
    (qi : ℕ) : Sound memory (outcome (Mem.notify qi) ⟨mem, queues, ram⟩).2.device := by
  have hkeeps : Stays (fun m : Queue.Machine Mem => Sound memory m.device) (Mem.notify qi) := by
    unfold Mem.notify
    split
    · exact Stays.pure
    · exact Queue.serve_device 0 (fun chain _ ram hdevice => hdevice.handleRequest chain ram) _ _
  exact hkeeps.outcome h

lemma Sound.setRequestedSize {bytes : ℕ}
    (hset : mem.setRequestedSize bytes = .ok mem') : Sound memory mem' := by
  unfold Mem.setRequestedSize at hset
  split at hset
  · cases hset
  next hvalid =>
  cases hset
  rw [not_or, not_or, not_lt, not_lt, not_not] at hvalid
  obtain ⟨hgrow, hregion, haligned⟩ := hvalid
  exact ⟨h.blockSize, h.regionSize, h.region_le, hregion, haligned, h.pluggedSize,
    fun i hi => Nat.le_trans (h.plugged_below i hi) hgrow⟩

omit h

-- ══ Restoring

lemma setBlocks_some : ∀ {left index : ℕ} {plugged plugged' : ℕ → Bool},
    setBlocks plugged index left = some plugged' ↔
      (∀ i, index ≤ i → i < index + left → plugged i = false) ∧
        plugged' = fun i => (index ≤ i && i < index + left) || plugged i
  | 0, index, plugged, plugged' => by
    have hempty : (fun i => (index ≤ i && i < index + 0) || plugged i) = plugged := by
      funext i
      have hout : ¬ (index ≤ i ∧ i < index + 0) := by omega
      rw [← Bool.decide_and, decide_eq_false hout, Bool.false_or]
    rw [setBlocks, Option.some_inj, hempty]
    exact ⟨fun h => ⟨fun i hlo hhi => by omega, h.symm⟩, fun h => h.2.symm⟩
  | left + 1, index, plugged, plugged' => by
    rw [setBlocks]
    by_cases hset : plugged index = true
    · rw [if_pos hset]
      refine ⟨nofun, fun h => ?_⟩
      rw [h.1 index (Nat.le_refl _) (by omega)] at hset
      cases hset
    · rw [if_neg hset, setBlocks_some]
      rw [Bool.not_eq_true] at hset
      have hfree : (∀ i, index + 1 ≤ i → i < index + 1 + left →
          update plugged index true i = false) ↔
          ∀ i, index ≤ i → i < index + (left + 1) → plugged i = false := by
        constructor
        · intro h i hlo hhi
          by_cases hi : i = index
          · rw [hi, hset]
          · have := h i (by omega) (by omega)
            rwa [update_of_ne hi] at this
        · intro h i hlo hhi
          rw [update_of_ne (by omega)]
          exact h i (by omega) (by omega)
      have hsame : (fun i => (index + 1 ≤ i && i < index + 1 + left) ||
          update plugged index true i) =
          fun i => (index ≤ i && i < index + (left + 1)) || plugged i := by
        funext i
        by_cases hi : i = index
        · rw [hi, update_self, Bool.or_true, decide_eq_true (Nat.le_refl index),
            decide_eq_true (show index < index + (left + 1) by omega)]
          rfl
        · rw [update_of_ne hi, ← Bool.decide_and, ← Bool.decide_and]
          congr 2
          rw [eq_iff_iff]
          omega
      rw [hfree, hsame]

structure Restoring (mem : Mem) (requestedRegionSize : ℕ) (plugged : ℕ → Bool)
    (size : ℕ) : Prop where
  size : size = flagCount plugged maxBlocks * mem.blockSize
  below : ∀ i, plugged i = true → i < requestedRegionSize / mem.blockSize

lemma restoreRanges_ok (hregion : mem.regionSize / mem.blockSize ≤ maxBlocks)
    {requestedRegionSize : ℕ} : ∀ {ranges : List PluggedRange} {plugged plugged' : ℕ → Bool}
      {size size' : ℕ}, Restoring mem requestedRegionSize plugged size →
      mem.restoreRanges requestedRegionSize ranges plugged size = .ok (plugged', size') →
      Restoring mem requestedRegionSize plugged' size'
  | [], _, _, _, _, h, hrun => by
    cases hrun
    exact h
  | range :: ranges, plugged, plugged', size, size', h, hrun => by
    unfold restoreRanges at hrun
    split at hrun
    · cases hrun
    split at hrun
    · cases hrun
    next hbounds =>
    rw [not_or, not_lt, not_lt] at hbounds
    cases hset : setBlocks plugged range.startBlock range.blockCount with
    | none =>
      rw [hset] at hrun
      cases hrun
    | some plugged₁ =>
      rw [hset] at hrun
      obtain ⟨hfree, rfl⟩ := setBlocks_some.mp hset
      refine restoreRanges_ok hregion ⟨?_, fun i hi => ?_⟩ hrun
      · rw [flagCount_fill (Nat.le_add_right _ _) (by omega) hfree, Nat.add_sub_cancel_left,
          Nat.add_mul, h.size]
      · simp only [Bool.or_eq_true, Bool.and_eq_true, decide_eq_true_eq] at hi
        rcases hi with ⟨-, hhi⟩ | hi
        · omega
        · exact h.below i hi

lemma decodeState_ok {captured : CapturedState} {plugged : ℕ → Bool} {size : ℕ}
    (h : mem.decodeState captured = .ok (plugged, size)) :
    captured.requestedSize - captured.initialSize ≤ mem.regionSize ∧
      (captured.requestedSize - captured.initialSize) % mem.blockSize = 0 ∧
      mem.restoreRanges (captured.requestedSize - captured.initialSize) captured.pluggedRanges
        (fun _ => false) 0 = .ok (plugged, size) := by
  obtain ⟨hfits, h⟩ := rejectIf_bind_ok.mp h
  obtain ⟨haligned, h⟩ := rejectIf_bind_ok.mp h
  obtain ⟨⟨plugged', size'⟩, hranges, h⟩ := bind_ok.mp h
  obtain ⟨-, h⟩ := seq_ok.mp h
  cases h
  refine ⟨by omega, not_not.mp haligned, hranges⟩

lemma askForRestore_device (mem : Mem) (size : ℕ) :
    ∃ plugReplies, (mem.askForRestore size).2 = { mem with plugReplies } := by
  unfold askForRestore
  split
  · exact askBackend_device mem
  · exact ⟨mem.plugReplies, rfl⟩

lemma restoreState_cases (mem : Mem) (captured : CapturedState) :
    ∃ plugReplies,
      (∃ e, mem.restoreState captured = (.error e, { mem with plugReplies })) ∨
        ∃ plugged pluggedSize, mem.decodeState captured = .ok (plugged, pluggedSize) ∧
          mem.restoreState captured = (.ok (), { mem with
            requestedSize := captured.requestedSize - captured.initialSize
            plugged, pluggedSize, plugReplies }) := by
  unfold restoreState
  cases mem.decodeState captured with
  | error e => exact ⟨mem.plugReplies, .inl ⟨e, rfl⟩⟩
  | ok result =>
    obtain ⟨plugged, size⟩ := result
    obtain ⟨replies, hask⟩ := askForRestore_device mem
      (captured.requestedSize - captured.initialSize)
    refine ⟨replies, ?_⟩
    cases hreply : mem.askForRestore (captured.requestedSize - captured.initialSize) with
    | mk accepted mem₁ =>
      rw [hreply] at hask
      subst hask
      cases accepted with
      | false => exact .inl ⟨_, rfl⟩
      | true => exact .inr ⟨plugged, size, rfl, rfl⟩

lemma Sound.restoreState (h : Sound memory mem) (captured : CapturedState) :
    Sound memory (mem.restoreState captured).2 := by
  obtain ⟨replies, ⟨e, hrun⟩ | ⟨plugged, size, hdecode, hrun⟩⟩ := restoreState_cases mem captured
  · rw [hrun]
    exact h.withReplies replies
  · rw [hrun]
    obtain ⟨hregion, haligned, hranges⟩ := decodeState_ok hdecode
    have hstart : Restoring mem (captured.requestedSize - captured.initialSize)
      (fun _ => false) 0 :=
      ⟨by rw [flagCount_false, Nat.zero_mul], nofun⟩
    obtain ⟨hsize, hbelow⟩ := restoreRanges_ok h.region_le hstart hranges
    refine ⟨h.blockSize, h.regionSize, h.region_le, hregion, haligned, hsize, fun i hi => ?_⟩
    exact (Nat.le_div_iff_mul_le h.blockSize_pos).mp (hbelow i hi)

lemma Sound.step (h : Sound memory mem) (hstep : Step mem mem') : Sound memory mem' := by
  cases hstep with
  | notify queues ram qi => exact h.notify queues ram qi
  | setRequestedSize hset => exact h.setRequestedSize hset
  | restoreState captured => exact h.restoreState captured
  | replies plugReplies => exact h.withReplies plugReplies

lemma Sound.run (h : Sound memory mem) (hrun : Relation.ReflTransGen Step mem mem') :
    Sound memory mem' := by
  induction hrun with
  | refl => exact h
  | tail _ hstep ih => exact ih.step hstep

lemma Sound.init {config : Config}
    (hregion : config.regionSize = memory.maximumBytes - memory.initialBytes)
    (hblock : config.blockSize = elasticBlockSize) (hinit : Mem.init config = some mem) :
    Sound memory mem := by
  unfold Mem.init at hinit
  split at hinit
  · next hvalid =>
    cases hinit
    obtain ⟨-, -, hle, haligned, hmax⟩ := hvalid
    exact ⟨hblock, hregion, hmax, hle, haligned, by rw [flagCount_false, Nat.zero_mul], nofun⟩
  · cases hinit

-- ══ Captured states

/-- Ranges that are not empty, ascend from `next` on without overlap, and end at `bound` at the
latest. -/
def Ascending (bound : ℕ) : ℕ → List PluggedRange → Prop
  | _, [] => True
  | next, range :: ranges =>
    range.blockCount ≠ 0 ∧ next ≤ range.startBlock ∧ range.startBlock + range.blockCount ≤ bound ∧
      Ascending bound (range.startBlock + range.blockCount) ranges

def marked (ranges : List PluggedRange) (i : ℕ) : Bool :=
  ranges.any fun range => range.startBlock ≤ i && i < range.startBlock + range.blockCount

lemma marked_cons {range : PluggedRange} {ranges : List PluggedRange} {i : ℕ} :
    marked (range :: ranges) i = true ↔
      (range.startBlock ≤ i ∧ i < range.startBlock + range.blockCount) ∨
      marked ranges i = true := by
  rw [marked, List.any_cons, Bool.or_eq_true, Bool.and_eq_true, decide_eq_true_eq,
    decide_eq_true_eq]
  rfl

def blockSum (ranges : List PluggedRange) : ℕ := (ranges.map PluggedRange.blockCount).sum

lemma Ascending.mono {bound : ℕ} : ∀ {ranges : List PluggedRange} {next next' : ℕ},
    Ascending bound next ranges → next' ≤ next → Ascending bound next' ranges
  | [], _, _, _, _ => trivial
  | _ :: _, _, _, ⟨hne, hnext, hend, hrest⟩, hle => ⟨hne, Nat.le_trans hle hnext, hend, hrest⟩

lemma Ascending.marked_ge {bound : ℕ} : ∀ {ranges : List PluggedRange} {next i : ℕ},
    Ascending bound next ranges → marked ranges i = true → next ≤ i ∧ i < bound
  | range :: ranges, next, i, ⟨_, hnext, hend, hrest⟩, hi => by
    rcases marked_cons.mp hi with ⟨hlo, hhi⟩ | hi
    · omega
    · have := hrest.marked_ge hi
      omega

lemma Ascending.flagCount_marked {bound n : ℕ} (hn : bound ≤ n) :
    ∀ {ranges : List PluggedRange} {next : ℕ}, Ascending bound next ranges →
      flagCount (marked ranges) n = blockSum ranges
  | [], _, _ => flagCount_false n
  | range :: ranges, next, ⟨_, _, hend, hrest⟩ => by
    have hfree : ∀ i, range.startBlock ≤ i → i < range.startBlock + range.blockCount →
        marked ranges i = false := by
      intro i _ hhi
      by_contra hset
      have := (hrest.marked_ge (Bool.not_eq_false _ ▸ hset)).1
      omega
    have hcons := flagCount_fill (Nat.le_add_right _ _) (Nat.le_trans hend hn) hfree
    rw [Nat.add_sub_cancel_left, hrest.flagCount_marked hn] at hcons
    rw [blockSum, List.map_cons, List.sum_cons, Nat.add_comm]
    exact hcons

lemma runEnd_spec (plugged : ℕ → Bool) : ∀ left index,
    runEnd plugged left index ≤ index + left ∧
      (∀ i, index ≤ i → i < runEnd plugged left index → plugged i = true)
  | 0, index => ⟨Nat.le_refl _, fun i hlo hhi => by
      rw [runEnd] at hhi
      omega⟩
  | left + 1, index => by
    rw [runEnd]
    by_cases hset : plugged index = true
    · rw [if_pos hset]
      obtain ⟨hle, hall⟩ := runEnd_spec plugged left (index + 1)
      refine ⟨by omega, fun i hlo hhi => ?_⟩
      by_cases hi : i = index
      · rwa [hi]
      · exact hall i (by omega) hhi
    · rw [if_neg hset]
      exact ⟨by omega, fun i hlo hhi => by omega⟩

/-- **The captured ranges** ascend, and their blocks are those that are plugged. -/
theorem pluggedRanges_spec (plugged : ℕ → Bool) (blockCount index : ℕ) :
    Ascending blockCount index (pluggedRanges plugged blockCount index) ∧
      ∀ i, marked (pluggedRanges plugged blockCount index) i = true ↔
        index ≤ i ∧ i < blockCount ∧ plugged i = true := by
  fun_induction pluggedRanges plugged blockCount index with
  | case1 index hlt hset stop ih =>
    obtain ⟨hle, hall⟩ := runEnd_spec plugged (blockCount - index) index
    have hstop : index < stop := lt_runEnd (Nat.sub_pos_of_lt hlt) hset
    have hend : index + (stop - index) = stop := by omega
    obtain ⟨hrest, hmarked⟩ := ih
    refine ⟨⟨by dsimp only; omega, Nat.le_refl _, ?_, ?_⟩, fun i => ?_⟩
    · rw [hend]
      omega
    · rw [hend]
      exact hrest
    · rw [marked_cons, hmarked, hend]
      constructor
      · rintro (⟨hlo, hhi⟩ | ⟨hlo, hhi, hi⟩)
        · exact ⟨hlo, by omega, hall i hlo hhi⟩
        · exact ⟨by omega, hhi, hi⟩
      · rintro ⟨hlo, hhi, hi⟩
        rcases Nat.lt_or_ge i stop with hbefore | hafter
        · exact .inl ⟨hlo, hbefore⟩
        · exact .inr ⟨hafter, hhi, hi⟩
  | case2 index hlt hset ih =>
    obtain ⟨hrest, hmarked⟩ := ih
    refine ⟨hrest.mono (Nat.le_succ _), fun i => ?_⟩
    rw [hmarked]
    constructor
    · rintro ⟨hlo, hhi, hi⟩
      exact ⟨by omega, hhi, hi⟩
    · rintro ⟨hlo, hhi, hi⟩
      have hne : i ≠ index := fun heq => hset (heq ▸ hi)
      exact ⟨by omega, hhi, hi⟩
  | case3 index hlt =>
    refine ⟨trivial, fun i => ⟨nofun, fun hi => ?_⟩⟩
    omega

lemma Ascending.tighten {bound bound' : ℕ} : ∀ {ranges : List PluggedRange} {next : ℕ},
    Ascending bound next ranges → (∀ i, marked ranges i = true → i < bound') →
      Ascending bound' next ranges
  | [], _, _, _ => trivial
  | range :: ranges, next, ⟨hne, hnext, _, hrest⟩, hbelow => by
    refine ⟨hne, hnext, ?_, hrest.tighten fun i hi => hbelow i (marked_cons.mpr (.inr hi))⟩
    have hlast := hbelow (range.startBlock + range.blockCount - 1)
      (marked_cons.mpr (.inl ⟨by omega, by omega⟩))
    omega

lemma Ascending.checkPluggedRanges {bound regionBlocks requestedBlocks : ℕ}
    (hregion : bound ≤ regionBlocks) (hrequested : bound ≤ requestedBlocks)
    (hmax : bound ≤ maxU64) : ∀ {ranges : List PluggedRange} {next count : ℕ},
      Ascending bound next ranges → count ≤ next →
      Virtio.checkPluggedRanges regionBlocks requestedBlocks ranges next count =
        .ok (count + blockSum ranges)
  | [], _, _, _, _ => rfl
  | range :: ranges, next, count, ⟨hne, hnext, hend, hrest⟩, hcount => by
    have hstart : ¬ (range.blockCount = 0 ∨ range.startBlock < next) := by omega
    have hsum : ¬ range.startBlock + range.blockCount > maxU64 := by omega
    have hbounds : ¬ (range.startBlock + range.blockCount > regionBlocks ∨
        range.startBlock + range.blockCount > requestedBlocks) := by omega
    have hplugged : ¬ count + range.blockCount > maxU64 := by omega
    rw [Virtio.checkPluggedRanges, if_neg hstart, if_neg hsum, if_neg hbounds, if_neg hplugged,
      hrest.checkPluggedRanges hregion hrequested hmax (by omega), blockSum, blockSum,
      List.map_cons, List.sum_cons, Nat.add_assoc]

lemma Ascending.restoreRanges {bound requestedRegionSize : ℕ}
    (hregion : bound ≤ mem.regionSize / mem.blockSize)
    (hrequested : bound ≤ requestedRegionSize / mem.blockSize) :
    ∀ {ranges : List PluggedRange} {next size : ℕ} {plugged : ℕ → Bool},
      Ascending bound next ranges → (∀ i, plugged i = true → i < next) →
      mem.restoreRanges requestedRegionSize ranges plugged size =
        .ok (fun i => marked ranges i || plugged i, size + blockSum ranges * mem.blockSize)
  | [], _, size, plugged, _, _ => by
    rw [Mem.restoreRanges, blockSum, List.map_nil, List.sum_nil, Nat.zero_mul, Nat.add_zero]
    rfl
  | range :: ranges, next, size, plugged, ⟨hne, hnext, hend, hrest⟩, hplugged => by
    have hbounds : ¬ (range.startBlock + range.blockCount > mem.regionSize / mem.blockSize ∨
        range.startBlock + range.blockCount > requestedRegionSize / mem.blockSize) := by omega
    have hfree : ∀ i, range.startBlock ≤ i → i < range.startBlock + range.blockCount →
        plugged i = false := by
      intro i hlo hhi
      by_contra hset
      have := hplugged i (Bool.not_eq_false _ ▸ hset)
      omega
    have hnow : ∀ i, ((range.startBlock ≤ i && i < range.startBlock + range.blockCount) ||
        plugged i) = true → i < range.startBlock + range.blockCount := by
      intro i hi
      simp only [Bool.or_eq_true, Bool.and_eq_true, decide_eq_true_eq] at hi
      rcases hi with ⟨-, hhi⟩ | hi
      · exact hhi
      · have := hplugged i hi
        omega
    rw [Mem.restoreRanges, if_neg hne, if_neg hbounds, setBlocks_some.mpr ⟨hfree, rfl⟩]
    refine (hrest.restoreRanges hregion hrequested hnow).trans ?_
    rw [blockSum, blockSum, List.map_cons, List.sum_cons, Nat.add_mul, Nat.add_assoc]
    congr 2
    funext i
    rw [← Bool.or_assoc, Bool.or_comm (marked ranges i)]
    rfl

section Capture

variable (h : Sound memory mem)

include h

lemma Sound.ranges {ranges : List PluggedRange}
    (hranges : ranges = Mem.pluggedRanges mem.plugged (mem.regionSize / mem.blockSize) 0) :
    Ascending (mem.requestedSize / mem.blockSize) 0 ranges ∧ marked ranges = mem.plugged ∧
      mem.pluggedSize = blockSum ranges * mem.blockSize := by
  obtain ⟨hascending, hmarked⟩ := pluggedRanges_spec mem.plugged (mem.regionSize / mem.blockSize) 0
  rw [← hranges] at hascending hmarked
  have hbound := h.requested_blocks_le
  have hsame : marked ranges = mem.plugged := by
    funext i
    rw [Bool.eq_iff_iff, hmarked]
    exact ⟨fun hi => hi.2.2, fun hi => ⟨Nat.zero_le _, by have := h.plugged_lt hi; omega, hi⟩⟩
  have htight : Ascending (mem.requestedSize / mem.blockSize) 0 ranges :=
    hascending.tighten fun i hi => h.plugged_lt (hsame ▸ hi)
  refine ⟨htight, hsame, ?_⟩
  rw [h.pluggedSize, ← hsame, htight.flagCount_marked (Nat.le_trans hbound h.region_le)]

/-- **A captured state is accepted** for the memory it was captured from. -/
theorem Sound.validateMemoryState {pageAlignment : ℕ}
    (hvalid : memory.validate pageAlignment = .ok ()) (helastic : memory.isElastic) :
    Virtio.validateMemoryState pageAlignment (mem.captureState memory.initialBytes)
      memory.initialBytes = .ok memory.maximumBytes := by
  have hgrow : memory.initialBytes < memory.maximumBytes := helastic
  have hmaximum : memory.initialBytes + mem.regionSize = memory.maximumBytes := by
    rw [h.regionSize]
    omega
  obtain ⟨hascending, -, hsize⟩ := h.ranges rfl
  have hrequested := h.requested_le
  have hplugged := h.plugged_le
  have hblocks := Nat.le_trans h.requested_blocks_le h.region_le
  have hmax : maxBlocks ≤ maxU64 := by decide
  have hcheck := hascending.checkPluggedRanges h.requested_blocks_le (Nat.le_refl _)
    (Nat.le_trans hblocks hmax) (Nat.le_refl 0)
  rw [Nat.zero_add] at hcheck
  have hbytes : mem.pluggedSize ≤ maxU64 := by
    have hcount : flagCount mem.plugged maxBlocks ≤ maxBlocks :=
      flagCount_le fun i hi => Nat.lt_of_lt_of_le (h.plugged_lt hi) hblocks
    have hsmall : maxBlocks * elasticBlockSize ≤ maxU64 := by decide
    rw [h.pluggedSize, h.blockSize]
    exact Nat.le_trans (Nat.mul_le_mul_right _ hcount) hsmall
  rw [hsize] at hbytes
  refine rejectIf_bind_ok.mpr ⟨?_, ?_⟩
  · rw [captureState, not_or]
    exact ⟨not_not.mpr rfl, by dsimp only; omega⟩
  refine seq_ok.mpr ⟨Check.mapError_ok.mpr ?_, ?_⟩
  · rw [captureState, CapturedState.config, hmaximum]
    exact hvalid
  refine rejectIf_bind_ok.mpr ⟨not_not.mpr h.blockSize, ?_⟩
  iterate 2
    refine rejectIf_bind_ok.mpr ⟨?_, ?_⟩
    · rw [captureState]
      dsimp only
      omega
  refine rejectIf_bind_ok.mpr ⟨not_not.mpr ?_, ?_⟩
  · rw [captureState]
    rw [Nat.add_sub_cancel_left, h.requested_aligned]
  refine rejectIf_bind_ok.mpr ⟨not_not.mpr ?_, ?_⟩
  · rw [captureState]
    rw [Nat.add_sub_cancel_left, h.pluggedSize, Nat.mul_mod_left]
  refine bind_ok.mpr
    ⟨blockSum (Mem.pluggedRanges mem.plugged (mem.regionSize / mem.blockSize) 0), ?_, ?_⟩
  · rw [captureState]
    rw [Nat.add_sub_cancel_left, Nat.add_sub_cancel_left]
    exact hcheck
  refine rejectIf_bind_ok.mpr ⟨not_lt.mpr hbytes, ?_⟩
  refine rejectIf_bind_ok.mpr ⟨not_not.mpr ?_, ?_⟩
  · rw [captureState]
    rw [hsize]
  · exact congrArg Except.ok hmaximum

lemma Sound.decodeState_capture (initialSize : ℕ) {dev : Mem}
    (hblock : dev.blockSize = mem.blockSize) (hregion : dev.regionSize = mem.regionSize) :
    dev.decodeState (mem.captureState initialSize) = .ok (mem.plugged, mem.pluggedSize) := by
  obtain ⟨hascending, hmarked, hsize⟩ := h.ranges rfl
  have hrequested := h.requested_le
  have hbound : mem.requestedSize / mem.blockSize ≤ dev.regionSize / dev.blockSize := by
    rw [hblock, hregion]
    exact h.requested_blocks_le
  have hrun := @Ascending.restoreRanges dev _ mem.requestedSize hbound (by rw [hblock]) _ 0 0
    (fun _ => false) hascending nofun
  rw [Nat.zero_add, hblock, ← hsize] at hrun
  refine rejectIf_bind_ok.mpr ⟨?_, ?_⟩
  · rw [captureState]
    dsimp only
    omega
  refine rejectIf_bind_ok.mpr ⟨not_not.mpr ?_, ?_⟩
  · rw [captureState]
    rw [Nat.add_sub_cancel_left, hblock, h.requested_aligned]
  refine bind_ok.mpr ⟨(mem.plugged, mem.pluggedSize), ?_, ?_⟩
  · rw [captureState]
    rw [Nat.add_sub_cancel_left, hrun, hmarked]
    simp only [Bool.or_false]
  · exact seq_ok.mpr ⟨rejectIf_ok.mpr (not_not.mpr rfl), rfl⟩

/-- **A captured state is restored** by every device with the same region whose backend agrees. -/
theorem Sound.restoreState_capture (initialSize : ℕ) {dev : Mem}
    (hblock : dev.blockSize = mem.blockSize) (hregion : dev.regionSize = mem.regionSize)
    (hbackend : (dev.askForRestore mem.requestedSize).1 = true) :
    ∃ plugReplies, dev.restoreState (mem.captureState initialSize) = (.ok (), { dev with
      requestedSize := mem.requestedSize
      plugged := mem.plugged
      pluggedSize := mem.pluggedSize
      plugReplies }) := by
  have hdecode := h.decodeState_capture initialSize hblock hregion
  have hrequested : (mem.captureState initialSize).requestedSize -
      (mem.captureState initialSize).initialSize = mem.requestedSize := Nat.add_sub_cancel_left ..
  obtain ⟨replies, hask⟩ := askForRestore_device dev mem.requestedSize
  refine ⟨replies, ?_⟩
  unfold Mem.restoreState
  rw [hdecode]
  rw [hrequested]
  cases hreply : dev.askForRestore mem.requestedSize with
  | mk accepted dev₁ =>
    rw [hreply] at hbackend hask
    subst hbackend hask
    rfl

end Capture

end Invariant

end Mem

-- ══ Whole runs

/-- **Elastic memory.** However the guest, the host and restores change a device that was set up for
a valid configuration: its plugged size counts its plugged blocks, which lie below the requested
size, which lies in the region. The state captured from it is accepted, and restored by any device
with the same region as far as its backend agrees. A restore that fails changes nothing. -/
theorem elastic_memory_sound {pageAlignment : ℕ} {memory : MemoryConfig}
    (hvalid : memory.validate pageAlignment = .ok ()) (helastic : memory.isElastic)
    {config : Mem.Config} (hregion : config.regionSize = memory.maximumBytes - memory.initialBytes)
    (hblock : config.blockSize = elasticBlockSize) {mem₀ mem : Mem}
    (hinit : Mem.init config = some mem₀) (hrun : Relation.ReflTransGen Mem.Step mem₀ mem) :
    (mem.pluggedSize = flagCount mem.plugged Mem.maxBlocks * mem.blockSize ∧
      mem.pluggedSize ≤ mem.requestedSize ∧ mem.requestedSize ≤ mem.regionSize ∧
      ∀ i, mem.plugged i = true → (i + 1) * mem.blockSize ≤ mem.requestedSize) ∧
    validateMemoryState pageAlignment (mem.captureState memory.initialBytes)
      memory.initialBytes = .ok memory.maximumBytes ∧
    (∀ dev : Mem, dev.blockSize = mem.blockSize → dev.regionSize = mem.regionSize →
      (dev.askForRestore mem.requestedSize).1 = true →
      ∃ plugReplies, dev.restoreState (mem.captureState memory.initialBytes) =
        (.ok (), { dev with
          requestedSize := mem.requestedSize
          plugged := mem.plugged
          pluggedSize := mem.pluggedSize
          plugReplies })) ∧
    ∀ captured e, (mem.restoreState captured).1 = .error e →
      ∃ plugReplies, (mem.restoreState captured).2 = { mem with plugReplies } := by
  have h : Mem.Sound memory mem := (Mem.Sound.init hregion hblock hinit).run hrun
  refine ⟨⟨h.pluggedSize, h.plugged_le, h.requested_le, h.plugged_below⟩,
    h.validateMemoryState hvalid helastic, fun dev hdev hsize hbackend =>
      h.restoreState_capture memory.initialBytes hdev hsize hbackend, fun captured e herror => ?_⟩
  obtain ⟨replies, ⟨e', hfail⟩ | ⟨_, _, -, hok⟩⟩ := Mem.restoreState_cases mem captured
  · exact ⟨replies, by rw [hfail]⟩
  · rw [hok] at herror
    cases herror

def twoBlocks : MemoryConfig := ⟨2 * elasticBlockSize, 4 * elasticBlockSize⟩

def oneRequested : Mem where
  blockSize := elasticBlockSize
  addr := 0
  regionSize := 2 * elasticBlockSize
  requestedSize := elasticBlockSize
  plugFn := true
  plugContext := true

/-- A chain of two descriptors that asks for the first block. -/
def plugRam : GuestRam where
  base := 0
  size := 4096
  byte a := ([(1, 1), (8, 24), (12, 1), (14, 1), (17, 2), (24, 10), (28, 2), (272, 1),
    (1026, 1)].lookup a).getD 0

def plugQueue : Queue.VirtQueue :=
  { size := 2, ready := true, availAddr := 1024, usedAddr := 2048 }

theorem elastic_memory_sound_two_blocks : ∃ mem : Mem, mem.pluggedSize = elasticBlockSize ∧
    validateMemoryState 4096 (mem.captureState twoBlocks.initialBytes) twoBlocks.initialBytes =
      .ok twoBlocks.maximumBytes := by
  have hvalid : twoBlocks.validate 4096 = .ok () := by decide
  have hregion : (Mem.Config.ofMemory twoBlocks 0).regionSize =
      twoBlocks.maximumBytes - twoBlocks.initialBytes := rfl
  have hrequested : Mem.Step { oneRequested with requestedSize := 0 } oneRequested :=
    @Mem.Step.setRequestedSize _ _ elasticBlockSize rfl
  have hplugged := Mem.Step.notify { oneRequested with plugReplies := [true] }
    (fun _ => plugQueue) plugRam 0
  have hrun := ((Relation.ReflTransGen.single hrequested).tail (.replies _ [true])).tail hplugged
  refine ⟨_, ?_, (elastic_memory_sound hvalid (by decide) hregion rfl rfl hrun).2.1⟩
  decide +kernel

end SporeVM.Virtio
