import SporeVM.Virtio.Layout

/-!
# The transport of a device

`virtio/mmio.zig`: one window of registers in front of a device and its queues. Every offset and
every value that is written comes from the guest. The transport negotiates the features, configures
the queues, and passes notifications on to the device.

The state of the device is the field `context`. The field `calls` is a history variable: the values
that have been passed to the device's `featuresAccepted`, the latest first.
-/

namespace SporeVM.Virtio.Mmio

open Lib
open Lib.EState (outcome)
open Queue (DeviceM Machine VirtQueue popAvail pushUsed)
open Function

-- ══ Devices

def maxQueues : ℕ := 4

def statusDriverOk : BitVec 32 := 4

def statusFeaturesOk : BitVec 32 := 8

def statusDeviceNeedsReset : BitVec 32 := 64

def interruptUsedBuffer : BitVec 32 := 1

def interruptConfigChange : BitVec 32 := 2

def fVersion1 : BitVec 64 := 1 <<< 32

structure Device (D : Type) where
  deviceFeatures : BitVec 64 := 0
  queueCount : ℕ
  notify : ℕ → DeviceM D Bool
  featuresAccepted : Option (BitVec 64 → D → D) := none
  reset : Option (D → D) := none
  queueCount_le : queueCount ≤ maxQueues
  notify_layout : ∀ qi, KeepsLayout (notify qi)

namespace Device

def ofRng : Device Rng where
  queueCount := 1
  notify := Rng.notify
  queueCount_le := by decide
  notify_layout := Rng.notify_layout

def ofConsole : Device Console where
  queueCount := 2
  notify := Console.notify
  queueCount_le := by decide
  notify_layout := Console.notify_layout

def ofMem : Device Mem where
  queueCount := 1
  notify := Mem.notify
  queueCount_le := by decide
  notify_layout := Mem.notify_layout

def ofNet (resetBackend : Net → Net) : Device Net where
  deviceFeatures := 1 <<< 5
  queueCount := 2
  notify := Net.notify
  reset := some resetBackend
  queueCount_le := by decide
  notify_layout := Net.notify_layout

def ofVsock (before : ℕ → List HostStream.Enqueue) (between : ℕ → Attached.Between) :
    Device Vsock where
  queueCount := 3
  notify := VsockRam.notify before between
  queueCount_le := by decide
  notify_layout := VsockRam.notify_layout before between

def ofBlk {Id : Type} [DecidableEq Id] (hash : List UInt8 → Id) (options : Blk.Options) :
    Device (Blk.Blk Id) where
  deviceFeatures := if options.writeZeroes then 1 <<< 14 else 0
  queueCount := 1
  notify := Blk.notify hash
  featuresAccepted := some fun features blk => { blk with acceptedFeatures := features.toNat }
  reset := some id
  queueCount_le := by decide
  notify_layout := Blk.notify_layout hash

end Device

-- ══ The transport

structure Transport (D : Type) where
  dev : Device D
  context : D
  queues : ℕ → VirtQueue := fun _ => {}
  status : BitVec 32 := 0
  deviceFeaturesSel : BitVec 32 := 0
  driverFeaturesSel : BitVec 32 := 0
  driverFeatures : BitVec 64 := 0
  acceptedFeatures : Option (BitVec 64) := none
  queueSel : BitVec 32 := 0
  configGeneration : BitVec 32 := 0
  interruptStatus : BitVec 32 := 0
  calls : List (BitVec 64) := []

inductive FeatureError
  | unsupportedFeatures | badFeatureState
  deriving DecidableEq

inductive Register
  | deviceFeaturesSel | driverFeatures | driverFeaturesSel | queueSel | queueSize | queueReady
  | queueNotify | interruptAck | status | descLow | descHigh | availLow | availHigh | usedLow
  | usedHigh
  deriving DecidableEq

def Register.ofOffset : ℕ → Option Register
  | 0x014 => some deviceFeaturesSel
  | 0x020 => some driverFeatures
  | 0x024 => some driverFeaturesSel
  | 0x030 => some queueSel
  | 0x038 => some queueSize
  | 0x044 => some queueReady
  | 0x050 => some queueNotify
  | 0x064 => some interruptAck
  | 0x070 => some status
  | 0x080 => some descLow
  | 0x084 => some descHigh
  | 0x090 => some availLow
  | 0x094 => some availHigh
  | 0x0a0 => some usedLow
  | 0x0a4 => some usedHigh
  | _ => none

def setLow (target : ℕ) (value : BitVec 32) : ℕ := target &&& 0xffffffff00000000 ||| value.toNat

def setHigh (target : ℕ) (value : BitVec 32) : ℕ :=
  target &&& 0x00000000ffffffff ||| value.toNat <<< 32

def featuresOk (status : BitVec 32) : Bool := status &&& statusFeaturesOk ≠ 0

namespace Transport

variable {D : Type}

def init (dev : Device D) (context : D) : Transport D := { dev, context }

def selectedQueue (t : Transport D) : Option ℕ :=
  if t.queueSel.toNat ≥ t.dev.queueCount then none else some t.queueSel.toNat

def setQueue (t : Transport D) (qi : ℕ) (q : VirtQueue) : Transport D :=
  { t with queues := update t.queues qi q }

def configure (t : Transport D) (f : VirtQueue → VirtQueue) : Transport D :=
  match t.selectedQueue with
  | none => t
  | some qi => if (t.queues qi).ready = true then t else t.setQueue qi (f (t.queues qi))

def failQueue (t : Transport D) (qi : ℕ) : Bool × Transport D :=
  let t := t.setQueue qi { t.queues qi with ready := false }
  if t.status &&& statusDeviceNeedsReset ≠ 0 then (false, t)
  else
    let t := { t with status := t.status ||| statusDeviceNeedsReset }
    if t.status &&& statusDriverOk = 0 then (false, t)
    else (true, { t with interruptStatus := t.interruptStatus ||| interruptConfigChange })

def enableQueue (t : Transport D) (qi : ℕ) (ram : GuestRam) : Bool × Transport D :=
  match (t.queues qi).validateRings ram with
  | .error _ => t.failQueue qi
  | .ok _ => (false, t.setQueue qi { t.queues qi with ready := true })

def writeReady (t : Transport D) (value : BitVec 32) (ram : GuestRam) : Bool × Transport D :=
  match t.selectedQueue with
  | none => (false, t)
  | some qi =>
    if value &&& 1 = 0 then (false, t.setQueue qi { t.queues qi with ready := false })
    else t.enableQueue qi ram

def signalUsedBuffers (t : Transport D) (returned : Bool) : Bool × Transport D :=
  if returned = false then (false, t)
  else (true, { t with interruptStatus := t.interruptStatus ||| interruptUsedBuffer })

def notifyDevice (t : Transport D) (qi : ℕ) (ram : GuestRam) : Bool × Transport D × GuestRam :=
  let run := outcome (t.dev.notify qi) ⟨t.context, t.queues, ram⟩
  let t := { t with context := run.2.device, queues := run.2.queues }
  let (interrupt, t) := t.signalUsedBuffers (run.1.toOption.getD false)
  (interrupt, t, run.2.ram)

def writeNotify (t : Transport D) (value : BitVec 32) (ram : GuestRam) :
    Bool × Transport D × GuestRam :=
  if value.toNat < t.dev.queueCount ∧ (t.queues value.toNat).ready = true then
    t.notifyDevice value.toNat ram
  else (false, t, ram)

def offeredFeatures (t : Transport D) : BitVec 64 := t.dev.deviceFeatures ||| fVersion1

def supportsFeatures (t : Transport D) (features : BitVec 64) : Bool :=
  features &&& ~~~t.offeredFeatures = 0

def callFeaturesAccepted (t : Transport D) (features : BitVec 64) : Transport D :=
  match t.dev.featuresAccepted with
  | none => t
  | some hook => { t with context := hook features t.context, calls := features :: t.calls }

def acceptFeatures (t : Transport D) (features : BitVec 64) : Transport D :=
  { t with acceptedFeatures := some features }.callFeaturesAccepted features

def clearFeatures (t : Transport D) : Transport D :=
  let t := if t.acceptedFeatures.isSome then t.callFeaturesAccepted 0 else t
  { t with acceptedFeatures := none }

def applyRestoredFeatureState (t : Transport D) (status : BitVec 32) (driverFeatures : BitVec 64) :
    Except FeatureError (Transport D) :=
  if t.supportsFeatures driverFeatures = false then .error .unsupportedFeatures
  else
    let t := { t with status, driverFeatures }
    .ok (if featuresOk status then t.acceptFeatures driverFeatures else t.clearFeatures)

def callReset (t : Transport D) : Transport D :=
  match t.dev.reset with
  | none => t
  | some hook => { t with context := hook t.context }

def reset (t : Transport D) : Transport D :=
  let t := t.callReset
  let t := { t with
    queues := fun _ => {}
    status := 0
    interruptStatus := 0
    driverFeatures := 0 }
  { t.clearFeatures with
    deviceFeaturesSel := 0
    driverFeaturesSel := 0
    queueSel := 0
    configGeneration := 0 }

def writeDriverFeatures (t : Transport D) (value : BitVec 32) : Transport D :=
  if t.acceptedFeatures.isNone ∧ t.driverFeaturesSel.toNat ≤ 1 then
    let shift := if t.driverFeaturesSel = 1 then 32 else 0
    let mask := (0xffffffff : BitVec 64) <<< shift
    { t with
      driverFeatures := (t.driverFeatures &&& ~~~mask) ||| (value.setWidth 64 <<< shift) }
  else t

/-- The features are accepted when the driver asks for that, if the device has offered them; the
status is without FEATURES_OK if it has not. -/
def negotiate (t : Transport D) (value : BitVec 32) : BitVec 32 × Transport D :=
  if t.acceptedFeatures.isNone ∧ featuresOk value = true then
    if t.supportsFeatures t.driverFeatures = true then (value, t.acceptFeatures t.driverFeatures)
    else (value &&& ~~~statusFeaturesOk, t)
  else (value, t)

def writeStatus (t : Transport D) (value : BitVec 32) : Transport D :=
  if value = 0 then t.reset
  else
    let next := t.negotiate value
    if next.2.acceptedFeatures.isSome then { next.2 with status := next.1 ||| statusFeaturesOk }
    else { next.2 with status := next.1 }

/-- A write to a register: whether the interrupt line is to be raised, and transport and guest
memory afterwards. -/
def writeRegister (t : Transport D) (value : BitVec 32) (ram : GuestRam) :
    Register → Bool × Transport D × GuestRam
  | .deviceFeaturesSel => (false, { t with deviceFeaturesSel := value }, ram)
  | .driverFeatures => (false, t.writeDriverFeatures value, ram)
  | .driverFeaturesSel => (false, { t with driverFeaturesSel := value }, ram)
  | .queueSel => (false, { t with queueSel := value }, ram)
  | .queueSize =>
    (false, t.configure fun q => { q with size := min value.toNat Queue.maxQueueSize }, ram)
  | .queueReady =>
    let (interrupt, t) := t.writeReady value ram
    (interrupt, t, ram)
  | .queueNotify => t.writeNotify value ram
  | .interruptAck => (false, { t with interruptStatus := t.interruptStatus &&& ~~~value }, ram)
  | .status => (false, t.writeStatus value, ram)
  | .descLow => (false, t.configure fun q => { q with descAddr := setLow q.descAddr value }, ram)
  | .descHigh => (false, t.configure fun q => { q with descAddr := setHigh q.descAddr value }, ram)
  | .availLow => (false, t.configure fun q => { q with availAddr := setLow q.availAddr value }, ram)
  | .availHigh =>
    (false, t.configure fun q => { q with availAddr := setHigh q.availAddr value }, ram)
  | .usedLow => (false, t.configure fun q => { q with usedAddr := setLow q.usedAddr value }, ram)
  | .usedHigh => (false, t.configure fun q => { q with usedAddr := setHigh q.usedAddr value }, ram)

def write (t : Transport D) (offset : ℕ) (value : BitVec 32) (ram : GuestRam) :
    Bool × Transport D × GuestRam :=
  match Register.ofOffset offset with
  | none => (false, t, ram)
  | some register => t.writeRegister value ram register

def validateSerializableFeatureState (t : Transport D) : Except FeatureError Unit := do
  Check.rejectIf (t.supportsFeatures t.driverFeatures = false) .unsupportedFeatures
  Check.rejectIf (featuresOk t.status ≠ t.acceptedFeatures.isSome) .badFeatureState
  Check.checkSome t.acceptedFeatures fun accepted =>
    Check.rejectIf (accepted ≠ t.driverFeatures) .badFeatureState

end Transport

open Transport

variable {D : Type}

-- ══ Runs

inductive Event
  | write (offset : ℕ) (value : BitVec 32) (ram : GuestRam)
  | reset
  | restore (status : BitVec 32) (driverFeatures : BitVec 64)

def step (t : Transport D) : Event → Transport D
  | .write offset value ram => (t.write offset value ram).2.1
  | .reset => t.reset
  | .restore status driverFeatures =>
    (t.applyRestoredFeatureState status driverFeatures).toOption.getD t

def run (t : Transport D) (events : List Event) : Transport D := events.foldl step t

-- ══ The negotiation of features

lemma featuresOk_or_set (status : BitVec 32) : featuresOk (status ||| statusFeaturesOk) = true := by
  simp only [featuresOk, decide_eq_true_eq]
  intro h
  have hbit := congrArg (fun word : BitVec 32 => word.getLsbD 3) h
  simp [statusFeaturesOk] at hbit

lemma featuresOk_and_not (status : BitVec 32) :
    featuresOk (status &&& ~~~statusFeaturesOk) = false := by
  rw [featuresOk, BitVec.and_assoc]
  simp [statusFeaturesOk]

lemma featuresOk_or_needsReset (status : BitVec 32) :
    featuresOk (status ||| statusDeviceNeedsReset) = featuresOk status := by
  have hapart : statusDeviceNeedsReset &&& statusFeaturesOk = 0 := by decide
  rw [featuresOk, featuresOk, BitVec.and_or_distrib_right, hapart]
  simp only [BitVec.ofNat_eq_ofNat, BitVec.or_zero]

variable {t' : Transport D}

lemma supportsFeatures_congr {t : Transport D} (h : t'.dev = t.dev) (f : BitVec 64) :
    t'.supportsFeatures f = t.supportsFeatures f := by
  rw [supportsFeatures, supportsFeatures, offeredFeatures, offeredFeatures, h]

/-- **The state of the negotiation.** FEATURES_OK stands for accepted features; these are the
driver's, the device has offered them, and they are what it was told last. -/
structure Negotiated (t : Transport D) : Prop where
  status : featuresOk t.status = t.acceptedFeatures.isSome
  driver : ∀ f, t.acceptedFeatures = some f → f = t.driverFeatures
  offered : ∀ f, t.acceptedFeatures = some f → t.supportsFeatures f = true
  told : ∀ f, t.acceptedFeatures = some f → t.dev.featuresAccepted.isSome = true →
    t.calls.head? = some f

structure Untouched (t t' : Transport D) : Prop where
  dev : t'.dev = t.dev
  status : featuresOk t'.status = featuresOk t.status
  driverFeatures : t'.driverFeatures = t.driverFeatures
  acceptedFeatures : t'.acceptedFeatures = t.acceptedFeatures
  calls : t'.calls = t.calls

namespace Untouched

variable {t t' : Transport D}

lemma refl (t : Transport D) : Untouched t t := ⟨rfl, rfl, rfl, rfl, rfl⟩

lemma keeps_negotiated (h : Untouched t t') (ht : Negotiated t) : Negotiated t' where
  status := by rw [h.status, h.acceptedFeatures, ht.status]
  driver f hf := by
    rw [h.driverFeatures]
    exact ht.driver f (h.acceptedFeatures ▸ hf)
  offered f hf := by
    rw [supportsFeatures_congr h.dev]
    exact ht.offered f (h.acceptedFeatures ▸ hf)
  told f hf hhook := by
    rw [h.calls]
    exact ht.told f (h.acceptedFeatures ▸ hf) (h.dev ▸ hhook)

lemma configure (t : Transport D) (f : VirtQueue → VirtQueue) : Untouched t (t.configure f) := by
  unfold Transport.configure
  split
  · exact refl t
  · split <;> exact ⟨rfl, rfl, rfl, rfl, rfl⟩

lemma failQueue (t : Transport D) (qi : ℕ) : Untouched t (t.failQueue qi).2 := by
  unfold Transport.failQueue
  simp only
  split_ifs
  · exact ⟨rfl, rfl, rfl, rfl, rfl⟩
  · exact ⟨rfl, featuresOk_or_needsReset _, rfl, rfl, rfl⟩
  · exact ⟨rfl, featuresOk_or_needsReset _, rfl, rfl, rfl⟩

lemma writeReady (t : Transport D) (value : BitVec 32) (ram : GuestRam) :
    Untouched t (t.writeReady value ram).2 := by
  unfold Transport.writeReady
  split
  · exact refl t
  · split
    · exact ⟨rfl, rfl, rfl, rfl, rfl⟩
    · unfold enableQueue
      split
      · exact failQueue t _
      · exact ⟨rfl, rfl, rfl, rfl, rfl⟩

lemma writeNotify (t : Transport D) (value : BitVec 32) (ram : GuestRam) :
    Untouched t (t.writeNotify value ram).2.1 := by
  unfold Transport.writeNotify
  split
  · unfold notifyDevice signalUsedBuffers
    simp only
    split <;> exact ⟨rfl, rfl, rfl, rfl, rfl⟩
  · exact refl t

end Untouched

section Features

variable {t : Transport D}

@[simp] lemma callFeaturesAccepted_dev (f : BitVec 64) :
    (t.callFeaturesAccepted f).dev = t.dev := by
  unfold callFeaturesAccepted
  split <;> rfl

@[simp] lemma callFeaturesAccepted_status (f : BitVec 64) :
    (t.callFeaturesAccepted f).status = t.status := by
  unfold callFeaturesAccepted
  split <;> rfl

@[simp] lemma callFeaturesAccepted_driverFeatures (f : BitVec 64) :
    (t.callFeaturesAccepted f).driverFeatures = t.driverFeatures := by
  unfold callFeaturesAccepted
  split <;> rfl

@[simp] lemma callFeaturesAccepted_acceptedFeatures (f : BitVec 64) :
    (t.callFeaturesAccepted f).acceptedFeatures = t.acceptedFeatures := by
  unfold callFeaturesAccepted
  split <;> rfl

variable {f : BitVec 64}

lemma callFeaturesAccepted_calls (h : t.dev.featuresAccepted.isSome = true) :
    (t.callFeaturesAccepted f).calls.head? = some f := by
  unfold callFeaturesAccepted
  split
  · next hnone => simp [hnone] at h
  · rfl

lemma acceptFeatures_negotiated (hsupports : t.supportsFeatures f = true)
    (hdriver : t.driverFeatures = f) {status : BitVec 32} (hstatus : featuresOk status = true) :
    Negotiated { t.acceptFeatures f with status } where
  status := by simpa [acceptFeatures] using hstatus
  driver g hg := by
    simp only [acceptFeatures, callFeaturesAccepted_acceptedFeatures, Option.some.injEq] at hg
    simp [acceptFeatures, hdriver, hg]
  offered g hg := by
    simp only [acceptFeatures, callFeaturesAccepted_acceptedFeatures, Option.some.injEq] at hg
    subst hg
    rwa [supportsFeatures_congr (t := t) (by simp [acceptFeatures])]
  told g hg hhook := by
    simp only [acceptFeatures, callFeaturesAccepted_acceptedFeatures, Option.some.injEq] at hg
    subst hg
    simp only [acceptFeatures, callFeaturesAccepted_dev] at hhook
    exact callFeaturesAccepted_calls hhook

lemma negotiated_of_none (hnone : t.acceptedFeatures = none)
    (hstatus : featuresOk t.status = false) : Negotiated t where
  status := by rw [hstatus, hnone]; rfl
  driver f hf := by simp [hnone] at hf
  offered f hf := by simp [hnone] at hf
  told f hf := by simp [hnone] at hf

@[simp] lemma clearFeatures_status : t.clearFeatures.status = t.status := by
  unfold clearFeatures
  split
  · exact callFeaturesAccepted_status 0
  · rfl

@[simp] lemma clearFeatures_dev : t.clearFeatures.dev = t.dev := by
  unfold clearFeatures
  split
  · exact callFeaturesAccepted_dev 0
  · rfl

lemma reset_negotiated (t : Transport D) : Negotiated t.reset := by
  refine negotiated_of_none rfl ?_
  simp [Transport.reset, featuresOk]

lemma writeDriverFeatures_negotiated (h : Negotiated t) (value : BitVec 32) :
    Negotiated (t.writeDriverFeatures value) := by
  unfold writeDriverFeatures
  split
  · next hopen =>
    have hnone := Option.isNone_iff_eq_none.mp hopen.1
    refine negotiated_of_none hnone ?_
    have hstatus := h.status
    rw [hnone] at hstatus
    exact hstatus
  · exact h

lemma writeStatus_negotiated (h : Negotiated t) (value : BitVec 32) :
    Negotiated (t.writeStatus value) := by
  unfold writeStatus
  split
  · exact reset_negotiated t
  by_cases hasks : t.acceptedFeatures.isNone = true ∧ featuresOk value = true
  · have hnone := Option.isNone_iff_eq_none.mp hasks.1
    by_cases hsupports : t.supportsFeatures t.driverFeatures = true
    · have hnext : t.negotiate value = (value, t.acceptFeatures t.driverFeatures) := by
        rw [negotiate, if_pos hasks, if_pos hsupports]
      simp only [hnext]
      rw [if_pos (by simp [acceptFeatures])]
      exact acceptFeatures_negotiated hsupports rfl (featuresOk_or_set value)
    · have hnext : t.negotiate value = (value &&& ~~~statusFeaturesOk, t) := by
        rw [negotiate, if_pos hasks, if_neg hsupports]
      simp only [hnext]
      rw [if_neg (by simp [hnone])]
      exact negotiated_of_none hnone (featuresOk_and_not value)
  · have hnext : t.negotiate value = (value, t) := by rw [negotiate, if_neg hasks]
    simp only [hnext]
    split
    · next hsome =>
      refine Untouched.keeps_negotiated (t := t) ⟨rfl, ?_, rfl, rfl, rfl⟩ h
      rw [h.status, hsome]
      exact featuresOk_or_set value
    · next hsome =>
      have hnone : t.acceptedFeatures = none := by simpa using hsome
      refine negotiated_of_none hnone ?_
      simpa [hnone] using hasks

lemma writeRegister_negotiated (h : Negotiated t) (value : BitVec 32) (ram : GuestRam)
    (register : Register) : Negotiated (t.writeRegister value ram register).2.1 := by
  have hsame : ∀ t' : Transport D, Untouched t t' → Negotiated t' := fun _ hsame =>
    hsame.keeps_negotiated h
  cases register with
  | deviceFeaturesSel => exact hsame _ ⟨rfl, rfl, rfl, rfl, rfl⟩
  | driverFeatures => exact writeDriverFeatures_negotiated h value
  | driverFeaturesSel => exact hsame _ ⟨rfl, rfl, rfl, rfl, rfl⟩
  | queueSel => exact hsame _ ⟨rfl, rfl, rfl, rfl, rfl⟩
  | queueReady => exact hsame _ (.writeReady t value ram)
  | queueNotify => exact hsame _ (.writeNotify t value ram)
  | interruptAck => exact hsame _ ⟨rfl, rfl, rfl, rfl, rfl⟩
  | status => exact writeStatus_negotiated h value
  | queueSize | descLow | descHigh | availLow | availHigh | usedLow | usedHigh =>
    simp only [writeRegister]
    exact hsame _ (.configure t _)

/-- **A write** keeps what holds of the negotiation. -/
theorem write_negotiated (h : Negotiated t) (offset : ℕ) (value : BitVec 32) (ram : GuestRam) :
    Negotiated (t.write offset value ram).2.1 := by
  unfold write
  split
  · exact h
  · exact writeRegister_negotiated h value ram _

lemma applyRestoredFeatureState_negotiated {status : BitVec 32} {driverFeatures : BitVec 64}
    (h : t.applyRestoredFeatureState status driverFeatures = .ok t') : Negotiated t' := by
  unfold applyRestoredFeatureState at h
  split at h
  · cases h
  · next hsupports =>
    have hsupports : t.supportsFeatures driverFeatures = true := by simpa using hsupports
    cases h
    split
    · next hok =>
      have haccept := acceptFeatures_negotiated (t := { t with status, driverFeatures })
        hsupports rfl hok
      refine Untouched.keeps_negotiated ?_ haccept
      exact ⟨rfl, by simp [acceptFeatures], rfl, rfl, rfl⟩
    · next hok =>
      refine negotiated_of_none rfl ?_
      simpa using hok

/-- **One step** keeps what holds of the negotiation. -/
theorem step_negotiated (h : Negotiated t) (e : Event) : Negotiated (step t e) := by
  cases e with
  | write offset value ram => exact write_negotiated h offset value ram
  | reset => exact reset_negotiated t
  | restore status driverFeatures =>
    rw [step]
    cases hrestore : t.applyRestoredFeatureState status driverFeatures with
    | error e => exact h
    | ok t' => exact applyRestoredFeatureState_negotiated hrestore

lemma run_negotiated : ∀ (events : List Event) {t : Transport D}, Negotiated t →
    Negotiated (run t events)
  | [], _, h => h
  | e :: events, _, h => run_negotiated events (step_negotiated h e)

def Event.Clears : Event → Prop
  | .write offset value _ => Register.ofOffset offset = some .status ∧ value = 0
  | .reset => True
  | .restore _ _ => True

lemma writeRegister_accepted (h : t.acceptedFeatures = some f) {value : BitVec 32}
    {register : Register} (hclears : ¬ (register = .status ∧ value = 0)) (ram : GuestRam) :
    (t.writeRegister value ram register).2.1.acceptedFeatures = some f := by
  cases register with
  | deviceFeaturesSel | driverFeaturesSel | queueSel | interruptAck => exact h
  | driverFeatures =>
    simp only [writeRegister, writeDriverFeatures, h, Option.isNone_some, Bool.false_eq_true,
      false_and, if_false]
  | queueReady => exact (Untouched.writeReady t value ram).acceptedFeatures.trans h
  | queueNotify => exact (Untouched.writeNotify t value ram).acceptedFeatures.trans h
  | status =>
    have hvalue : value ≠ 0 := fun hzero => hclears ⟨rfl, hzero⟩
    have hnext : t.negotiate value = (value, t) := by rw [negotiate, if_neg (by simp [h])]
    simp only [writeRegister, writeStatus, if_neg hvalue, hnext]
    split <;> exact h
  | queueSize | descLow | descHigh | availLow | availHigh | usedLow | usedHigh =>
    exact (Untouched.configure t _).acceptedFeatures.trans h

lemma step_accepted (h : t.acceptedFeatures = some f) {e : Event} (hclears : ¬ e.Clears) :
    (step t e).acceptedFeatures = some f := by
  cases e with
  | write offset value ram =>
    rw [step, write]
    split
    · exact h
    · next register hregister =>
      refine writeRegister_accepted h (fun hstatus => hclears ?_) ram
      exact ⟨hstatus.1 ▸ hregister, hstatus.2⟩
  | reset => exact absurd trivial hclears
  | restore => exact absurd trivial hclears

lemma run_accepted {f : BitVec 64} : ∀ (events : List Event) {t : Transport D},
    t.acceptedFeatures = some f → (∀ e ∈ events, ¬ e.Clears) →
      (run t events).acceptedFeatures = some f
  | [], _, h, _ => h
  | e :: events, _, h, hclears =>
    run_accepted events (step_accepted h (hclears e List.mem_cons_self)) fun e' he' =>
      hclears e' (List.mem_cons_of_mem _ he')

lemma reset_dev (t : Transport D) : t.reset.dev = t.dev := by
  simp only [Transport.reset, clearFeatures_dev]
  unfold callReset
  split <;> rfl

lemma acceptFeatures_dev (t : Transport D) (f : BitVec 64) : (t.acceptFeatures f).dev = t.dev :=
  callFeaturesAccepted_dev f

lemma writeStatus_dev (t : Transport D) (value : BitVec 32) :
    (t.writeStatus value).dev = t.dev := by
  have hnext : (t.negotiate value).2.dev = t.dev := by
    unfold negotiate
    split
    · split
      · exact acceptFeatures_dev t _
      · rfl
    · rfl
  unfold writeStatus
  split
  · exact reset_dev t
  · simp only
    split <;> exact hnext

lemma step_dev (t : Transport D) (e : Event) : (step t e).dev = t.dev := by
  cases e with
  | write offset value ram =>
    rw [step, write]
    split
    · rfl
    · next register _ =>
      cases register with
      | deviceFeaturesSel | driverFeaturesSel | queueSel | interruptAck => rfl
      | driverFeatures =>
        simp only [writeRegister, writeDriverFeatures]
        split <;> rfl
      | queueReady => exact (Untouched.writeReady t value ram).dev
      | queueNotify => exact (Untouched.writeNotify t value ram).dev
      | status => exact writeStatus_dev t value
      | queueSize | descLow | descHigh | availLow | availHigh | usedLow | usedHigh =>
        simp only [writeRegister]
        exact (Untouched.configure t _).dev
  | reset => exact reset_dev t
  | restore status driverFeatures =>
    rw [step, applyRestoredFeatureState]
    split
    · rfl
    · split
      · exact acceptFeatures_dev _ _
      · exact clearFeatures_dev

lemma run_dev : ∀ (events : List Event) (t : Transport D), (run t events).dev = t.dev
  | [], _ => rfl
  | e :: events, t => (run_dev events (step t e)).trans (step_dev t e)

lemma restore_accepted (h : Negotiated t) {fresh : Transport D}
    (hfresh : fresh.dev.deviceFeatures = t.dev.deviceFeatures)
    (hvalid : t.validateSerializableFeatureState = .ok ()) :
    ∃ t', fresh.applyRestoredFeatureState t.status t.driverFeatures = .ok t' ∧
      t'.acceptedFeatures = t.acceptedFeatures := by
  obtain ⟨hsupports, -⟩ := Check.seq_ok.mp hvalid
  rw [Check.rejectIf_ok] at hsupports
  have hsame : fresh.supportsFeatures t.driverFeatures = t.supportsFeatures t.driverFeatures := by
    rw [supportsFeatures, supportsFeatures, offeredFeatures, offeredFeatures, hfresh]
  unfold applyRestoredFeatureState
  rw [hsame, if_neg hsupports]
  refine ⟨_, rfl, ?_⟩
  cases haccepted : t.acceptedFeatures with
  | none =>
    have hok : featuresOk t.status = false := by rw [h.status, haccepted]; rfl
    simp [hok, clearFeatures]
  | some f =>
    have hok : featuresOk t.status = true := by rw [h.status, haccepted]; rfl
    simp [hok, acceptFeatures, ← h.driver f haccepted]

lemma validateSerializableFeatureState_ne (h : Negotiated t) :
    t.validateSerializableFeatureState ≠ .error .badFeatureState := by
  unfold validateSerializableFeatureState
  rw [Check.rejectIf_bind, Check.rejectIf_bind, if_neg (not_not.mpr h.status)]
  split
  · exact nofun
  · cases haccepted : t.acceptedFeatures with
    | none => exact nofun
    | some f =>
      rw [Check.checkSome, Check.rejectIf, if_neg (not_not.mpr (h.driver f haccepted))]
      exact nofun

end Features

/-- **The negotiation of features**, along every run: FEATURES_OK stands for accepted features,
which are those of the driver, have been offered and are what the device was told last; they stay
until a reset or a restore; the state is never refused as inconsistent when it is to be saved; and
what has been saved is restored with the same accepted features. -/
theorem negotiated (dev : Device D) (context : D) (events : List Event) :
    let t := run (Transport.init dev context) events
    Negotiated t ∧
      (∀ f more, t.acceptedFeatures = some f → (∀ e ∈ more, ¬ e.Clears) →
        (run t more).acceptedFeatures = some f) ∧
      t.validateSerializableFeatureState ≠ .error .badFeatureState ∧
      (t.validateSerializableFeatureState = .ok () → ∀ context', ∃ t',
        (Transport.init dev context').applyRestoredFeatureState t.status t.driverFeatures = .ok t' ∧
          t'.acceptedFeatures = t.acceptedFeatures) := by
  intro t
  have hzero : featuresOk 0 = false := by decide
  have hstart : Negotiated (Transport.init dev context) := negotiated_of_none rfl hzero
  have h : Negotiated t := run_negotiated events hstart
  have hdev : t.dev = dev := run_dev events _
  refine ⟨h, fun f more => run_accepted more, validateSerializableFeatureState_ne h, ?_⟩
  intro hvalid context'
  exact restore_accepted h (congrArg Device.deviceFeatures hdev.symm) hvalid

-- ══ The layout of the queues

def Event.Sees : Event → GuestRam → Prop
  | .write _ _ ram, ram' => ram = ram'
  | _, _ => False

inductive QueueChange (e : Event) (t t' : Transport D) : Prop
  | same (h : ∀ qi, (t'.queues qi).layout = (t.queues qi).layout)
  | configured (qi : ℕ) (q : VirtQueue) (hold : (t.queues qi).ready = false)
      (hnew : q.ready = false) (h : t'.queues = update t.queues qi q)
  | disabled (qi : ℕ) (h : t'.queues = update t.queues qi { t.queues qi with ready := false })
  | enabled (qi : ℕ) (ram : GuestRam) (hram : e.Sees ram)
      (hvalid : (t.queues qi).validateRings ram = .ok ())
      (h : t'.queues = update t.queues qi { t.queues qi with ready := true })
  | reset (h : t'.queues = fun _ => {})

section Queues

variable {t : Transport D} {ram : GuestRam} {e : Event}

lemma configure_queues (t : Transport D) {f : VirtQueue → VirtQueue}
    (hf : ∀ q, (f q).ready = q.ready) : QueueChange e t (t.configure f) := by
  unfold configure
  split
  · exact .same fun _ => rfl
  · next qi _ =>
    split
    · exact .same fun _ => rfl
    · next hready =>
      have hold : (t.queues qi).ready = false := by simpa using hready
      exact .configured qi _ hold ((hf _).trans hold) rfl

lemma failQueue_queues (t : Transport D) (qi : ℕ) : QueueChange e t (t.failQueue qi).2 := by
  refine .disabled qi ?_
  unfold failQueue
  simp only
  split_ifs <;> rfl

lemma writeReady_queues (hram : e.Sees ram) (t : Transport D) (value : BitVec 32) :
    QueueChange e t (t.writeReady value ram).2 := by
  unfold writeReady
  split
  · exact .same fun _ => rfl
  · next qi _ =>
    split
    · exact .disabled qi rfl
    · unfold enableQueue
      split
      · exact failQueue_queues t qi
      · next hvalid => exact .enabled qi ram hram hvalid rfl

lemma writeNotify_queues (t : Transport D) (value : BitVec 32) :
    QueueChange e t (t.writeNotify value ram).2.1 := by
  unfold writeNotify
  split
  · refine .same fun qi => ?_
    have hkept := (t.dev.notify_layout value.toNat _).outcome (s := ⟨t.context, t.queues, ram⟩) rfl
    have hqueues : (t.notifyDevice value.toNat ram).2.1.queues =
        (outcome (t.dev.notify value.toNat) ⟨t.context, t.queues, ram⟩).2.queues := by
      unfold notifyDevice signalUsedBuffers
      simp only
      split <;> rfl
    rw [hqueues]
    exact congrFun hkept qi
  · exact .same fun _ => rfl

@[simp] lemma callFeaturesAccepted_queues (f : BitVec 64) :
    (t.callFeaturesAccepted f).queues = t.queues := by
  unfold callFeaturesAccepted
  split <;> rfl

@[simp] lemma clearFeatures_queues : t.clearFeatures.queues = t.queues := by
  unfold clearFeatures
  split
  · exact callFeaturesAccepted_queues 0
  · rfl

lemma writeStatus_queues (t : Transport D) (value : BitVec 32) :
    QueueChange e t (t.writeStatus value) := by
  have hnext : (t.negotiate value).2.queues = t.queues := by
    unfold negotiate
    split
    · split
      · exact callFeaturesAccepted_queues _
      · rfl
    · rfl
  unfold writeStatus
  split
  · exact .reset (by simp [Transport.reset])
  · refine .same fun qi => ?_
    simp only
    split <;> exact congrArg (fun queues => (queues qi).layout) hnext

lemma write_queues (hram : e.Sees ram) (t : Transport D) (offset : ℕ) (value : BitVec 32) :
    QueueChange e t (t.write offset value ram).2.1 := by
  unfold write
  split
  · exact .same fun _ => rfl
  · next register _ =>
    cases register with
    | deviceFeaturesSel | driverFeaturesSel | queueSel | interruptAck => exact .same fun _ => rfl
    | driverFeatures =>
      simp only [writeRegister, writeDriverFeatures]
      split <;> exact .same fun _ => rfl
    | queueReady => exact writeReady_queues hram t value
    | queueNotify => exact writeNotify_queues t value
    | status => exact writeStatus_queues t value
    | queueSize | descLow | descHigh | availLow | availHigh | usedLow | usedHigh =>
      simp only [writeRegister]
      exact configure_queues t fun _ => rfl

/-- **What one step can do to the queues.** -/
theorem step_queues (t : Transport D) (e : Event) : QueueChange e t (step t e) := by
  cases e with
  | write offset value ram => exact write_queues (e := .write offset value ram) rfl t offset value
  | reset => exact .reset (by simp [step, Transport.reset])
  | restore status driverFeatures =>
    refine .same fun qi => ?_
    rw [step, applyRestoredFeatureState]
    split
    · rfl
    · simp only [Except.toOption, Option.getD_some]
      split
      · simp [acceptFeatures]
      · simp

lemma validateRings_congr {q q' : VirtQueue} {ram ram' : GuestRam} (hq : q'.layout = q.layout)
    (hbase : ram'.base = ram.base) (hsize : ram'.size = ram.size) :
    q'.validateRings ram' = q.validateRings ram := by
  cases q
  cases q'
  cases ram
  cases ram'
  obtain ⟨rfl, -, rfl, rfl, rfl⟩ := hq
  subst hbase hsize
  rfl

lemma QueueChange.layout_eq (h : QueueChange e t t') {qi : ℕ}
    (hbefore : (t.queues qi).ready = true) (hafter : (t'.queues qi).ready = true) :
    (t'.queues qi).layout = (t.queues qi).layout := by
  cases h with
  | same h => exact h qi
  | configured qi' q hold _ h =>
    have hne : qi ≠ qi' := by
      rintro rfl
      simp [hold] at hbefore
    rw [h, update_of_ne hne]
  | disabled qi' h =>
    have hne : qi ≠ qi' := by
      rintro rfl
      simp [h] at hafter
    rw [h, update_of_ne hne]
  | enabled qi' _ _ _ h =>
    by_cases hqi : qi = qi'
    · subst hqi
      rw [h, update_self, VirtQueue.layout, VirtQueue.layout, hbefore]
    · rw [h, update_of_ne hqi]
  | reset h => simp [h] at hafter

def Checked (base size : ℕ) (t : Transport D) : Prop :=
  ∀ qi, (t.queues qi).ready = true → ∀ ram : GuestRam, ram.base = base → ram.size = size →
    (t.queues qi).validateRings ram = .ok ()

def Event.OnRam (base size : ℕ) (e : Event) : Prop :=
  ∀ ram, e.Sees ram → ram.base = base ∧ ram.size = size

lemma QueueChange.checked (h : QueueChange e t t') {base size : ℕ} (hram : e.OnRam base size)
    (ht : Checked base size t) : Checked base size t' := by
  intro qi hready ram hbase hsize
  cases h with
  | same h =>
    have hready' : (t.queues qi).ready = true := by
      rw [← hready]
      exact congrArg Layout.ready (h qi).symm
    rw [validateRings_congr (h qi) rfl rfl]
    exact ht qi hready' ram hbase hsize
  | configured qi' q _ hnew h =>
    have hne : qi ≠ qi' := by
      rintro rfl
      simp [h, hnew] at hready
    rw [h, update_of_ne hne] at hready ⊢
    exact ht qi hready ram hbase hsize
  | disabled qi' h =>
    have hne : qi ≠ qi' := by
      rintro rfl
      simp [h] at hready
    rw [h, update_of_ne hne] at hready ⊢
    exact ht qi hready ram hbase hsize
  | enabled qi' ram' hsees hvalid h =>
    by_cases hqi : qi = qi'
    · subst hqi
      obtain ⟨hbase', hsize'⟩ := hram ram' hsees
      have hsame := @validateRings_congr (t.queues qi) (t.queues qi) _ _ rfl
        (hbase.trans hbase'.symm) (hsize.trans hsize'.symm)
      rw [h, update_self]
      exact hsame.trans hvalid
    · rw [h, update_of_ne hqi] at hready ⊢
      exact ht qi hready ram hbase hsize
  | reset h => simp [h] at hready

lemma run_checked {base size : ℕ} : ∀ (events : List Event) {t : Transport D},
    (∀ e ∈ events, e.OnRam base size) → Checked base size t → Checked base size (run t events)
  | [], _, _, h => h
  | e :: events, t, hram, h =>
    run_checked events (fun e' he' => hram e' (List.mem_cons_of_mem _ he'))
      ((step_queues t e).checked (hram e List.mem_cons_self) h)

lemma run_layout {qi : ℕ} : ∀ (events : List Event) {t : Transport D},
    (∀ k ≤ events.length, ((run t (events.take k)).queues qi).ready = true) →
      ((run t events).queues qi).layout = (t.queues qi).layout
  | [], _, _ => rfl
  | e :: events, t, hready => by
    have hstep : ((step t e).queues qi).layout = (t.queues qi).layout :=
      (step_queues t e).layout_eq (hready 0 (Nat.zero_le _)) (hready 1 (by simp))
    have hrest : ((run (step t e) events).queues qi).layout = ((step t e).queues qi).layout :=
      run_layout events fun k hk => hready (k + 1) (by simpa using hk)
    exact hrest.trans hstep

end Queues

/-- **The rings of a queue that is ready**, along every run with guest memory at one place: they
have passed the check with the queue's present layout, which stays for as long as the queue is
ready, and so taking a chain fails only for what its descriptors say, and giving one back does not
fail. -/
theorem ready_rings (dev : Device D) (context : D) {base size : ℕ} {events : List Event}
    (hram : ∀ e ∈ events, e.OnRam base size) : let t := run (Transport.init dev context) events
    Checked base size t ∧
      (∀ qi more, (∀ k ≤ more.length, ((run t (more.take k)).queues qi).ready = true) →
        ((run t more).queues qi).layout = (t.queues qi).layout) ∧
      ∀ (m : Machine D) (qi : ℕ), (m.queues qi).layout = (t.queues qi).layout →
        (t.queues qi).ready = true → m.ram.base = base → m.ram.size = size →
          (∀ e m', popAvail qi m = .error e m' →
            Queue.Fault (m.queues qi) Queue.maxChainLen (Queue.entryAt (m.queues qi) m.ram).2
              (Queue.entryAt (m.queues qi) m.ram).1 e) ∧
          ∀ head written, ∃ m', pushUsed qi head written m = .ok () m' := by
  intro t
  have hstart : Checked base size (Transport.init dev context) := fun _ hready => by cases hready
  have hchecked : Checked base size t := run_checked events hram hstart
  refine ⟨hchecked, fun qi more => run_layout more, ?_⟩
  intro m qi hlayout hready hbase hsize
  have hready' : (m.queues qi).ready = true := (congrArg Layout.ready hlayout).trans hready
  have hvalid : (m.queues qi).validateRings m.ram = .ok () := by
    rw [validateRings_congr hlayout rfl rfl]
    exact hchecked qi hready m.ram hbase hsize
  have hfit := Queue.ringsFit_of_validateRings hvalid
  exact ⟨fun e m' h => Queue.popAvail_error hready' hfit h, Queue.pushUsed_fits hready' hfit⟩

/-- The driver of the entropy device sets a queue of four descriptors up, in memory at address 0. -/
def setUpRng : List Event :=
  let ram : GuestRam := { base := 0, size := 4096, byte := fun _ => 0 }
  [.write 0x030 0 ram, .write 0x038 4 ram, .write 0x080 0x100 ram, .write 0x090 0x200 ram,
    .write 0x0a0 0x300 ram, .write 0x044 1 ram]

theorem setUpRng_ready_rings :
    ((run (Transport.init Device.ofRng { entropy := fun _ => 0 }) setUpRng).queues 0).ready = true ∧
      Checked 0 4096 (run (Transport.init Device.ofRng { entropy := fun _ => 0 }) setUpRng) := by
  refine ⟨by rfl, (ready_rings Device.ofRng { entropy := fun _ => 0 } fun e he => ?_).1⟩
  simp only [setUpRng, List.mem_cons, List.not_mem_nil, or_false] at he
  rcases he with rfl | rfl | rfl | rfl | rfl | rfl <;> (rintro ram rfl; exact ⟨rfl, rfl⟩)

end SporeVM.Virtio.Mmio
