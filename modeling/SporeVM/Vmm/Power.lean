import Mathlib.Data.List.FinRange
import Mathlib.Logic.Function.Basic
import Mathlib.Tactic.Common

/-!
# Which vCPUs run after a restore

The guest turns vCPUs on and off by PSCI calls, which `hvf/vm.zig` serves itself and KVM serves in
the kernel. `captureMachine` of `aarch64/vmm.zig` saves the registers of every vCPU and not whether
it is on: `apply` sets a vCPU running on HVF, and on KVM one that is made for a restore is made
without `POWER_OFF`. Interrupt controller and timers are left out.
-/

namespace SporeVM.Power

inductive Backend
  | hvf
  | kvm
deriving DecidableEq

/-- The registers that a start sets, and all others. -/
structure Regs (Rest : Type) where
  x0 : UInt64
  pc : UInt64
  cpsr : UInt64
  rest : Rest

/-- A vCPU: whether it is on, which is `run_state` on HVF and kept by the kernel on KVM. -/
structure Vcpu (Rest : Type) where
  on : Bool
  regs : Regs Rest

/-- What is saved of a vCPU. -/
structure VcpuState (Rest : Type) where
  index : ℕ
  mpidr : UInt64
  regs : Regs Rest

variable {Rest : Type} {n : ℕ} {backend : Backend}

def mpidrForIndex (index : ℕ) : UInt64 := 0x80000000 ||| UInt64.ofNat index

/-- The vCPU a CPU_ON names. That the kernel finds it by the same fields is assumed for KVM. -/
def psciTargetIndex (n : ℕ) (mpidr : UInt64) : Option (Fin n) :=
  if (mpidr >>> 32) &&& 0xff ≠ 0 then none
  else if h : (mpidr &&& 0x00ffffff).toNat < n then some ⟨_, h⟩
  else none

def Vcpu.startAt (vcpu : Vcpu Rest) (entry contextId : UInt64) : Vcpu Rest :=
  ⟨true, { vcpu.regs with cpsr := 0x3c5, pc := entry, x0 := contextId }⟩

/-- A new vCPU. On HVF it is off; on KVM it is parked only for a boot. -/
def create (backend : Backend) (restoring : Bool) (blank : Regs Rest) (i : Fin n) : Vcpu Rest :=
  ⟨match backend with
    | .hvf => false
    | .kvm => !(!restoring && i.val != 0), blank⟩

def boot (backend : Backend) (blank : Regs Rest) (entry dtb : UInt64) (i : Fin n) : Vcpu Rest :=
  if i.val = 0 then (create backend false blank i).startAt entry dtb
  else create backend false blank i

/-- Whether `run` of the vCPU enters the guest. A single vCPU always does on HVF. -/
def executes (backend : Backend) (m : Fin n → Vcpu Rest) (i : Fin n) : Bool :=
  match backend with
  | .hvf => !(decide (n > 1) && !(m i).on)
  | .kvm => (m i).on

/-- What a vCPU that runs does: it turns itself off, names one to be turned on, or computes. -/
inductive Act (Rest : Type)
  | cpuOff
  | cpuOn (target entry contextId : UInt64)
  | compute (regs : Regs Rest)

/-- CPU_ON and CPU_OFF are not supported on HVF with one vCPU. -/
def supported (backend : Backend) (n : ℕ) : Bool :=
  backend == .kvm || decide (n > 1)

/-- What an event does. On HVF the calls are those of `hvf/vm.zig`. On KVM they are code of the
kernel and not of this program: that it turns vCPUs on and off in the same way is an assumption. -/
def step (backend : Backend) (m : Fin n → Vcpu Rest) (event : Fin n × Act Rest) :
    Fin n → Vcpu Rest :=
  if !executes backend m event.1 then m
  else match event.2 with
    | .cpuOff =>
      if supported backend n then Function.update m event.1 { m event.1 with on := false } else m
    | .cpuOn target entry contextId =>
      if supported backend n then
        match psciTargetIndex n target with
        | none => m
        | some j => if (m j).on then m else Function.update m j ((m j).startAt entry contextId)
      else m
    | .compute regs => Function.update m event.1 { m event.1 with regs := regs }

def run (backend : Backend) (m : Fin n → Vcpu Rest) (events : List (Fin n × Act Rest)) :
    Fin n → Vcpu Rest :=
  events.foldl (step backend) m

def captureMachine (m : Fin n → Vcpu Rest) : List (VcpuState Rest) :=
  (List.finRange n).map fun i : Fin n => ⟨i, mpidrForIndex i, (m i).regs⟩

def Vcpu.apply (backend : Backend) (vcpu : Vcpu Rest) (state : VcpuState Rest) : Vcpu Rest :=
  match backend with
  | .hvf => ⟨true, state.regs⟩
  | .kvm => ⟨vcpu.on, state.regs⟩

/-- The vCPUs of a restored machine, or nothing where the saved state is of another platform. -/
def restoreMachine (backend : Backend) (blank : Regs Rest) (n : ℕ)
    (saved : List (VcpuState Rest)) : Option (Fin n → Vcpu Rest) :=
  if h : saved.length = n ∧ ∀ k : Fin saved.length,
      (saved.get k).index = k ∧ (saved.get k).mpidr = mpidrForIndex k then
    some fun i => (create backend true blank i).apply backend (saved.get (i.cast h.1.symm))
  else none

-- ══ What a restore keeps

/-- Whether the event is a CPU_ON that names the vCPU. -/
def Names (i : Fin n) (event : Fin n × Act Rest) : Prop :=
  ∃ target entry contextId, event.2 = .cpuOn target entry contextId ∧
    psciTargetIndex n target = some i

variable {m : Fin n → Vcpu Rest} {i : Fin n}

lemma step_off {event : Fin n × Act Rest} (hoff : (m i).on = false) (hnames : ¬Names i event) :
    (step backend m event i).on = false := by
  have hupdate : ∀ (j : Fin n) (vcpu : Vcpu Rest), (j = i → vcpu.on = false) →
      (Function.update m j vcpu i).on = false := by
    intro j vcpu hj
    rcases eq_or_ne i j with rfl | hne
    · simpa using hj rfl
    · simpa [hne] using hoff
  obtain ⟨caller, act⟩ := event
  unfold step
  split
  · exact hoff
  cases act with
  | cpuOff =>
    simp only
    split
    · exact hupdate _ _ fun _ => rfl
    · exact hoff
  | cpuOn target entry contextId =>
    simp only
    split
    · cases htarget : psciTargetIndex n target with
      | none => exact hoff
      | some j =>
        simp only
        split
        · exact hoff
        · refine hupdate j _ fun hji => absurd ⟨target, entry, contextId, rfl, ?_⟩ hnames
          rw [htarget, hji]
    · exact hoff
  | compute regs => exact hupdate _ _ fun h => h ▸ hoff

lemma run_off {events : List (Fin n × Act Rest)} (hoff : (m i).on = false)
    (hnames : ∀ event ∈ events, ¬Names i event) : (run backend m events i).on = false := by
  induction events generalizing m with
  | nil => exact hoff
  | cons event events ih =>
    exact ih (step_off hoff (hnames event (by simp))) fun e he => hnames e (by simp [he])

lemma executes_eq_false_iff :
    executes backend m i = false ↔ (m i).on = false ∧ supported backend n = true := by
  cases backend <;> simp [executes, supported, and_comm]

lemma executes_of_on (h : (m i).on = true) : executes backend m i = true := by
  cases backend <;> simp [executes, h]

lemma restoreMachine_capture (backend : Backend) (blank : Regs Rest) (m : Fin n → Vcpu Rest) :
    ∃ restored, restoreMachine backend blank n (captureMachine m) = some restored ∧
      ∀ i, (restored i).on = true := by
  have hsaved : (captureMachine m).length = n ∧ ∀ k : Fin (captureMachine m).length,
      ((captureMachine m).get k).index = k ∧
        ((captureMachine m).get k).mpidr = mpidrForIndex k := by
    refine ⟨by simp [captureMachine], fun k => ?_⟩
    simp only [List.get_eq_getElem]
    simp [captureMachine]
  refine ⟨_, dif_pos hsaved, fun i => ?_⟩
  cases backend <;> rfl

/-- **Power states.** A machine is booted, runs in any way and is captured; its restore succeeds.
The vCPUs that execute then are those that did at the capture, with each that is off staying so
until a CPU_ON names it, exactly if no vCPU was off at the capture. -/
theorem restored_power_iff (backend : Backend) (blank : Regs Rest) (entry dtb : UInt64)
    (history : List (Fin n × Act Rest)) :
    let captured := run backend (boot backend blank entry dtb) history
    ∃ restored, restoreMachine backend blank n (captureMachine captured) = some restored ∧
      (((∀ i, executes backend restored i = executes backend captured i) ∧
          ∀ early later i, executes backend (run backend restored early) i = false →
            (∀ event ∈ later, ¬Names i event) →
            executes backend (run backend restored (early ++ later)) i = false) ↔
        ∀ i, executes backend captured i = true) := by
  intro captured
  obtain ⟨restored, hrestored, hon⟩ := restoreMachine_capture backend blank captured
  refine ⟨restored, hrestored, fun h i => ?_, fun h => ⟨fun i => ?_, ?_⟩⟩
  · rw [← h.1 i]
    exact executes_of_on (hon i)
  · rw [h i]
    exact executes_of_on (hon i)
  · intro early later i hoff hnames
    obtain ⟨hpower, hsupported⟩ := executes_eq_false_iff.mp hoff
    rw [run, List.foldl_append]
    exact executes_eq_false_iff.mpr ⟨run_off hpower hnames, hsupported⟩

/-- A second vCPU that was never turned on executes after a restore. -/
theorem parked_vcpu_restored :
    executes .hvf (boot (n := 2) .hvf ⟨0, 0, 0, ()⟩ 0 0) 1 = false ∧
      (restoreMachine .hvf ⟨0, 0, 0, ()⟩ 2 (captureMachine (boot (n := 2) .hvf
        ⟨0, 0, 0, ()⟩ 0 0))).map (executes .hvf · 1) = some true := by
  decide

end SporeVM.Power
