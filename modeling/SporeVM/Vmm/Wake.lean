import Mathlib.Algebra.Order.Ring.Nat
import Mathlib.Data.Finset.Card
import Mathlib.Tactic.Common

/-!
# Wakes and the targets they call

`RunStdinControl` of `attach_stream.zig` and `Request` of `capture.zig` wake a run by calling a
function with a context. Both are atomics of their own, which `setWake` and `clearWake` store one
after the other, while any number of threads and signal handlers load them one after the other.
A wake counts itself before it loads and after it has called, and a new target waits until no
wake is counted. The count wraps at 2^32, so fewer wakes than that may be in flight at a time.
-/

namespace SporeVM.Wake

variable {Fn Ctx W : Type}

/-- A call of `setWake`, or of `clearWake` of a capture request. A null context is `none`. -/
inductive Op (Fn Ctx : Type)
  | setWake (fn : Fn) (context : Option Ctx)
  | clearWake

/-- What the call stores. -/
def Op.fn : Op Fn Ctx → Option Fn
  | .setWake fn _ => some fn
  | .clearWake => none

def Op.context : Op Fn Ctx → Option Ctx
  | .setWake _ context => context
  | .clearWake => none

/-- The pairs installed so far, with that of the call. -/
def Op.install (op : Op Fn Ctx) (installed : List (Fn × Option Ctx)) : List (Fn × Option Ctx) :=
  (op.fn.map (·, op.context)).toList ++ installed

/-- Where a thread is in `wake`. -/
inductive Place (Fn Ctx : Type)
  | idle
  | counted
  | loaded (fn : Fn)
  | ready (fn : Fn) (context : Option Ctx)
  | calling (fn : Fn) (context : Option Ctx)
  | leaving

/-- Where the calls that set the target are, which come one after the other: between two of them,
after the first of the two stores of one, or in its loop over the count. -/
inductive Stage (Fn Ctx : Type)
  | between
  | stored (op : Op Fn Ctx)
  | waiting

/-- The atomics and the threads. The code does not keep the rest: the target when the last call
returned, the pairs of the `setWake` calls so far and the calls that wakes have made. -/
structure State (Fn Ctx W : Type) where
  wakeFn : Option Fn
  wakeContext : Option Ctx
  wakesInFlight : UInt32
  place : W → Place Fn Ctx
  stage : Stage Fn Ctx
  todo : List (Op Fn Ctx)
  settledFn : Option Fn
  settledContext : Option Ctx
  installed : List (Fn × Option Ctx)
  calls : List (Fn × Option Ctx)

def start (ops : List (Op Fn Ctx)) : State Fn Ctx W :=
  ⟨none, none, 0, fun _ => .idle, .between, ops, none, none, [], []⟩

/-- The next step of `setWake` or `clearWake`. `setWake` stores the context first and `clearWake`
the function. -/
def setStep (s : State Fn Ctx W) : State Fn Ctx W :=
  match s.stage, s.todo with
  | .between, [] => s
  | .between, .setWake fn context :: todo =>
    { s with
      wakeContext := context
      stage := .stored (.setWake fn context)
      todo := todo
      installed := (fn, context) :: s.installed }
  | .between, .clearWake :: todo =>
    { s with wakeFn := none, stage := .stored .clearWake, todo := todo }
  | .stored (.setWake fn _), _ => { s with wakeFn := some fn, stage := .waiting }
  | .stored .clearWake, _ => { s with wakeContext := none, stage := .waiting }
  | .waiting, _ =>
    if s.wakesInFlight = 0 then
      { s with stage := .between, settledFn := s.wakeFn, settledContext := s.wakeContext }
    else s

variable [DecidableEq W]

def State.put (s : State Fn Ctx W) (w : W) (place : Place Fn Ctx) : State Fn Ctx W :=
  { s with place := Function.update s.place w place }

/-- The next step of a thread's `wake`. -/
def wakeStep (s : State Fn Ctx W) (w : W) : State Fn Ctx W :=
  match s.place w with
  | .idle => { s.put w .counted with wakesInFlight := s.wakesInFlight + 1 }
  | .counted => s.put w (s.wakeFn.elim .leaving .loaded)
  | .loaded fn => s.put w (.ready fn s.wakeContext)
  | .ready fn context => { s.put w (.calling fn context) with calls := (fn, context) :: s.calls }
  | .calling _ _ => s.put w .leaving
  | .leaving => { s.put w .idle with wakesInFlight := s.wakesInFlight - 1 }

/-- One step: of the thread that sets targets, or of a thread that wakes. -/
def step (s : State Fn Ctx W) : Option W → State Fn Ctx W
  | none => setStep s
  | some w => wakeStep s w

def run (s : State Fn Ctx W) (schedule : List (Option W)) : State Fn Ctx W :=
  schedule.foldl step s

-- ══ No wake reaches a target that was replaced

/-- The count is that of the threads in a wake. -/
def Counted (s : State Fn Ctx W) : Prop :=
  ∃ busy : Finset W, (∀ w, w ∈ busy ↔ s.place w ≠ .idle) ∧ .ofNat busy.card = s.wakesInFlight

/-- Before each step of the schedule fewer than 2^32 threads are in a wake. -/
def Few (s : State Fn Ctx W) : List (Option W) → Prop
  | [] => True
  | actor :: schedule =>
    (∃ busy : Finset W, (∀ w, s.place w ≠ .idle → w ∈ busy) ∧ busy.card < 2 ^ 32) ∧
      Few (step s actor) schedule

/-- What a thread has loaded is from the target when the last call returned, or from what the
atomics hold since. -/
def State.Recent (s : State Fn Ctx W) : Place Fn Ctx → Prop
  | .loaded f => s.settledFn = some f ∨ s.wakeFn = some f
  | .ready f c | .calling f c =>
    (s.settledFn = some f ∨ s.wakeFn = some f) ∧ (s.settledContext = c ∨ s.wakeContext = c)
  | _ => True

/-- Which of the two atomics a call has not stored yet. -/
def State.Settled (s : State Fn Ctx W) : Prop :=
  match s.stage with
  | .between => s.settledFn = s.wakeFn ∧ s.settledContext = s.wakeContext
  | .stored (.setWake _ _) => s.settledFn = s.wakeFn
  | .stored .clearWake => s.settledContext = s.wakeContext
  | .waiting => True

/-- No thread is in a call of a target that was replaced before the last call returned, or on its
way there; and when no call is under way, the last one has set the present target. -/
def Quiet (s : State Fn Ctx W) : Prop :=
  (∀ w, s.Recent (s.place w)) ∧ s.Settled

variable {s : State Fn Ctx W} {w : W} {place : Place Fn Ctx} {ops : List (Op Fn Ctx)}

lemma all_put {P : Place Fn Ctx → Prop} (h : ∀ v, P (s.place v)) (hplace : P place) (v : W) :
    P ((s.put w place).place v) := by
  rcases eq_or_ne v w with rfl | hne
  · simpa [State.put] using hplace
  · simpa [State.put, hne] using h v

variable (h : Counted s)

include h

lemma Counted.enter (hw : s.place w = .idle) (hplace : place ≠ .idle) :
    Counted { s.put w place with wakesInFlight := s.wakesInFlight + 1 } := by
  obtain ⟨busy, hbusy, hcard⟩ := h
  have hnot : w ∉ busy := fun hmem => (hbusy w).mp hmem hw
  refine ⟨insert w busy, fun v => ?_,
    by rw [Finset.card_insert_of_notMem hnot, UInt32.ofNat_add, hcard]; rfl⟩
  rcases eq_or_ne v w with rfl | hne
  · simp [State.put, hplace]
  · simp [State.put, hne, hbusy]

lemma Counted.leave (hw : s.place w ≠ .idle) :
    Counted { s.put w .idle with wakesInFlight := s.wakesInFlight - 1 } := by
  obtain ⟨busy, hbusy, hcard⟩ := h
  have hpos := Finset.card_erase_add_one ((hbusy w).mpr hw)
  refine ⟨busy.erase w, fun v => ?_, ?_⟩
  swap
  · rw [← hcard, ← hpos, UInt32.ofNat_add]
    exact (UInt32.add_sub_cancel _ _).symm
  rcases eq_or_ne v w with rfl | hne
  · simp [State.put]
  · simp [State.put, hne, hbusy]

lemma Counted.move (hw : s.place w ≠ .idle) (hplace : place ≠ .idle) : Counted (s.put w place) := by
  obtain ⟨busy, hbusy, hcard⟩ := h
  refine ⟨busy, fun v => ?_, hcard⟩
  rcases eq_or_ne v w with rfl | hne
  · simpa [State.put, hplace, hbusy] using hw
  · simp [State.put, hne, hbusy]

omit [DecidableEq W] in
lemma Counted.idle (hzero : s.wakesInFlight = 0) {all : Finset W}
    (hall : ∀ w, s.place w ≠ .idle → w ∈ all) (hfew : all.card < 2 ^ 32) (w : W) :
    s.place w = .idle := by
  obtain ⟨busy, hbusy, hcard⟩ := h
  have hle : busy.card ≤ all.card := Finset.card_le_card fun v hv => hall v ((hbusy v).mp hv)
  have hmod : busy.card % 2 ^ 32 = 0 := by
    simpa [hzero] using congrArg UInt32.toNat hcard
  rw [Nat.mod_eq_of_lt (hle.trans_lt hfew), Finset.card_eq_zero] at hmod
  by_contra hne
  simpa [hmod] using (hbusy w).mpr hne

lemma step_counted (actor : Option W) : Counted (step s actor) := by
  cases actor with
  | none =>
    simp only [step, setStep]
    split <;> try exact h
    split <;> exact h
  | some w =>
    simp only [step, wakeStep]
    split <;> rename_i hw
    · exact h.enter hw (by simp)
    · refine h.move (by simp [hw]) ?_
      cases s.wakeFn <;> simp
    · exact h.move (by simp [hw]) (by simp)
    · exact h.move (by simp [hw]) (by simp : Place.calling _ _ ≠ _)
    · exact h.move (by simp [hw]) (by simp)
    · exact h.leave (by simp [hw])

omit h

omit [DecidableEq W] in
lemma setStep_quiet (hcount : Counted s) {all : Finset W}
    (hall : ∀ w, s.place w ≠ .idle → w ∈ all) (hfew : all.card < 2 ^ 32) (h : Quiet s) :
    Quiet (setStep s) := by
  obtain ⟨hrecent, hsettled⟩ := h
  have hstore : ∀ {t : State Fn Ctx W}, t.settledFn = s.settledFn →
      t.settledContext = s.settledContext →
      (s.settledFn = s.wakeFn ∨ s.wakeFn = t.wakeFn) →
      (s.settledContext = s.wakeContext ∨ s.wakeContext = t.wakeContext) →
      ∀ w, t.Recent (s.place w) := by
    intro t hfn hcontext hsameFn hsameContext w
    have hw := hrecent w
    revert hw
    cases s.place w <;> simp only [State.Recent, hfn, hcontext] <;> grind
  cases hstage : s.stage with
  | between =>
    simp only [State.Settled, hstage] at hsettled
    cases htodo : s.todo with
    | nil => simpa only [setStep, hstage, htodo] using ⟨hrecent, by simp [State.Settled, *]⟩
    | cons op todo =>
      cases op <;> simp only [setStep, hstage, htodo]
      · exact ⟨hstore rfl rfl (.inl hsettled.1) (.inl hsettled.2), hsettled.1⟩
      · exact ⟨hstore rfl rfl (.inl hsettled.1) (.inl hsettled.2), hsettled.2⟩
  | stored op =>
    cases op <;> simp only [State.Settled, hstage] at hsettled <;> simp only [setStep, hstage]
    · exact ⟨hstore rfl rfl (.inl hsettled) (.inr rfl), trivial⟩
    · exact ⟨hstore rfl rfl (.inr rfl) (.inl hsettled), trivial⟩
  | waiting =>
    simp only [setStep, hstage]
    split
    · refine ⟨fun w => ?_, rfl, rfl⟩
      rw [show s.place w = .idle from hcount.idle (by assumption) hall hfew w]
      trivial
    · exact ⟨hrecent, hsettled⟩

lemma wakeStep_quiet (h : Quiet s) (w : W) : Quiet (wakeStep s w) := by
  obtain ⟨hrecent, hsettled⟩ := h
  have hw := hrecent w
  unfold wakeStep
  split <;> rename_i hplace <;> rw [hplace] at hw <;> refine ⟨all_put hrecent ?_, hsettled⟩
  · trivial
  · cases hfn : s.wakeFn with
    | none => trivial
    | some fn => exact .inr hfn
  · exact ⟨hw, .inr rfl⟩
  · exact hw
  · trivial
  · trivial

lemma step_quiet (hcount : Counted s) {actor : Option W} {schedule : List (Option W)}
    (hfew : Few s (actor :: schedule)) (h : Quiet s) : Quiet (step s actor) := by
  obtain ⟨⟨all, hall, hfew⟩, -⟩ := hfew
  cases actor with
  | none => exact setStep_quiet hcount hall hfew h
  | some w => exact wakeStep_quiet h w

omit [DecidableEq W] in
lemma start_quiet (ops : List (Op Fn Ctx)) :
    Counted (start ops : State Fn Ctx W) ∧ Quiet (start ops : State Fn Ctx W) :=
  ⟨⟨∅, by simp [start], rfl⟩, fun _ => trivial, rfl, rfl⟩

lemma run_quiet {schedule : List (Option W)} (hfew : Few s schedule) (hcount : Counted s)
    (h : Quiet s) : Quiet (run s schedule) := by
  induction schedule generalizing s with
  | nil => exact h
  | cons actor schedule ih =>
    exact ih hfew.2 (step_counted hcount actor) (step_quiet hcount hfew h)

-- ══ When every call is one that was installed

/-- Every call a wake has made is of a pair that one `setWake` stored. -/
def Paired (s : State Fn Ctx W) : Prop :=
  ∀ target ∈ s.calls, target ∈ s.installed

/-- Whether no call of the list puts its context beside another function that a wake can still
hold, unless the two are a pair that was installed as well. -/
def Compatible (installed : List (Fn × Option Ctx)) (fn : Option Fn) : List (Op Fn Ctx) → Prop
  | [] => True
  | op :: ops => (∀ old, fn = some old → (old, op.context) ∈ op.install installed) ∧
      Compatible (op.install installed) op.fn ops

/-- What a thread has loaded was installed, with the context it has or would load. -/
def Place.Paired (installed : List (Fn × Option Ctx)) (context : Option Ctx) : Place Fn Ctx → Prop
  | .loaded f => (f, context) ∈ installed
  | .ready f c | .calling f c => (f, c) ∈ installed
  | _ => True

/-- What is left to show at each stage, so that the calls to come are of installed pairs. -/
def Owed (s : State Fn Ctx W) : Prop :=
  match s.stage with
  | .stored (.setWake fn _) => (fn, s.wakeContext) ∈ s.installed ∧
      Compatible s.installed (some fn) s.todo
  | .stored .clearWake => (∀ w, (s.place w).Paired s.installed none) ∧ s.wakeFn = none ∧
      Compatible s.installed none s.todo
  | _ => Compatible s.installed s.wakeFn s.todo

structure Sound (s : State Fn Ctx W) : Prop where
  paired : Paired s
  places : ∀ w, (s.place w).Paired s.installed s.wakeContext
  current : ∀ f, s.wakeFn = some f → (f, s.wakeContext) ∈ s.installed
  owed : Owed s

omit [DecidableEq W] in
lemma Sound.places_of_quiet (h : Sound s) (hquiet : Quiet s)
    (hstage : s.stage = .between) {installed : List (Fn × Option Ctx)} {context : Option Ctx}
    (hmore : ∀ t ∈ s.installed, t ∈ installed)
    (hnew : ∀ f, s.wakeFn = some f → (f, context) ∈ installed) (w : W) :
    (s.place w).Paired installed context := by
  obtain ⟨hrecent, hsettled⟩ := hquiet
  simp only [State.Settled, hstage] at hsettled
  have hw := hrecent w
  revert hw
  cases s.place w <;> simp only [State.Recent, hsettled.1, hsettled.2, or_self]
  case loaded f => exact hnew f
  case ready f c | calling f c =>
    rintro ⟨hfn, rfl⟩
    exact hmore _ (h.current f hfn)
  all_goals exact fun _ => trivial

omit [DecidableEq W] in
lemma setStep_sound (hquiet : Quiet s) (h : Sound s) : Sound (setStep s) := by
  have howed := h.owed
  cases hstage : s.stage with
  | between =>
    cases htodo : s.todo with
    | nil => simpa only [setStep, hstage, htodo] using h
    | cons op todo =>
      simp only [Owed, hstage, htodo, Compatible] at howed
      have hplaces := h.places_of_quiet hquiet hstage
        (fun _ => List.mem_append_right (op.fn.map (·, op.context)).toList) howed.1
      cases op with
      | setWake fn context =>
        simp only [setStep, hstage, htodo]
        exact ⟨fun t ht => List.mem_cons_of_mem _ (h.paired t ht), hplaces, howed.1,
          List.mem_cons_self, howed.2⟩
      | clearWake =>
        simp only [setStep, hstage, htodo]
        exact ⟨h.paired, h.places, nofun, hplaces, rfl, howed.2⟩
  | stored op =>
    cases op with
    | setWake fn context =>
      simp only [Owed, hstage] at howed
      simp only [setStep, hstage]
      exact ⟨h.paired, h.places, fun f hf => Option.some.inj hf ▸ howed.1, howed.2⟩
    | clearWake =>
      simp only [Owed, hstage] at howed
      simp only [setStep, hstage, howed.2.1]
      exact ⟨h.paired, howed.1, nofun, howed.2.2⟩
  | waiting =>
    simp only [Owed, hstage] at howed
    simp only [setStep, hstage]
    split
    · exact ⟨h.paired, h.places, h.current, howed⟩
    · exact h

lemma Sound.put (h : Sound s) (hplace : place.Paired s.installed s.wakeContext)
    (hnull : s.wakeFn = none → (s.place w).Paired s.installed none →
      place.Paired s.installed none) : Sound (s.put w place) := by
  refine ⟨h.paired, all_put h.places hplace, h.current, ?_⟩
  have howed := h.owed
  unfold Owed at howed ⊢
  rw [show (s.put w place).stage = s.stage from rfl]
  split at howed
  · exact howed
  · exact ⟨all_put howed.1 (hnull howed.2.1 (howed.1 w)), howed.2⟩
  · exact howed

omit [DecidableEq W] in
lemma Sound.count (h : Sound s) (count : UInt32) :
    Sound { s with wakesInFlight := count } :=
  ⟨h.paired, h.places, h.current, h.owed⟩

lemma wakeStep_sound (h : Sound s) (w : W) : Sound (wakeStep s w) := by
  have hw := h.places w
  have hfree : ∀ place : Place Fn Ctx, (∀ context, place.Paired s.installed context) →
      Sound (s.put w place) := fun place hplace => h.put (hplace _) fun _ _ => hplace _
  unfold wakeStep
  split <;> rename_i hplace <;> rw [hplace] at hw
  · exact (hfree .counted fun _ => trivial).count _
  · cases hfn : s.wakeFn with
    | none => exact hfree .leaving fun _ => trivial
    | some fn => exact h.put (h.current fn hfn) fun hnone => by simp [hnone] at hfn
  · exact hfree _ fun _ => hw
  · have hput := hfree (.calling _ _) fun _ => hw
    refine ⟨fun t ht => ?_, hput.places, hput.current, hput.owed⟩
    rcases List.mem_cons.mp ht with rfl | ht
    · exact hw
    · exact h.paired t ht
  · exact hfree .leaving fun _ => trivial
  · exact (hfree .idle fun _ => trivial).count _

lemma run_sound {schedule : List (Option W)} (hfew : Few s schedule) (hcount : Counted s)
    (hquiet : Quiet s) (h : Sound s) : Sound (run s schedule) := by
  induction schedule generalizing s with
  | nil => exact h
  | cons actor schedule ih =>
    refine ih hfew.2 (step_counted hcount actor) (step_quiet hcount hfew hquiet) ?_
    cases actor with
    | none => exact setStep_sound hquiet h
    | some w => exact wakeStep_sound h w

/-- A state in which no target is being set and no thread wakes. -/
def calm (fn : Option Fn) (context : Option Ctx) (installed : List (Fn × Option Ctx))
    (ops : List (Op Fn Ctx)) : State Fn Ctx W :=
  ⟨fn, context, 0, fun _ => .idle, .between, ops, fn, context, installed, []⟩

/-- A wake that loads the function before a call stores its context, and the context after it,
makes a call that was never installed. -/
theorem exists_unpaired (w : W) :
    ∀ {fn : Option Fn} (context : Option Ctx) {installed : List (Fn × Option Ctx)},
      ¬Compatible installed fn ops → ∃ schedule, (∀ actor ∈ schedule, ∀ v ∈ actor, v = w) ∧
        ¬Paired (run (calm fn context installed ops : State Fn Ctx W) schedule) := by
  induction ops with
  | nil => exact fun _ _ h => absurd trivial h
  | cons op ops ih =>
    intro fn context installed h
    rw [Compatible, not_and_or] at h
    rcases h with h | h
    · simp only [not_forall] at h
      obtain ⟨old, rfl, hold⟩ := h
      refine ⟨[some w, some w, none, none, some w, some w], by simp, fun hpaired => hold ?_⟩
      cases op <;> simpa [run, step, wakeStep, setStep, calm, State.put, Paired, Op.install, Op.fn,
        Op.context] using hpaired
    · obtain ⟨schedule, hone, hrun⟩ := ih op.context h
      refine ⟨none :: none :: none :: schedule, by simpa using hone, ?_⟩
      cases op <;> exact hrun

lemma few_of_one {schedule : List (Option W)} (hone : ∀ actor ∈ schedule, ∀ v ∈ actor, v = w)
    (hidle : ∀ v, v ≠ w → s.place v = .idle) : Few s schedule := by
  induction schedule generalizing s with
  | nil => trivial
  | cons actor schedule ih =>
    refine ⟨⟨{w}, fun v hv => ?_, by simp⟩, ih (fun a ha => hone a (.tail _ ha)) fun v hv => ?_⟩
    · rw [Finset.mem_singleton]
      exact not_imp_comm.mp (hidle v) hv
    · rw [← hidle v hv]
      cases actor with
      | none =>
        simp only [step, setStep]
        split <;> try rfl
        split <;> rfl
      | some u =>
        cases hone _ (.head _) u rfl
        simp only [step, wakeStep]
        split <;> simp [State.put, hv]

/-- **Wakes.** In every interleaving of wakes, of which fewer than 2^32 are in flight at a time,
with a row of `setWake` and `clearWake` calls, the calls are of pairs installed together, and none
is or will be of a target replaced by a call that has returned, exactly if no call of the row can
put its context beside the function before it. The second half holds of every row. -/
theorem wakes_call_targets_iff [Inhabited W] (ops : List (Op Fn Ctx)) :
    (∀ schedule : List (Option W), Few (start ops) schedule →
        Paired (run (start ops) schedule) ∧ Quiet (run (start ops) schedule)) ↔
      Compatible [] none ops := by
  constructor
  · intro h
    by_contra hnot
    obtain ⟨schedule, hone, hrun⟩ := exists_unpaired (default : W) none hnot
    exact hrun (h schedule (few_of_one hone fun _ _ => rfl)).1
  · intro h schedule hfew
    obtain ⟨hcount, hquiet⟩ := start_quiet (W := W) ops
    have hsound : Sound (start ops : State Fn Ctx W) := ⟨nofun, fun _ => trivial, nofun, h⟩
    exact ⟨(run_sound hfew hcount hquiet hsound).paired, run_quiet hfew hcount hquiet⟩

def mixed : State ℕ ℕ Unit :=
  run (start [.setWake 1 (some 1), .setWake 2 (some 2)])
    [none, none, none, some (), some (), none, some (), some ()]

/-- A wake that was about to call function 1 with context 1 calls it with context 2, which is
for function 2. -/
theorem wake_mixes_targets : ∃ target ∈ mixed.calls, target ∉ mixed.installed := by
  decide

end SporeVM.Wake
