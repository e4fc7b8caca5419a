import SporeVM.Lib.Triple

/-!
# Outcomes of computations that keep a property

`Yields P x Q` says that `x`, started in a state with `P`, ends in a state with `P`, and that its
outcome, the reply or the error, satisfies `Q`. Programs that catch errors need to know which error
stands for what, so `Q` sees both. `OnOk Q` is the outcome predicate that speaks of replies alone.

`capture` turns the error of a computation into a value.
-/

namespace Lib.EState

variable {ε σ α β : Type} {P : σ → Prop}

def Yields (P : σ → Prop) (x : EStateM ε σ α) (Q : Except ε α → Prop) : Prop :=
  ∀ s, P s →
    match x s with
    | .ok a s' => P s' ∧ Q (.ok a)
    | .error e s' => P s' ∧ Q (.error e)

def OnOk (Q : α → Prop) : Except ε α → Prop
  | .ok a => Q a
  | .error _ => True

def capture (x : EStateM ε σ α) : EStateM ε σ (Except ε α) := fun s =>
  match x s with
  | .ok a s' => .ok (.ok a) s'
  | .error e s' => .ok (.error e) s'

variable {x : EStateM ε σ α}

variable {s s' : σ}

lemma capture_ok {r : Except ε α} : capture x s = .ok r s' ↔ outcome x s = (r, s') := by
  unfold capture outcome
  cases x s <;> simp

/-- What both outcomes keep, the captured computation keeps. -/
theorem Keeps.capture {P : σ → Prop} {Q : α → Prop} (h : Keeps P x Q) :
    Keeps P (EState.capture x) (OnOk Q) := by
  intro s hs
  have hstep := h s hs
  unfold EState.capture
  cases hrun : x s with
  | ok a s' =>
    rw [hrun] at hstep
    exact hstep
  | error e s' =>
    rw [hrun] at hstep
    exact ⟨hstep, trivial⟩

def onError (x : EStateM ε σ α) (c : EStateM ε σ Unit) : EStateM ε σ α := do
  let r ← capture x
  match r with
  | .ok a => pure a
  | .error e => do
    let _ ← capture c
    throw e

variable {c : EStateM ε σ Unit}

lemma onError_ok {a : α} : onError x c s = .ok a s' ↔ x s = .ok a s' := by
  constructor
  · intro h
    obtain ⟨r, s₁, hx, h⟩ := bind_ok.mp h
    cases r with
    | ok b =>
      obtain ⟨rfl, rfl⟩ := pure_ok.mp h
      rcases outcome_cases x s with ⟨b, hok, hrun⟩ | ⟨e, herr, -⟩
      · rw [capture_ok.mp hx] at hok hrun
        cases hok
        exact hrun
      · rw [capture_ok.mp hx] at herr
        cases herr
    | error e =>
      obtain ⟨_, _, -, h⟩ := bind_ok.mp h
      exact (throw_ok.mp h).elim
  · intro h
    refine bind_ok.mpr ⟨.ok a, s', capture_ok.mpr ?_, pure_ok.mpr ⟨rfl, rfl⟩⟩
    rw [outcome, h]

lemma Triple.onError {E E' : σ → Prop} {Q : α → σ → Prop} (hx : Triple P x Q E)
    (hc : Triple E c (fun _ => E') E') : Triple P (onError x c) Q E' := by
  intro s hs
  have hstep := hx s hs
  change match EStateM.bind (capture x) _ s with
    | .ok a s' => Q a s'
    | .error _ s' => E' s'
  unfold EStateM.bind capture
  cases hrun : x s with
  | ok a s' =>
    rw [hrun] at hstep
    exact hstep
  | error e s' =>
    rw [hrun] at hstep
    have hclean := hc s' hstep
    change match EStateM.bind (capture c) _ s' with
      | .ok a s' => Q a s'
      | .error _ s' => E' s'
    unfold EStateM.bind capture
    cases hrun' : c s' with
    | ok u s'' =>
      rw [hrun'] at hclean
      exact hclean
    | error e' s'' =>
      rw [hrun'] at hclean
      exact hclean

namespace Yields

variable {Q : Except ε α → Prop} {R : Except ε β → Prop}

lemma ok {x : EStateM ε σ α} (h : Yields P x Q) {a : α} (hs : P s)
    (hrun : x s = .ok a s') : P s' ∧ Q (.ok a) := by
  have hstep := h s hs
  rw [hrun] at hstep
  exact hstep

lemma error (h : Yields P x Q) {e : ε} (hs : P s) (hrun : x s = .error e s') :
    P s' ∧ Q (.error e) := by
  have hstep := h s hs
  rw [hrun] at hstep
  exact hstep

lemma outcome (h : Yields P x Q) {s : σ} (hs : P s) :
    P (EState.outcome x s).2 ∧ Q (EState.outcome x s).1 := by
  have hstep := h s hs
  unfold EState.outcome
  cases hrun : x s with
  | ok a s' =>
    rw [hrun] at hstep
    exact hstep
  | error e s' =>
    rw [hrun] at hstep
    exact hstep

lemma intro (hok : ∀ s a s', P s → x s = .ok a s' → P s' ∧ Q (.ok a))
    (herr : ∀ s e s', P s → x s = .error e s' → P s' ∧ Q (.error e)) : Yields P x Q := by
  intro s hs
  cases hrun : x s with
  | ok a s' => exact hok s a s' hs hrun
  | error e s' => exact herr s e s' hs hrun

lemma pure {a : α} (h : Q (.ok a)) : Yields P (Pure.pure a : EStateM ε σ α) Q :=
  fun _ hs => ⟨hs, h⟩

lemma throw {e : ε} (h : Q (.error e)) : Yields P (MonadExcept.throw e : EStateM ε σ α) Q :=
  fun _ hs => ⟨hs, h⟩

lemma mono {Q' : Except ε α → Prop} (hx : Yields P x Q) (h : ∀ r, Q r → Q' r) : Yields P x Q' :=
  intro (fun _ _ _ hs hrun => (hx.ok hs hrun).imp_right (h _))
    fun _ _ _ hs hrun => (hx.error hs hrun).imp_right (h _)

lemma bind {x : EStateM ε σ α} {f : α → EStateM ε σ β} (hx : Yields P x Q)
    (herr : ∀ e, Q (.error e) → R (.error e)) (hf : ∀ a, Q (.ok a) → Yields P (f a) R) :
    Yields P (x >>= f) R := by
  intro s hs
  change match EStateM.bind x f s with
    | .ok a s' => P s' ∧ R (.ok a)
    | .error e s' => P s' ∧ R (.error e)
  unfold EStateM.bind
  cases hrun : x s with
  | ok a s' =>
    obtain ⟨hP, hQ⟩ := hx.ok hs hrun
    exact hf a hQ s' hP
  | error e s' =>
    obtain ⟨hP, hQ⟩ := hx.error hs hrun
    exact ⟨hP, herr e hQ⟩

lemma seq {Q : α → Prop} {R : β → Prop} {f : α → EStateM ε σ β} (hx : Yields P x (OnOk Q))
    (hf : ∀ a, Q a → Yields P (f a) (OnOk R)) : Yields P (x >>= f) (OnOk R) :=
  hx.bind (fun _ _ => trivial) hf

lemma capture_bind {f : Except ε α → EStateM ε σ β} (hx : Yields P x Q)
    (hf : ∀ r, Q r → Yields P (f r) R) : Yields P (EState.capture x >>= f) R := by
  intro s hs
  change match EStateM.bind (EState.capture x) f s with
    | .ok a s' => P s' ∧ R (.ok a)
    | .error e s' => P s' ∧ R (.error e)
  unfold EStateM.bind EState.capture
  cases hrun : x s with
  | ok a s' =>
    obtain ⟨hP, hQ⟩ := hx.ok hs hrun
    exact hf _ hQ s' hP
  | error e s' =>
    obtain ⟨hP, hQ⟩ := hx.error hs hrun
    exact hf _ hQ s' hP

lemma check {x : Except ε α} (h : Q x) : Yields P (EState.check x : EStateM ε σ α) Q := by
  cases x with
  | ok a => exact Yields.pure h
  | error e => exact Yields.throw h

lemma rejectIf {p : Prop} [Decidable p] {e : ε} {Q : Except ε Unit → Prop}
    (herr : p → Q (.error e)) (hok : ¬ p → Q (.ok ())) :
    Yields P (EState.rejectIf p e : EStateM ε σ Unit) Q := by
  unfold EState.rejectIf
  split
  · next h => exact Yields.throw (herr h)
  · next h => exact Yields.pure (hok h)

lemma guard {p : Prop} [Decidable p] {e : ε} {R : α → Prop} (hx : Yields P x (OnOk R)) :
    Yields P (EState.rejectIf p e >>= fun _ => x) (OnOk R) :=
  seq (Q := fun _ => True) (Yields.rejectIf (fun _ => trivial) fun _ => trivial) fun _ _ => hx

end Yields

end Lib.EState
