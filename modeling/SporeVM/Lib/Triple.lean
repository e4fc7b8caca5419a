import SporeVM.Lib.EState

/-!
# Both outcomes of computations with state and errors

`Triple P x Q E` says that `x`, started in a state with `P`, ends with `Q` of its reply and state
when it succeeds, and with `E` of its state when it fails. `Keeps P x Q` is the case of a property
`P` of states that holds after both outcomes. There is one rule for each way of composing
computations.

`outcome` turns a run into a value that holds the reply or the error together with the final state.
-/

namespace Lib.EState

variable {ε σ α β : Type} {P : σ → Prop} {E : σ → Prop}

def Triple (P : σ → Prop) (x : EStateM ε σ α) (Q : α → σ → Prop) (E : σ → Prop) : Prop :=
  ∀ s, P s →
    match x s with
    | .ok a s' => Q a s'
    | .error _ s' => E s'

def Keeps (P : σ → Prop) (x : EStateM ε σ α) (Q : α → Prop) : Prop :=
  Triple P x (fun a s => P s ∧ Q a) P

/-- The case that says nothing of the result. -/
abbrev Stays (P : σ → Prop) (x : EStateM ε σ α) : Prop := Keeps P x fun _ => True

variable {x : EStateM ε σ α} {f : α → EStateM ε σ β}

variable {a : α}

namespace Triple

variable {Q : α → σ → Prop}

lemma pure (h : ∀ s, P s → Q a s) : Triple P (Pure.pure a : EStateM ε σ α) Q E :=
  fun s hs => h s hs

lemma any (x : EStateM ε σ α) : Triple P x (fun _ _ => True) fun _ => True := by
  intro s _
  cases x s <;> trivial

lemma modify {f : σ → σ} {Q : PUnit → σ → Prop} (h : ∀ s, P s → Q ⟨⟩ (f s)) :
    Triple P (MonadState.modifyGet (fun s => (PUnit.unit, f s)) : EStateM ε σ PUnit) Q E :=
  fun s hs => h s hs

lemma bind {Q : α → σ → Prop} {R : β → σ → Prop}
    (hx : Triple P x Q E) (hf : ∀ a, Triple (Q a) (f a) R E) : Triple P (x >>= f) R E := by
  intro s hs
  have hstep := hx s hs
  change match EStateM.bind x f s with
    | .ok a s' => R a s'
    | .error _ s' => E s'
  unfold EStateM.bind
  cases hrun : x s with
  | ok a s' =>
    rw [hrun] at hstep
    exact hf a s' hstep
  | error e s' =>
    rw [hrun] at hstep
    exact hstep

variable {x : EStateM ε σ α}

lemma weaken {P' E' : σ → Prop} {Q' : α → σ → Prop} (hx : Triple P x Q E) (hP : ∀ s, P' s → P s)
    (hQ : ∀ a s, Q a s → Q' a s) (hE : ∀ s, E s → E' s) : Triple P' x Q' E' := by
  intro s hs
  have hstep := hx s (hP s hs)
  cases hrun : x s with
  | ok a s' =>
    rw [hrun] at hstep
    exact hQ a s' hstep
  | error e s' =>
    rw [hrun] at hstep
    exact hE s' hstep

lemma of_ok {Q' : α → σ → Prop} (hok : ∀ s a s', P s → x s = .ok a s' → Q' a s')
    (hx : Triple P x Q E) : Triple P x Q' E := by
  intro s hs
  have hstep := hx s hs
  cases hrun : x s with
  | ok a s' => exact hok s a s' hs hrun
  | error e s' =>
    rw [hrun] at hstep
    exact hstep

lemma error (hx : Triple P x Q E) {s s' : σ} {e : ε} (hs : P s) (hrun : x s = .error e s') : E s'
    := by
  have hstep := hx s hs
  rw [hrun] at hstep
  exact hstep

end Triple

namespace Keeps

variable {Q : α → Prop} {R : β → Prop}

lemma pure (h : Q a) : Keeps P (Pure.pure a : EStateM ε σ α) Q :=
  fun _ hs => ⟨hs, h⟩

lemma throw {e : ε} : Keeps P (MonadExcept.throw e : EStateM ε σ α) Q :=
  fun _ hs => hs

lemma get : Keeps P (MonadState.get : EStateM ε σ σ) P :=
  fun _ hs => ⟨hs, hs⟩

lemma modify {f : σ → σ} (h : ∀ s, P s → P (f s)) :
    Keeps P (MonadState.modifyGet (fun s => (PUnit.unit, f s)) : EStateM ε σ PUnit) fun _ => True :=
  fun s hs => ⟨h s hs, trivial⟩

lemma bind (hx : Keeps P x Q) (hf : ∀ a, Q a → Keeps P (f a) R) : Keeps P (x >>= f) R :=
  Triple.bind hx fun a s hs => hf a hs.2 s hs.1

variable {x : EStateM ε σ α}

lemma before {R : β → σ → Prop} (hx : Keeps P x Q) (hE : ∀ s, P s → E s)
    (hf : ∀ a, Q a → Triple P (f a) R E) : Triple P (x >>= f) R E :=
  Triple.bind (hx.weaken (fun _ hs => hs) (fun _ _ hs => hs) hE) fun a s hs => hf a hs.2 s hs.1

lemma bind_triple {R : β → σ → Prop} (hx : Keeps P x Q)
    (hf : ∀ a, Q a → Triple P (f a) R P) : Triple P (x >>= f) R P :=
  hx.before (fun _ hs => hs) hf

lemma mono {Q' : α → Prop} (hx : Keeps P x Q) (h : ∀ a, Q a → Q' a) : Keeps P x Q' :=
  Triple.weaken hx (fun _ hs => hs) (fun a _ hs => ⟨hs.1, h a hs.2⟩) fun _ hs => hs

lemma ok (hx : Keeps P x Q) {s s' : σ} (hs : P s) (hrun : x s = .ok a s') : P s' := by
  have hstep := hx s hs
  rw [hrun] at hstep
  exact hstep.1

lemma errors (hx : Keeps P x Q) : Triple P x (fun _ _ => True) P :=
  Triple.weaken hx (fun _ hs => hs) (fun _ _ _ => trivial) fun _ hs => hs

lemma check {x : Except ε α} (h : ∀ a, x = .ok a → Q a) :
    Keeps P (EState.check x : EStateM ε σ α) Q := by
  cases x with
  | ok a => exact Keeps.pure (h a rfl)
  | error e => exact Keeps.throw

lemma rejectIf {p : Prop} [Decidable p] {e : ε} :
    Keeps P (EState.rejectIf p e : EStateM ε σ Unit) fun _ => ¬ p := by
  unfold EState.rejectIf
  split
  · exact Keeps.throw
  · next h => exact Keeps.pure h

lemma guard {p : Prop} [Decidable p] {e : ε} (hx : Keeps P x Q) :
    Keeps P (EState.rejectIf p e >>= fun _ => x) Q :=
  rejectIf.bind fun _ _ => hx

lemma runIf {p : Prop} [Decidable p] {x : EStateM ε σ Unit}
    (h : p → Keeps P x fun _ => True) : Keeps P (EState.runIf p x) fun _ => True := by
  unfold EState.runIf
  split
  · next hp => exact h hp
  · exact Keeps.pure trivial

lemma mapError {f : ε → ε} (h : Keeps P x Q) : Keeps P (EState.mapError f x) Q := by
  intro s hs
  have hstep := h s hs
  unfold EState.mapError
  cases hrun : x s with
  | ok a s' =>
    rw [hrun] at hstep
    exact hstep
  | error e s' =>
    rw [hrun] at hstep
    exact hstep

lemma runAll {exec : β → EStateM ε σ α} (h : ∀ c, Keeps P (exec c) fun _ => True) :
    ∀ cs, Keeps P (EState.runAll exec cs) fun _ => True
  | [] => Keeps.pure trivial
  | c :: cs => (h c).bind fun _ _ => (runAll h cs).bind fun _ _ => Keeps.pure trivial

lemma foldlM {f : α → β → EStateM ε σ α} (h : ∀ a b, Keeps P (f a b) fun _ => True) :
    ∀ (bs : List β) (a : α), Keeps P (bs.foldlM f a) fun _ => True
  | [], _ => Keeps.pure trivial
  | b :: bs, a => by
    rw [List.foldlM_cons]
    exact (h a b).bind fun a' _ => foldlM h bs a'

lemma stays (h : Keeps P x Q) : Stays P x := h.mono fun _ _ => trivial

end Keeps

lemma Stays.pure : Stays P (Pure.pure a : EStateM ε σ α) := Keeps.pure trivial

lemma Stays.check {x : Except ε α} : Stays P (EState.check x : EStateM ε σ α) :=
  Keeps.check fun _ _ => trivial

def outcome (x : EStateM ε σ α) (s : σ) : Except ε α × σ :=
  match x s with
  | .ok a s' => (.ok a, s')
  | .error e s' => (.error e, s')

lemma outcome_cases (x : EStateM ε σ α) (s : σ) :
    (∃ a, (outcome x s).1 = .ok a ∧ x s = .ok a (outcome x s).2) ∨
      ∃ e, (outcome x s).1 = .error e ∧ x s = .error e (outcome x s).2 := by
  unfold outcome
  cases x s with
  | ok a s' => exact .inl ⟨a, rfl, rfl⟩
  | error e s' => exact .inr ⟨e, rfl, rfl⟩

/-- What holds in both outcomes holds in the state of the outcome. -/
theorem Triple.outcome (h : Triple P x (fun _ => E) E) {s : σ} (hs : P s) :
    E (EState.outcome x s).2 := by
  have hstep := h s hs
  unfold EState.outcome
  cases hrun : x s with
  | ok a s' =>
    rw [hrun] at hstep
    exact hstep
  | error e s' =>
    rw [hrun] at hstep
    exact hstep

lemma Keeps.outcome {Q : α → Prop} (h : Keeps P x Q) {s : σ} (hs : P s) :
    P (EState.outcome x s).2 :=
  Triple.outcome (h.weaken (fun _ hs => hs) (fun _ _ hs => hs.1) fun _ hs => hs) hs

lemma run_of_reply {s : σ} (h : (outcome x s).1 = .ok a) : x s = .ok a (outcome x s).2 := by
  rcases outcome_cases x s with ⟨b, hb, hrun⟩ | ⟨e, he, -⟩
  · rw [h] at hb
    cases hb
    exact hrun
  · rw [h] at he
    cases he

def attempt (x : EStateM ε σ α) (s : σ) : Except ε (α × σ) :=
  match x s with
  | .ok a s' => .ok (a, s')
  | .error e _ => .error e

lemma attempt_ok {s : σ} {result : α × σ} (h : attempt x s = .ok result) :
    x s = .ok result.1 result.2 := by
  unfold attempt at h
  cases hrun : x s with
  | ok a s' =>
    rw [hrun] at h
    cases h
    rfl
  | error e s' =>
    rw [hrun] at h
    cases h

end Lib.EState
