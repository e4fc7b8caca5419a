import Mathlib.Data.List.Forall2
import Mathlib.Tactic.Common

/-!
# Successful runs of computations with state and errors

A computation of type `EStateM ε σ α` keeps its state when it fails. The lemmas below take a
successful run of a composite computation apart into successful runs of its parts, so that a proof
about a program peels one command after another with `obtain` and never unfolds the monad. The
same is done first for checks of type `Except ε α`, which have no state.
-/

namespace Lib.Check

variable {ε α β : Type} {f : α → Except ε β} {x : Except ε α}

lemma bind_ok {b : β} : (x >>= f) = .ok b ↔ ∃ a, x = .ok a ∧ f a = .ok b := by
  cases x with
  | ok a =>
    constructor
    · intro h
      exact ⟨a, rfl, h⟩
    · rintro ⟨a', ha, h⟩
      cases ha
      exact h
  | error e =>
    constructor
    · intro h
      cases h
    · rintro ⟨a', ha, _⟩
      cases ha

lemma seq_ok {x : Except ε Unit} {f : Unit → Except ε β} {b : β} :
    (x >>= f) = .ok b ↔ x = .ok () ∧ f () = .ok b := by
  rw [bind_ok]
  exact ⟨fun ⟨_, hx, hf⟩ => ⟨hx, hf⟩, fun ⟨hx, hf⟩ => ⟨(), hx, hf⟩⟩

lemma mapError_ok {ε' : Type} {f : ε → ε'} {a : α} : x.mapError f = .ok a ↔ x = .ok a := by
  cases x <;> simp [Except.mapError]

def rejectIf (p : Prop) [Decidable p] (e : ε) : Except ε Unit :=
  if p then .error e else .ok ()

/-- A check passes exactly when its failure condition does not hold. -/
@[simp] theorem rejectIf_ok {p : Prop} [Decidable p] {e : ε} {u : Unit} :
    rejectIf p e = .ok u ↔ ¬ p := by
  unfold rejectIf
  split <;> simp_all

variable {p : Prop}

variable {e : ε}

lemma rejectIf_bind [Decidable p] {f : Unit → Except ε β} :
    (rejectIf p e >>= f) = if p then .error e else f () := by
  unfold rejectIf
  split <;> rfl

def checkSome (o : Option α) (check : α → Except ε Unit) : Except ε Unit :=
  match o with
  | none => .ok ()
  | some a => check a

lemma ite_error_ok [Decidable p] {a : α} :
    (if p then .error e else x) = .ok a ↔ ¬ p ∧ x = .ok a := by
  split <;> simp_all

lemma rejectIf_bind_ok [Decidable p] {f : Unit → Except ε β} {b : β} :
    (rejectIf p e >>= f) = .ok b ↔ ¬ p ∧ f () = .ok b := by
  rw [rejectIf_bind, ite_error_ok]

lemma mapM_map_ok {f : β → Except ε α} {g : α → β} : ∀ {xs : List α},
    (∀ x ∈ xs, f (g x) = .ok x) → (xs.map g).mapM f = .ok xs
  | [], _ => rfl
  | x :: xs, h => by
    have hrest := mapM_map_ok fun y hy => h y (List.mem_cons_of_mem _ hy)
    rw [List.map_cons, List.mapM_cons]
    exact bind_ok.mpr ⟨x, h x List.mem_cons_self, bind_ok.mpr ⟨xs, hrest, rfl⟩⟩

lemma mapM_ok : ∀ {xs : List α} {ys : List β},
    xs.mapM f = .ok ys ↔ List.Forall₂ (fun x y => f x = .ok y) xs ys
  | [], ys => by
    rw [List.mapM_nil, List.forall₂_nil_left_iff]
    exact ⟨fun h => (Except.ok.inj h).symm, fun h => congrArg _ h.symm⟩
  | x :: xs, ys => by
    rw [List.mapM_cons, bind_ok, List.forall₂_cons_left_iff]
    constructor
    · rintro ⟨y, hy, h⟩
      obtain ⟨zs, hzs, h⟩ := bind_ok.mp h
      cases h
      exact ⟨y, zs, hy, mapM_ok.mp hzs, rfl⟩
    · rintro ⟨y, zs, hy, hzs, rfl⟩
      exact ⟨y, hy, bind_ok.mpr ⟨zs, mapM_ok.mpr hzs, rfl⟩⟩

lemma exists_of_mem_mapM {xs : List α} {ys : List β} {y : β} (h : xs.mapM f = .ok ys)
    (hy : y ∈ ys) : ∃ x ∈ xs, f x = .ok y := by
  have hall := mapM_ok.mp h
  clear h
  induction hall with
  | nil => cases hy
  | @cons x y' xs ys hx _ ih =>
    rcases List.mem_cons.mp hy with rfl | hy
    · exact ⟨x, List.mem_cons_self, hx⟩
    · obtain ⟨x', hmem, hx'⟩ := ih hy
      exact ⟨x', List.mem_cons_of_mem _ hmem, hx'⟩

lemma forM_ok {f : α → Except ε Unit} {xs : List α} :
    xs.forM f = .ok () ↔ ∀ x ∈ xs, f x = .ok () := by
  induction xs with
  | nil => simp [List.forM, pure, Except.pure]
  | cons x xs ih => rw [List.forall_mem_cons, ← ih]; exact seq_ok

lemma mapM_range_ok {f : ℕ → Except ε β} {ys : List β}
    (h : ∀ i (hi : i < ys.length), f i = .ok ys[i]) : (List.range ys.length).mapM f = .ok ys := by
  have hfrom : ∀ (ys : List β) (start : ℕ), (∀ i (hi : i < ys.length), f (start + i) = .ok ys[i]) →
      (List.range' start ys.length).mapM f = .ok ys := by
    intro ys
    induction ys with
    | nil =>
      intro start _
      rfl
    | cons y ys ih =>
      intro start hstep
      have hfirst : f start = .ok y := hstep 0 (Nat.zero_lt_succ _)
      have hrest := ih (start + 1) fun i hi => by
        have hi' := hstep (i + 1) (Nat.succ_lt_succ hi)
        rwa [Nat.add_right_comm]
      rw [List.length_cons, List.range'_succ, List.mapM_cons]
      exact bind_ok.mpr ⟨y, hfirst, bind_ok.mpr ⟨ys, hrest, rfl⟩⟩
  rw [List.range_eq_range']
  refine hfrom ys 0 fun i hi => ?_
  rw [Nat.zero_add]
  exact h i hi

def Raises (P : ε → Prop) (x : Except ε α) : Prop := ∀ e, x = .error e → P e

variable {y : Except ε α}

section Raises

variable {P : ε → Prop}

lemma Raises.ok (a : α) : Raises P (.ok a : Except ε α) := nofun

lemma Raises.error (h : P e) : Raises P (.error e : Except ε α) := by
  rintro _ ⟨⟩
  exact h

lemma Raises.ite [Decidable p] (hx : p → Raises P x)
    (hy : ¬ p → Raises P y) : Raises P (if p then x else y) := by
  split
  · next h => exact hx h
  · next h => exact hy h

lemma Raises.rejectIf [Decidable p] (h : P e) : Raises P (rejectIf p e) :=
  .ite (fun _ => .error h) fun _ => .ok ()

lemma Raises.refuse [Decidable p] (he : P e) (hx : Raises P x) :
    Raises P (if p then .error e else x) :=
  .ite (fun _ => .error he) fun _ => hx

lemma Raises.bind {x : Except ε α} {f : α → Except ε β} (hx : Raises P x)
    (hf : ∀ a, x = .ok a → Raises P (f a)) : Raises P (x >>= f) := by
  intro e h
  cases x with
  | ok a => exact hf a rfl e h
  | error e' =>
    cases h
    exact hx _ rfl

end Raises

def Agree (x y : Except ε α) : Prop := ∀ a, x = .ok a ↔ y = .ok a

def Fails (x : Except ε α) : Prop := ∀ a, x ≠ .ok a

lemma Agree.refl (x : Except ε α) : Agree x x := fun _ => Iff.rfl

lemma Agree.bind {x y : Except ε α} {f g : α → Except ε β} (h : Agree x y)
    (hrest : ∀ a, Agree (f a) (g a)) : Agree (x >>= f) (y >>= g) := by
  intro b
  rw [bind_ok, bind_ok]
  exact exists_congr fun a => and_congr (h a) (hrest a b)

lemma Fails.agree (hx : Fails x) (hy : Fails y) : Agree x y := fun a =>
  iff_of_false (hx a) (hy a)

lemma fails_error (e : ε) : Fails (.error e : Except ε α) := nofun

lemma Fails.bind {x : Except ε α} (h : Fails x) (f : α → Except ε β) : Fails (x >>= f) := by
  intro b hb
  obtain ⟨a, ha, -⟩ := bind_ok.mp hb
  exact h a ha

end Lib.Check

namespace Lib.EState

variable {ε σ α β : Type} {s : σ} {x : EStateM ε σ α} {f : α → EStateM ε σ β}

lemma bind_ok {s'' : σ} {b : β} :
    (x >>= f) s = .ok b s'' ↔ ∃ a s', x s = .ok a s' ∧ f a s' = .ok b s'' := by
  change EStateM.bind x f s = _ ↔ _
  unfold EStateM.bind
  cases hx : x s with
  | ok a s' =>
    constructor
    · intro h
      exact ⟨a, s', rfl, h⟩
    · rintro ⟨a', t, ht, h⟩
      cases ht
      exact h
  | error e s' =>
    constructor
    · intro h
      cases h
    · rintro ⟨a', t, ht, _⟩
      cases ht

variable {s' : σ} {a : α}

lemma bind_run (h : x s = .ok a s') (f : α → EStateM ε σ β) : (x >>= f) s = f a s' := by
  change EStateM.bind x f s = _
  unfold EStateM.bind
  rw [h]

lemma bind_error {s'' : σ} {e : ε} : (x >>= f) s = .error e s'' ↔
      x s = .error e s'' ∨ ∃ a s', x s = .ok a s' ∧ f a s' = .error e s'' := by
  change EStateM.bind x f s = _ ↔ _
  unfold EStateM.bind
  cases hx : x s with
  | ok a s' =>
    constructor
    · intro h
      exact .inr ⟨a, s', rfl, h⟩
    · rintro (h | ⟨a', t, ht, h⟩)
      · cases h
      · cases ht
        exact h
  | error e' s' =>
    constructor
    · intro h
      cases h
      exact .inl rfl
    · rintro (h | ⟨a', t, ht, -⟩)
      · cases h
        rfl
      · cases ht

@[simp] lemma pure_ok {b : α} : (pure a : EStateM ε σ α) s = .ok b s' ↔ a = b ∧ s = s' := by
  change EStateM.Result.ok a s = .ok b s' ↔ _
  simp

lemma bind_pure_ok {g : α → β} {b : β} :
    (x >>= fun a => pure (g a)) s = .ok b s' ↔ ∃ a, x s = .ok a s' ∧ g a = b := by
  simp only [bind_ok, pure_ok]
  grind

@[simp] lemma throw_ok {e : ε} : (throw e : EStateM ε σ α) s = .ok a s' ↔ False := by
  change EStateM.Result.error e s = .ok a s' ↔ _
  simp

@[simp] lemma get_ok {t : σ} : (get : EStateM ε σ σ) s = .ok t s' ↔ s = t ∧ s = s' := by
  change EStateM.Result.ok s s = .ok t s' ↔ _
  simp

@[simp] lemma modify_ok {f : σ → σ} {u : PUnit} :
    (modify f : EStateM ε σ PUnit) s = .ok u s' ↔ f s = s' := by
  change EStateM.Result.ok PUnit.unit (f s) = .ok u s' ↔ _
  simp

def check : Except ε α → EStateM ε σ α
  | .ok a => pure a
  | .error e => throw e

@[simp] lemma check_ok {x : Except ε α} :
    (check x : EStateM ε σ α) s = .ok a s' ↔ x = .ok a ∧ s = s' := by
  cases x with
  | ok b => simp [check]
  | error e => simp [check]

def rejectIf (p : Prop) [Decidable p] (e : ε) : EStateM ε σ Unit :=
  if p then throw e else pure ()

@[simp] lemma rejectIf_ok {p : Prop} [Decidable p] {e : ε} {u : Unit} :
    (rejectIf p e : EStateM ε σ Unit) s = .ok u s' ↔ ¬ p ∧ s = s' := by
  unfold rejectIf
  split <;> simp_all

-- A step that leaves the state alone is crossed at once: what follows it starts in the same state.
lemma get_bind_ok {f : σ → EStateM ε σ β} {b : β} :
    (get >>= f) s = .ok b s' ↔ f s s = .ok b s' := by
  simp [bind_ok]

lemma check_bind_ok {x : Except ε α} {b : β} :
    (check x >>= f) s = .ok b s' ↔ ∃ a, x = .ok a ∧ f a s = .ok b s' := by
  simp [bind_ok]

lemma rejectIf_bind_ok {p : Prop} [Decidable p] {e : ε} {f : Unit → EStateM ε σ β} {b : β} :
    (rejectIf p e >>= f) s = .ok b s' ↔ ¬ p ∧ f () s = .ok b s' := by
  constructor
  · intro h
    obtain ⟨_, _, hguard, h⟩ := bind_ok.mp h
    obtain ⟨hp, rfl⟩ := rejectIf_ok.mp hguard
    exact ⟨hp, h⟩
  · rintro ⟨hp, h⟩
    exact bind_ok.mpr ⟨(), s, rejectIf_ok.mpr ⟨hp, rfl⟩, h⟩

lemma rejectIf_error {p : Prop} [Decidable p] {e e' : ε} :
    (rejectIf p e : EStateM ε σ Unit) s = .error e' s' ↔ p ∧ e = e' ∧ s = s' := by
  unfold rejectIf
  split
  · next hp =>
    change EStateM.Result.error e s = .error e' s' ↔ _
    simp [hp]
  · next hp =>
    change EStateM.Result.ok () s = .error e' s' ↔ _
    simp [hp]

def runIf (p : Prop) [Decidable p] (x : EStateM ε σ Unit) : EStateM ε σ Unit :=
  if p then x else pure ()

lemma runIf_ok {p : Prop} [Decidable p] {x : EStateM ε σ Unit} {u : Unit} :
    runIf p x s = .ok u s' ↔ (p ∧ x s = .ok u s') ∨ (¬ p ∧ s = s') := by
  unfold runIf
  split <;> simp_all

def mapError (f : ε → ε) (x : EStateM ε σ α) : EStateM ε σ α := fun s =>
  match x s with
  | .ok a s' => .ok a s'
  | .error e s' => .error (f e) s'

@[simp] lemma mapError_ok {f : ε → ε} : mapError f x s = .ok a s' ↔ x s = .ok a s' := by
  unfold mapError
  cases x s <;> simp

/-- **Loop rule for a counting loop.** A property of the counter, the accumulator and the state that
every iteration carries to the next counter holds at the end. -/
theorem foldlM_range_ok {f : α → ℕ → EStateM ε σ α} {I : ℕ → α → σ → Prop} {n : ℕ}
    (hstep : ∀ k a s a' s', k < n → I k a s → f a k s = .ok a' s' → I (k + 1) a' s') {a' : α}
    (hI : I 0 a s) (h : (List.range n).foldlM f a s = .ok a' s') : I n a' s' := by
  induction n generalizing a' s' with
  | zero =>
    obtain ⟨rfl, rfl⟩ := pure_ok.mp h
    exact hI
  | succ n ih =>
    rw [List.range_succ, List.foldlM_append] at h
    obtain ⟨a₁, s₁, hfirst, h⟩ := bind_ok.mp h
    obtain ⟨a₂, s₂, hlast, h⟩ := bind_ok.mp h
    obtain ⟨rfl, rfl⟩ := pure_ok.mp h
    have hprev := ih (fun k a s a' s' hk => hstep k a s a' s' (by omega)) hfirst
    exact hstep n a₁ s₁ a₂ s₂ (by omega) hprev hlast

/-- **Loop rule for a counting loop that must succeed.** If every iteration succeeds, keeps the
state and carries the property on, so does the loop. -/
theorem foldlM_range_run {f : α → ℕ → EStateM ε σ α} {I : ℕ → α → Prop} {n : ℕ}
    (hstep : ∀ k a, k < n → I k a → ∃ a', f a k s = .ok a' s ∧ I (k + 1) a') (hI : I 0 a) :
    ∃ a', (List.range n).foldlM f a s = .ok a' s ∧ I n a' := by
  induction n with
  | zero => exact ⟨a, pure_ok.mpr ⟨rfl, rfl⟩, hI⟩
  | succ n ih =>
    obtain ⟨a₁, hrun, hprev⟩ := ih fun k a hk => hstep k a (by omega)
    obtain ⟨a₂, hlast, hnext⟩ := hstep n a₁ (by omega) hprev
    refine ⟨a₂, ?_, hnext⟩
    rw [List.range_succ, List.foldlM_append]
    refine bind_ok.mpr ⟨a₁, s, hrun, ?_⟩
    exact bind_ok.mpr ⟨a₂, s, hlast, pure_ok.mpr ⟨rfl, rfl⟩⟩

def runAll (exec : β → EStateM ε σ α) : List β → EStateM ε σ (List α)
  | [] => pure []
  | c :: cs => do
    let a ← exec c
    let as ← runAll exec cs
    pure (a :: as)

lemma runAll_ok {exec : β → EStateM ε σ α} {I : σ → Prop} {P : α → Prop}
    (hstep : ∀ c s a s', I s → exec c s = .ok a s' → I s' ∧ P a) :
    ∀ (cs : List β) (s : σ) (as : List α) (s' : σ), I s → runAll exec cs s = .ok as s' →
      I s' ∧ ∀ a ∈ as, P a := by
  intro cs
  induction cs with
  | nil =>
    intro s as s' hI h
    obtain ⟨rfl, rfl⟩ := pure_ok.mp h
    exact ⟨hI, by simp⟩
  | cons c cs ih =>
    intro s as s' hI h
    obtain ⟨a, s₁, ha, h⟩ := bind_ok.mp h
    obtain ⟨as', s₂, hrest, h⟩ := bind_ok.mp h
    obtain ⟨rfl, rfl⟩ := pure_ok.mp h
    obtain ⟨hI₁, hP⟩ := hstep c s a s₁ hI ha
    obtain ⟨hI₂, hPs⟩ := ih s₁ as' s₂ hI₁ hrest
    exact ⟨hI₂, List.forall_mem_cons.mpr ⟨hP, hPs⟩⟩

def specAll {τ : Type} (spec : β → τ → α × τ) : List β → τ → List α × τ
  | [], t => ([], t)
  | c :: cs, t =>
    ((spec c t).1 :: (specAll spec cs (spec c t).2).1, (specAll spec cs (spec c t).2).2)

/-- **Simulation rule.** If every successful command from a related pair of states replies as the
abstract machine does and ends in a related pair, then so does every successful list of commands. -/
theorem runAll_simulates {τ : Type} {exec : β → EStateM ε σ α} {spec : β → τ → α × τ}
    {R : σ → τ → Prop} (hstep : ∀ c s t a s', R s t → exec c s = .ok a s' →
      a = (spec c t).1 ∧ R s' (spec c t).2) :
    ∀ (cs : List β) (s : σ) (t : τ) (as : List α) (s' : σ), R s t →
      runAll exec cs s = .ok as s' →
      as = (specAll spec cs t).1 ∧ R s' (specAll spec cs t).2 := by
  intro cs
  induction cs with
  | nil =>
    intro s t as s' hR h
    obtain ⟨rfl, rfl⟩ := pure_ok.mp h
    exact ⟨rfl, hR⟩
  | cons c cs ih =>
    intro s t as s' hR h
    obtain ⟨a, s₁, ha, h⟩ := bind_ok.mp h
    obtain ⟨as', s₂, hrest, h⟩ := bind_ok.mp h
    obtain ⟨rfl, rfl⟩ := pure_ok.mp h
    obtain ⟨hreply, hR₁⟩ := hstep c s t a s₁ hR ha
    obtain ⟨hreplies, hR₂⟩ := ih s₁ _ as' s₂ hR₁ hrest
    exact ⟨by rw [specAll, hreply, hreplies], hR₂⟩

/-- The reply of a computation started in the state that a check returns, if both succeed. Equality
of replies can be decided where states, which hold functions, cannot be compared. -/
def replyFrom (start : Except ε σ) (x : EStateM ε σ α) : Option α :=
  match start with
  | .error _ => none
  | .ok s =>
    match x s with
    | .ok a _ => some a
    | .error _ _ => none

lemma ok_of_replyFrom {start : Except ε σ} (h : replyFrom start x = some a) :
    ∃ s s', start = .ok s ∧ x s = .ok a s' := by
  unfold replyFrom at h
  cases start with
  | error e => cases h
  | ok s =>
    cases hx : x s with
    | error e s' => simp [hx] at h
    | ok b s' =>
      simp only [hx, Option.some.injEq] at h
      exact ⟨s, s', rfl, by rw [hx, h]⟩

end Lib.EState
