import Mathlib.Computability.EpsilonNFA

/-!
# Languages of the states of an automaton

What an automaton reads from a state on, and how that follows from its edges. The edges that read
nothing are closed in one pass where they only lead forward.
-/

namespace Lib.Automaton

variable {α σ : Type} (M : εNFA α σ)

def residual (s : σ) : Language α := { w | ∃ t ∈ M.accept, t ∈ M.evalFrom {s} w }

variable {M}

lemma mem_residual_iff_path {s : σ} {w : List α} : w ∈ residual M s ↔
    ∃ t ∈ M.accept, ∃ x, x.reduceOption = w ∧ M.IsPath s t x := by
  refine exists_congr fun t => and_congr_right fun _ => ?_
  exact εNFA.mem_evalFrom_iff_exists_path M

/-- A word is read by stopping here, by an edge that reads nothing, or by one for its first
letter. -/
theorem mem_residual {s : σ} {w : List α} : w ∈ residual M s ↔ (s ∈ M.accept ∧ w = []) ∨
    (∃ t ∈ M.step s none, w ∈ residual M t) ∨
    ∃ a v, w = a :: v ∧ ∃ t ∈ M.step s (some a), v ∈ residual M t := by
  constructor
  · intro h
    obtain ⟨t, ht, x, rfl, hpath⟩ := mem_residual_iff_path.mp h
    cases hpath with
    | nil => exact .inl ⟨ht, rfl⟩
    | cons u _ _ a x hstep hrest =>
      cases a with
      | none => exact .inr (.inl ⟨u, hstep, mem_residual_iff_path.mpr ⟨t, ht, x, rfl, hrest⟩⟩)
      | some a =>
        exact .inr (.inr ⟨a, x.reduceOption, rfl, u, hstep,
          mem_residual_iff_path.mpr ⟨t, ht, x, rfl, hrest⟩⟩)
  · rintro (⟨hs, rfl⟩ | ⟨u, hu, h⟩ | ⟨a, v, rfl, u, hu, h⟩)
    · exact mem_residual_iff_path.mpr ⟨s, hs, [], rfl, .nil s⟩
    · obtain ⟨t, ht, x, rfl, hpath⟩ := mem_residual_iff_path.mp h
      exact mem_residual_iff_path.mpr ⟨t, ht, none :: x, rfl, .cons u s t none x hu hpath⟩
    · obtain ⟨t, ht, x, rfl, hpath⟩ := mem_residual_iff_path.mp h
      exact mem_residual_iff_path.mpr ⟨t, ht, some a :: x, rfl, .cons u s t (some a) x hu hpath⟩

section Shapes

def letter (p : α → Prop) : Language α := { w | ∃ a, p a ∧ w = [a] }

def run (p : α → Prop) : Language α := { w | ∀ a ∈ w, p a }

def upTo (p : α → Prop) : Language α := { w | ∃ v a, p a ∧ w = v ++ [a] }

variable {s t : σ} {p : α → Prop}

lemma run_mul_run : run p * run p = run p := by
  ext w
  constructor
  · rintro ⟨u, hu, v, hv, rfl⟩
    exact fun a ha => (List.mem_append.mp ha).elim (hu a) (hv a)
  · exact fun hw => ⟨w, hw, [], fun _ h => absurd h List.not_mem_nil, List.append_nil w⟩

/-- A state that reads one letter. -/
theorem residual_read (hs : s ∉ M.accept) (hnone : M.step s none = ∅)
    (hsome : ∀ a, M.step s (some a) = { u | p a ∧ u = t }) :
    residual M s = letter p * residual M t := by
  ext w
  rw [mem_residual, Language.mem_mul, hnone]
  constructor
  · rintro (⟨hacc, -⟩ | ⟨_, hempty, -⟩ | ⟨a, v, rfl, u, hu, hv⟩)
    · exact absurd hacc hs
    · exact hempty.elim
    · rw [hsome] at hu
      exact ⟨[a], ⟨a, hu.1, rfl⟩, v, hu.2 ▸ hv, rfl⟩
  · rintro ⟨_, ⟨a, ha, rfl⟩, v, hv, rfl⟩
    exact .inr (.inr ⟨a, v, rfl, t, by rw [hsome]; exact ⟨ha, rfl⟩, hv⟩)

/-- A state that reads letters until it moves on without reading. -/
theorem residual_loop (hs : s ∉ M.accept) (hnone : M.step s none = {t})
    (hsome : ∀ a, M.step s (some a) = { u | p a ∧ u = s }) :
    residual M s = run p * residual M t := by
  ext w
  induction w with
  | nil =>
    rw [mem_residual, hnone]
    constructor
    · rintro (⟨hacc, -⟩ | ⟨_, rfl, hv⟩ | ⟨a, v, hcons, -⟩)
      · exact absurd hacc hs
      · exact ⟨[], fun _ h => absurd h List.not_mem_nil, [], hv, rfl⟩
      · cases hcons
    · rintro ⟨u, -, v, hv, happend⟩
      obtain ⟨rfl, rfl⟩ := List.append_eq_nil_iff.mp happend
      exact .inr (.inl ⟨t, rfl, hv⟩)
  | cons c w ih =>
    rw [mem_residual, hnone]
    constructor
    · rintro (⟨hacc, -⟩ | ⟨_, rfl, hv⟩ | ⟨a, v, hcons, u, hu, hv⟩)
      · exact absurd hacc hs
      · exact ⟨[], fun _ h => absurd h List.not_mem_nil, c :: w, hv, rfl⟩
      · obtain ⟨rfl, rfl⟩ := List.cons.inj hcons
        rw [hsome] at hu
        obtain ⟨run, hrun, rest, hrest, rfl⟩ := ih.mp (hu.2 ▸ hv)
        exact ⟨c :: run, List.forall_mem_cons.mpr ⟨hu.1, hrun⟩, rest, hrest, rfl⟩
    · rintro ⟨_ | ⟨a, run⟩, hrun, rest, hrest, happend⟩
      · exact .inr (.inl ⟨t, rfl, happend ▸ hrest⟩)
      · obtain ⟨rfl, rfl⟩ := List.cons.inj happend
        obtain ⟨ha, hrun⟩ := List.forall_mem_cons.mp hrun
        refine .inr (.inr ⟨a, run ++ rest, rfl, s, by rw [hsome]; exact ⟨ha, rfl⟩, ?_⟩)
        exact ih.mpr ⟨run, hrun, rest, hrest, rfl⟩

lemma residual_until (hs : s ∉ M.accept) (hnone : M.step s none = ∅)
    (hsome : ∀ a, M.step s (some a) = { u | u = s ∨ p a ∧ u = t }) :
    residual M s = upTo p * residual M t := by
  ext w
  induction w with
  | nil =>
    rw [mem_residual, hnone]
    constructor
    · rintro (⟨hacc, -⟩ | ⟨_, hempty, -⟩ | ⟨a, v, hcons, -⟩)
      · exact absurd hacc hs
      · exact hempty.elim
      · cases hcons
    · rintro ⟨_, ⟨v, a, -, rfl⟩, rest, -, happend⟩
      simp at happend
  | cons c w ih =>
    rw [mem_residual, hnone]
    constructor
    · rintro (⟨hacc, -⟩ | ⟨_, hempty, -⟩ | ⟨a, v, hcons, u, hu, hv⟩)
      · exact absurd hacc hs
      · exact hempty.elim
      · obtain ⟨rfl, rfl⟩ := List.cons.inj hcons
        rw [hsome] at hu
        rcases hu with rfl | ⟨hc, rfl⟩
        · obtain ⟨_, ⟨front, a, ha, rfl⟩, rest, hrest, rfl⟩ := ih.mp hv
          exact ⟨_, ⟨c :: front, a, ha, rfl⟩, rest, hrest, rfl⟩
        · exact ⟨[c], ⟨[], c, hc, rfl⟩, w, hv, rfl⟩
    · rintro ⟨_, ⟨_ | ⟨b, front⟩, a, ha, rfl⟩, rest, hrest, happend⟩
      · obtain ⟨rfl, rfl⟩ := List.cons.inj happend
        exact .inr (.inr ⟨a, rest, rfl, t, by rw [hsome]; exact .inr ⟨ha, rfl⟩, hrest⟩)
      · obtain ⟨rfl, rfl⟩ := List.cons.inj happend
        refine .inr (.inr ⟨b, _, rfl, s, by rw [hsome]; exact .inl rfl, ?_⟩)
        exact ih.mpr ⟨_, ⟨front, a, ha, rfl⟩, rest, hrest, rfl⟩

end Shapes

-- ══ Closing in one pass

section Pass

variable {M : εNFA α ℕ} {n : ℕ} {S : Set ℕ} (pass : ℕ → Set ℕ)

/-- Where the edges that read nothing lead forward, one pass over the states adds all that can be
reached by them. -/
theorem εClosure_of_pass (hforward : ∀ i, ∀ j ∈ M.step i none, i < j ∧ i < n) (hzero : pass 0 = S)
    (hsucc : ∀ i < n, pass (i + 1) = pass i ∪ { j | i ∈ pass i ∧ j ∈ M.step i none }) :
    pass n = M.εClosure S := by
  -- behind the pass every state that is in has its successors in, and in front nothing is lost
  have hinv : ∀ k ≤ n, S ⊆ pass k ∧ pass k ⊆ M.εClosure S ∧
      ∀ i < k, i ∈ pass k → ∀ j ∈ M.step i none, j ∈ pass k := by
    intro k hk
    induction k with
    | zero =>
      rw [hzero]
      exact ⟨subset_rfl, M.subset_εClosure S, fun i hi => absurd hi (Nat.not_lt_zero i)⟩
    | succ k ih =>
      obtain ⟨hbase, hsound, hclosed⟩ := ih (Nat.le_of_succ_le hk)
      rw [hsucc k hk]
      refine ⟨hbase.trans Set.subset_union_left, Set.union_subset hsound ?_, ?_⟩
      · rintro j ⟨hin, hedge⟩
        exact εNFA.εClosure.step k j hedge (hsound hin)
      · intro i hi hin j hedge
        have hold : i ∈ pass k := by
          rcases hin with hin | ⟨-, hback⟩
          · exact hin
          · exact absurd (hforward k i hback).1 (by omega)
        rcases Nat.lt_succ_iff_lt_or_eq.mp hi with hlt | rfl
        · exact .inl (hclosed i hlt hold j hedge)
        · exact .inr ⟨hold, hedge⟩
  obtain ⟨hbase, hsound, hclosed⟩ := hinv n le_rfl
  refine hsound.antisymm fun j hj => ?_
  induction hj with
  | base j hj => exact hbase hj
  | step i j hedge _ ih => exact hclosed i (hforward i j hedge).2 ih j hedge

end Pass

end Lib.Automaton
