import Mathlib.Data.Nat.Notation
import Mathlib.Data.List.Basic
import Mathlib.Logic.Relation

/-!
# Marking what can be reached

Depth-first marking in a graph of numbers whose edges go down: a node that is marked is left alone,
any other is marked before its successors. The fuel bounds the depth of the recursion.
-/

namespace Lib

variable (next : ℕ → List ℕ)

def mark : ℕ → (ℕ → Bool) → ℕ → (ℕ → Bool)
  | 0, marks, _ => marks
  | fuel + 1, marks, i =>
    if marks i = true then marks
    else (next i).foldl (mark fuel) (Function.update marks i true)

def ClosedBelow (n : ℕ) (marks : ℕ → Bool) : Prop :=
  ∀ i < n, marks i = true → ∀ j ∈ next i, marks j = true

def Reaches (i j : ℕ) : Prop := Relation.ReflTransGen (fun i j => j ∈ next i) i j

variable {next}

lemma ClosedBelow.of_reaches (hdown : ∀ i, ∀ j ∈ next i, j < i) {n : ℕ} {marks : ℕ → Bool}
    (h : ClosedBelow next n marks) {i j : ℕ} (hpath : Reaches next i j) (hi : i < n)
    (hmark : marks i = true) : marks j = true := by
  induction hpath using Relation.ReflTransGen.head_induction_on with
  | refl => exact hmark
  | @head i k hedge _ ih => exact ih (Nat.lt_trans (hdown i k hedge) hi) (h i hi hmark k hedge)

/-- Marks that are added along paths keep the rest closed. -/
theorem ClosedBelow.extend {n : ℕ} {marks marks' : ℕ → Bool} (h : ClosedBelow next n marks) {i : ℕ}
    (hmarks : ∀ j, marks' j = true ↔ marks j = true ∨ Reaches next i j) :
    ClosedBelow next n marks' := by
  intro k hk hmark j hedge
  refine (hmarks j).mpr (((hmarks k).mp hmark).imp (fun hold => h k hk hold j hedge) ?_)
  exact fun hpath => hpath.tail hedge

lemma reaches_iff {i j : ℕ} : Reaches next i j ↔ j = i ∨ ∃ k ∈ next i, Reaches next k j := by
  unfold Reaches
  rw [Relation.ReflTransGen.cases_head_iff]
  exact or_congr eq_comm Iff.rfl

/-- The nodes of a list, one after the other, if every single one is marked as it should be. -/
theorem foldl_mark_iff {fuel n : ℕ}
    (hmark : ∀ (marks : ℕ → Bool) (i : ℕ), i < n → ClosedBelow next n marks →
      ∀ j, mark next fuel marks i j = true ↔ marks j = true ∨ Reaches next i j) :
    ∀ (nodes : List ℕ) (marks : ℕ → Bool), (∀ i ∈ nodes, i < n) → ClosedBelow next n marks →
      ∀ j, nodes.foldl (mark next fuel) marks j = true ↔
        marks j = true ∨ ∃ i ∈ nodes, Reaches next i j
  | [], marks, _, _, j => by simp
  | i :: nodes, marks, hnodes, hclosed, j => by
    have hi := hmark marks i (hnodes i List.mem_cons_self) hclosed
    have hrest := foldl_mark_iff hmark nodes (mark next fuel marks i)
      (fun k hk => hnodes k (List.mem_cons_of_mem i hk)) (hclosed.extend hi) j
    rw [List.foldl_cons, hrest, hi j, or_assoc]
    simp only [List.exists_mem_cons_iff]

/-- Marking from a node adds the nodes that can be reached from it. -/
theorem mark_iff (hdown : ∀ i, ∀ j ∈ next i, j < i) :
    ∀ (fuel : ℕ) (marks : ℕ → Bool) (i : ℕ), i < fuel → ClosedBelow next (i + 1) marks →
      ∀ j, mark next fuel marks i j = true ↔ marks j = true ∨ Reaches next i j
  | 0, _, i, hfuel, _, _ => absurd hfuel (Nat.not_lt_zero i)
  | fuel + 1, marks, i, hfuel, hclosed, j => by
    by_cases hmarked : marks i = true
    · rw [mark, if_pos hmarked]
      exact ⟨.inl, fun h => h.elim id fun hpath =>
        hclosed.of_reaches hdown hpath (Nat.lt_succ_self i) hmarked⟩
    · -- The node itself does not lie below its successors, so they find the rest closed.
      have hbelow : ClosedBelow next i (Function.update marks i true) := by
        intro k hk hmark l hedge
        rw [Function.update_of_ne (by omega)] at hmark
        have hl := hclosed k (by omega) hmark l hedge
        have hne : l ≠ i := Nat.ne_of_lt (Nat.lt_trans (hdown k l hedge) hk)
        rw [Function.update_of_ne hne]
        exact hl
      have hnodes := foldl_mark_iff (n := i) (fun marks k hk hclosed =>
        mark_iff hdown fuel marks k (by omega) fun l hl => hclosed l (by omega))
        (next i) _ (hdown i) hbelow j
      rw [mark, if_neg hmarked, hnodes, reaches_iff]
      by_cases hj : j = i
      · simp [hj]
      · simp [hj]

end Lib
