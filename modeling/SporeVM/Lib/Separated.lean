import Mathlib.Tactic

/-!
# Parts with a separator between them

`[sep].intercalate` puts parts together and `List.splitOn sep` takes a text apart. The parts of a
text do not have the separator (`not_mem_of_mem_splitOn`), and parts that do not have it are known
from the text that they make (`intercalate_inj`).
-/

namespace Lib.Separated

open List

variable {α β : Type*}

section Split

variable [DecidableEq α]

lemma not_mem_of_mem_splitOn (sep : α) (text : List α) : ∀ part ∈ text.splitOn sep, sep ∉ part := by
  induction text with
  | nil => simp [splitOn]
  | cons c text ih =>
    intro part hpart
    rw [splitOn, splitOnP_cons_eq_if_modifyHead] at hpart
    split at hpart
    · rcases mem_cons.mp hpart with rfl | hpart
      · exact not_mem_nil
      · exact ih part hpart
    · next hc =>
      -- the element joins the first part of the rest
      cases hsplit : splitOnP (fun x => x == sep) text with
      | nil =>
        rw [hsplit] at hpart
        cases hpart
      | cons first parts =>
        rw [hsplit, modifyHead_cons] at hpart
        rcases mem_cons.mp hpart with rfl | hpart
        · have hfirst := ih first (by rw [splitOn, hsplit]; exact mem_cons_self)
          simp only [mem_cons, not_or]
          exact ⟨fun h => hc (by simp [h]), hfirst⟩
        · exact ih part (by rw [splitOn, hsplit]; exact mem_cons_of_mem _ hpart)

lemma intercalate_inj {sep : α} {parts parts' : List (List α)} (hne : parts ≠ [])
    (hne' : parts' ≠ []) (hfree : ∀ part ∈ parts, sep ∉ part) (hfree' : ∀ part ∈ parts', sep ∉ part)
    (heq : [sep].intercalate parts = [sep].intercalate parts') : parts = parts' := by
  rw [← splitOn_intercalate sep hfree hne, heq, splitOn_intercalate sep hfree' hne']

end Split

lemma intercalate_cons (sep : α) (part : List α) (parts : List (List α)) :
    [sep].intercalate (part :: parts) = part ++ parts.flatMap (sep :: ·) := by
  induction parts generalizing part with
  | nil => simp [intercalate]
  | cons next rest ih => rw [intercalate_cons_cons, ih]; simp

lemma map_intercalate (f : α → β) (sep : α) (parts : List (List α)) :
    ([sep].intercalate parts).map f = [f sep].intercalate (parts.map (map f)) := by
  cases parts with
  | nil => rfl
  | cons part rest => simp [intercalate_cons, map_flatMap, flatMap_map]

end Lib.Separated
