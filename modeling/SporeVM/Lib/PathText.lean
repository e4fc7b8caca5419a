import Mathlib.Data.List.Basic
import Mathlib.Data.List.TakeWhile
import Mathlib.Tactic.Common

/-!
# Paths as text

A path is written as text with `/` between its names, and one place can be written in many ways.
`components` takes a text apart at the separators, `written` puts names together again, and
`joinTwo` joins two texts as a path library does. -/

namespace Lib.PathText

open List

abbrev Text := List Char

def sep : Char := '/'

def components : Text → List Text
  | [] => [[]]
  | c :: cs =>
    if c = sep then [] :: components cs
    else
      match components cs with
      | [] => [[c]]
      | first :: rest => (c :: first) :: rest

def dot : Text := ['.']

def dotDot : Text := ['.', '.']

def isAbsolute (path : Text) : Prop := path.head? = some sep

instance decidableIsAbsolute (path : Text) : Decidable (isAbsolute path) :=
  inferInstanceAs (Decidable (_ = _))

structure Plain (name : Text) : Prop where
  nonempty : name ≠ []
  no_sep : sep ∉ name
  ne_dot : name ≠ dot
  ne_dotDot : name ≠ dotDot

instance decidablePlain : DecidablePred Plain := fun name =>
  decidable_of_iff (name ≠ [] ∧ sep ∉ name ∧ name ≠ dot ∧ name ≠ dotDot)
    ⟨fun ⟨h₁, h₂, h₃, h₄⟩ => ⟨h₁, h₂, h₃, h₄⟩,
      fun h => ⟨h.nonempty, h.no_sep, h.ne_dot, h.ne_dotDot⟩⟩

def joinTwo (a b : Text) : Text :=
  if b = [] then a
  else if a = [] then b
  else if a.getLast? = some sep then
    if b.head? = some sep then a ++ b.tail else a ++ b
  else if b.head? = some sep then a ++ b
  else a ++ sep :: b

def basename (path : Text) : Text :=
  ((path.reverse.dropWhile (· = sep)).takeWhile (· ≠ sep)).reverse

lemma components_append_sep (a b : Text) :
    components (a ++ sep :: b) = components a ++ components b := by
  induction a with
  | nil => simp [components]
  | cons c cs ih =>
    by_cases hc : c = sep
    · simp [components, hc, ih]
    · have hne : components cs ≠ [] := by
        cases cs with
        | nil => simp [components]
        | cons d ds =>
          unfold components
          split
          · simp
          · split <;> simp
      simp only [cons_append, components, if_neg hc, ih]
      cases hcs : components cs with
      | nil => exact absurd hcs hne
      | cons first rest => simp

lemma components_of_no_sep {name : Text} (h : sep ∉ name) : components name = [name] := by
  induction name with
  | nil => rfl
  | cons c cs ih =>
    have hc : c ≠ sep := fun hc => h (hc ▸ mem_cons_self)
    have hcs : sep ∉ cs := fun hmem => h (mem_cons_of_mem c hmem)
    simp [components, if_neg hc, ih hcs]

lemma no_sep_of_mem_components {text part : Text} (h : part ∈ components text) : sep ∉ part := by
  induction text generalizing part with
  | nil =>
    rw [components, mem_singleton] at h
    simp [h]
  | cons c cs ih =>
    unfold components at h
    split at h
    · rcases mem_cons.mp h with rfl | h
      · simp
      · exact ih h
    · next hc =>
      split at h
      · rw [mem_singleton.mp h]
        simpa using Ne.symm hc
      · next first rest hcs =>
        rcases mem_cons.mp h with rfl | h
        · have hfirst : sep ∉ first := ih (by rw [hcs]; exact mem_cons_self)
          simp only [mem_cons, not_or]
          exact ⟨Ne.symm hc, hfirst⟩
        · exact ih (by rw [hcs]; exact mem_cons_of_mem _ h)

lemma join_child {a b : Text} (ha : a ≠ []) (hb : b ≠ []) (hseam : a.getLast? ≠ some sep)
    (hhead : b.head? ≠ some sep) : joinTwo a b = a ++ sep :: b := by
  unfold joinTwo
  rw [if_neg hb, if_neg ha, if_neg hseam, if_neg hhead]

lemma head_of_no_sep {name : Text} (h : sep ∉ name) : name.head? ≠ some sep := by
  intro hhead
  exact h (List.mem_of_head? hhead)

-- ══ Names written as a path

def written : List Text → Text
  | [] => []
  | [name] => name
  | name :: names => name ++ sep :: written names

lemma written_cons (first second : Text) (names : List Text) :
    written (first :: second :: names) = first ++ sep :: written (second :: names) := rfl

variable {names : List Text}

lemma written_append_singleton (h : names ≠ []) (name : Text) :
    written (names ++ [name]) = written names ++ sep :: name := by
  induction names with
  | nil => exact absurd rfl h
  | cons first names ih =>
    cases names with
    | nil => rfl
    | cons second names =>
      have hrest := ih (by simp)
      simp only [cons_append, written] at hrest ⊢
      rw [hrest, append_assoc, cons_append]

lemma components_written (hne : names ≠ []) (h : ∀ n ∈ names, sep ∉ n) :
    components (written names) = names := by
  induction names with
  | nil => exact absurd rfl hne
  | cons first names ih =>
    have hfirst := components_of_no_sep (h first mem_cons_self)
    cases names with
    | nil => exact hfirst
    | cons second names =>
      have hrest := ih (by simp) fun n hn => h n (mem_cons_of_mem _ hn)
      rw [written_cons, components_append_sep, hfirst, hrest, singleton_append]

lemma written_eq_nil (h : ∀ n ∈ names, n ≠ []) : written names = [] ↔ names = [] := by
  match names with
  | [] => simp [written]
  | [name] => simpa [written] using h name mem_cons_self
  | first :: second :: names => simp [written]

lemma head_written (h : ∀ n ∈ names, Plain n) : (written names).head? ≠ some sep := by
  match names with
  | [] => simp [written]
  | [name] => exact head_of_no_sep (h name mem_cons_self).no_sep
  | first :: second :: names =>
    have hfirst := h first mem_cons_self
    have hhead := head_of_no_sep hfirst.no_sep
    rwa [written_cons, head?_append_of_ne_nil _ hfirst.nonempty]

lemma dropWhile_ne_sep (text : Text) : text.dropWhile (· ≠ sep) = [] ∨
    ∃ rest, text.dropWhile (· ≠ sep) = sep :: rest := by
  induction text with
  | nil => exact .inl rfl
  | cons c cs ih =>
    by_cases hc : c = sep
    · exact .inr ⟨cs, by simp [hc]⟩
    · simpa [hc] using ih

end Lib.PathText
