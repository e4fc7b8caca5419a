import SporeVM.Lib.PathText
import Mathlib.Data.List.Induction

/-!
# Trees with symbolic links

A tree says what stands at every place, a place being the list of names that lead to it from the
root of the file system without passing a link. `walk` takes the names of a path one after another,
as a kernel does, and follows the links it meets. It notes every place that it looks at.

The rules of a walk say where it is confined: an absolute target starts again at `top`, and `..`
does not go above it. With `top` at the root of the file system this is how a process sees paths,
with `top` at a directory it is how a process sees them that has this directory as its root.
-/

namespace Lib

open PathText
open List

abbrev Place := List Text

inductive LinkObject
  | directory
  | symlink (target : Text)
  | other
  deriving DecidableEq

structure LinkTree where
  object : Place → Option LinkObject
  root : object [] = some .directory
  parent : ∀ p n, object (p ++ [n]) ≠ none → object p = some .directory

inductive PathError
  | noEntry | notDirectory | isDirectory | tooManyLinks | nameTooLong | invalid | refused
  deriving DecidableEq

structure Rules where
  /-- Where absolute targets start, and where `..` ends. -/
  top : Place
  /-- What is read of the target of a link. -/
  seen : Text → Text
  /-- Whether a link at the end of the path is followed. -/
  follow : Bool
  /-- Whether the last name may be missing, as for a file that is to be made. -/
  create : Bool
  /-- Whether a separator, `.` and `..` need a directory before them. -/
  strict : Bool

structure Walked where
  reached : Except PathError Place
  touched : List Place

namespace Walked

def touching (w : Walked) (p : Place) : Walked := ⟨w.reached, p :: w.touched⟩

@[simp] lemma reached_touching (w : Walked) (p : Place) : (w.touching p).reached = w.reached := rfl

end Walked

variable {names : List Text} {o : LinkObject}

namespace LinkTree

def above (top cur : Place) : Place := if cur = top then top else cur.dropLast

def mayCreate (r : Rules) (rest : List Text) : Prop :=
  r.create = true ∧ if r.strict then rest = [] else ∀ name ∈ rest, name = []

instance (r : Rules) (rest : List Text) : Decidable (mayCreate r rest) :=
  inferInstanceAs (Decidable (_ ∧ _))

def walk (t : LinkTree) (r : Rules) (links : ℕ) (cur : Place) (names : List Text) : Walked :=
  match names with
  | [] => ⟨.ok cur, []⟩
  | name :: rest =>
    if r.strict = true ∧ t.object cur ≠ some .directory then ⟨.error .notDirectory, []⟩
    else if name = [] ∨ name = dot then walk t r links cur rest
    else if name = dotDot then (walk t r links (above r.top cur) rest).touching (above r.top cur)
    else
      match t.object (cur ++ [name]) with
      | none =>
        if t.object cur ≠ some .directory then ⟨.error .notDirectory, []⟩
        else if mayCreate r rest then ⟨.ok (cur ++ [name]), [cur ++ [name]]⟩
        else ⟨.error .noEntry, [cur ++ [name]]⟩
      | some (.symlink target) =>
        if r.follow = false ∧ rest = [] then ⟨.ok (cur ++ [name]), [cur ++ [name]]⟩
        else
          match links with
          | 0 => ⟨.error .tooManyLinks, [cur ++ [name]]⟩
          | links + 1 =>
            (walk t r links (if isAbsolute (r.seen target) then r.top else cur)
              (components (r.seen target) ++ rest)).touching (cur ++ [name])
      | some _ => (walk t r links (cur ++ [name]) rest).touching (cur ++ [name])
termination_by (links, names.length)

variable {t : LinkTree} {r : Rules} {links : ℕ} {cur : Place} {name : Text} {rest : List Text}

lemma directory_of_below (hnames : names ≠ [])
    (h : t.object (cur ++ names) ≠ none) : t.object cur = some .directory := by
  induction names using reverseRec with
  | nil => exact absurd rfl hnames
  | append_singleton names name ih =>
    rw [← append_assoc] at h
    have hparent := t.parent _ _ h
    by_cases hnil : names = []
    · rwa [hnil, append_nil] at hparent
    · exact ih hnil (by rw [hparent]; simp)

-- ══ One name

@[simp] lemma walk_nil : walk t r links cur [] = ⟨.ok cur, []⟩ := by
  rw [walk]

lemma walk_notDirectory (hstrict : r.strict = true) (hcur : t.object cur ≠ some .directory) :
    walk t r links cur (name :: rest) = ⟨.error .notDirectory, []⟩ := by
  rw [walk, if_pos ⟨hstrict, hcur⟩]

def Ordinary (name : Text) : Prop := ¬ (name = [] ∨ name = dot) ∧ name ≠ dotDot

lemma ordinary_of_plain (h : Plain name) : Ordinary name :=
  ⟨not_or.mpr ⟨h.nonempty, h.ne_dot⟩, h.ne_dotDot⟩

def Passable (t : LinkTree) (r : Rules) (cur : Place) : Prop :=
  ¬ (r.strict = true ∧ t.object cur ≠ some .directory)

variable (hcur : Passable t r cur)

include hcur

lemma walk_stay (hname : name = [] ∨ name = dot) :
    walk t r links cur (name :: rest) = walk t r links cur rest := by
  rw [walk, if_neg hcur, if_pos hname]

lemma walk_up : walk t r links cur (dotDot :: rest) =
      (walk t r links (above r.top cur) rest).touching (above r.top cur) := by
  rw [walk, if_neg hcur, if_neg (by decide), if_pos rfl]

variable (hname : Ordinary name)

include hname

lemma walk_missing (hobject : t.object (cur ++ [name]) = none) : walk t r links cur (name :: rest) =
      if t.object cur ≠ some .directory then ⟨.error .notDirectory, []⟩
      else if mayCreate r rest then ⟨.ok (cur ++ [name]), [cur ++ [name]]⟩
      else ⟨.error .noEntry, [cur ++ [name]]⟩ := by
  rw [walk, if_neg hcur, if_neg hname.1, if_neg hname.2, hobject]

lemma walk_link {target : Text} (hobject : t.object (cur ++ [name]) = some (.symlink target))
    (hfollow : ¬ (r.follow = false ∧ rest = [])) : walk t r (links + 1) cur (name :: rest) =
      (walk t r links (if isAbsolute (r.seen target) then r.top else cur)
        (components (r.seen target) ++ rest)).touching (cur ++ [name]) := by
  rw [walk, if_neg hcur, if_neg hname.1, if_neg hname.2, hobject]
  exact if_neg hfollow

lemma walk_tooManyLinks {target : Text}
    (hobject : t.object (cur ++ [name]) = some (.symlink target))
    (hfollow : ¬ (r.follow = false ∧ rest = [])) :
    walk t r 0 cur (name :: rest) = ⟨.error .tooManyLinks, [cur ++ [name]]⟩ := by
  rw [walk, if_neg hcur, if_neg hname.1, if_neg hname.2, hobject]
  exact if_neg hfollow

lemma walk_onto (hobject : t.object (cur ++ [name]) = some o) (ho : ∀ target, o ≠ .symlink target) :
    walk t r links cur (name :: rest) =
      (walk t r links (cur ++ [name]) rest).touching (cur ++ [name]) := by
  rw [walk, if_neg hcur, if_neg hname.1, if_neg hname.2, hobject]
  cases o with
  | symlink target => exact absurd rfl (ho target)
  | directory => rfl
  | other => rfl

omit hname

omit hcur

-- ══ Separators

lemma name_cases (name : Text) : (name = [] ∨ name = dot) ∨ name = dotDot ∨ Ordinary name := by
  by_cases hstay : name = [] ∨ name = dot
  · exact .inl hstay
  · by_cases hup : name = dotDot
    · exact .inr (.inl hup)
    · exact .inr (.inr ⟨hstay, hup⟩)

def namesOf (names : List Text) : List Text := names.filter (· ≠ [])

@[simp] lemma namesOf_append (names names' : List Text) :
    namesOf (names ++ names') = namesOf names ++ namesOf names' := by
  simp [namesOf]

@[simp] lemma namesOf_namesOf (names : List Text) : namesOf (namesOf names) = namesOf names := by
  simp [namesOf]

lemma namesOf_cons_nil (names : List Text) : namesOf ([] :: names) = namesOf names := by
  simp [namesOf]

lemma namesOf_cons (hname : name ≠ []) (names : List Text) :
    namesOf (name :: names) = name :: namesOf names := by
  simp [namesOf, hname]

lemma passable_of_lax (h : r.strict = false) : Passable t r cur := by
  rintro ⟨hstrict, -⟩
  rw [h] at hstrict
  cases hstrict

lemma mayCreate_namesOf (h : r.strict = false) : mayCreate r (namesOf rest) ↔ mayCreate r rest := by
  simp only [mayCreate, h, namesOf, mem_filter]
  constructor
  · rintro ⟨hcreate, hall⟩
    refine ⟨hcreate, fun name hmem => ?_⟩
    by_contra hne
    exact hne (hall name ⟨hmem, by simpa using hne⟩)
  · rintro ⟨hcreate, hall⟩
    exact ⟨hcreate, fun name hmem => hall name hmem.1⟩

lemma walk_namesOf (hlax : r.strict = false) (hfollow : r.follow = true) :
    ∀ (links : ℕ) (cur : Place) (names : List Text),
      (walk t r links cur (namesOf names)).reached = (walk t r links cur names).reached := by
  have hpass : ∀ {cur}, Passable t r cur := passable_of_lax hlax
  have hfollows : ∀ {rest : List Text}, ¬ (r.follow = false ∧ rest = []) := by simp [hfollow]
  intro links
  induction links using Nat.strong_induction_on with
  | _ links ihlinks =>
    intro cur names
    induction names generalizing cur with
    | nil => rfl
    | cons name rest ih =>
      by_cases hempty : name = []
      · rw [hempty, namesOf_cons_nil, walk_stay hpass (.inl rfl), ih]
      rw [namesOf_cons hempty]
      rcases name_cases name with hstay | rfl | hname
      · rw [walk_stay hpass hstay, walk_stay hpass hstay, ih]
      · simp only [walk_up hpass, Walked.reached_touching, ih]
      · match hobject : t.object (cur ++ [name]) with
        | none =>
          simp only [walk_missing hpass hname hobject, mayCreate_namesOf hlax]
        | some (.symlink target) =>
          cases links with
          | zero => rw [walk_tooManyLinks hpass hname hobject hfollows,
              walk_tooManyLinks hpass hname hobject hfollows]
          | succ links =>
            have hless := ihlinks links (Nat.lt_succ_self links)
            simp only [walk_link hpass hname hobject hfollows, Walked.reached_touching]
            rw [← hless, ← hless _ (_ ++ rest), namesOf_append, namesOf_append, namesOf_namesOf]
        | some .directory =>
          simp only [walk_onto hpass hname hobject (by simp), Walked.reached_touching, ih]
        | some .other =>
          simp only [walk_onto hpass hname hobject (by simp), Walked.reached_touching, ih]

/-! ### Insisting on directories -/

def Trim (names : List Text) : Prop := names.getLast? = some [] → ∀ name ∈ names, name = []

lemma Trim.of_cons (h : Trim (name :: rest)) : Trim rest := by
  intro hlast
  have hne : rest ≠ [] := by rintro rfl; simp at hlast
  have hall := h (by rw [getLast?_cons_of_ne_nil hne]; exact hlast)
  exact fun n hn => hall n (mem_cons_of_mem _ hn)

lemma Trim.rest_ends (h : Trim (name :: rest)) (hname : name ≠ []) :
    rest = [] ∨ rest.getLast? ≠ some [] := by
  by_cases hnil : rest = []
  · exact .inl hnil
  · refine .inr fun hlast => hname (h ?_ name mem_cons_self)
    rw [getLast?_cons_of_ne_nil hnil]
    exact hlast

lemma Trim.append_of_rest (hnames : Trim names)
    (hrest : rest = [] ∨ rest.getLast? ≠ some []) : Trim (names ++ rest) := by
  rcases hrest with rfl | hrest
  · rwa [append_nil]
  · intro hlast
    by_cases hnil : rest = []
    · subst hnil
      rw [append_nil] at hlast ⊢
      exact hnames hlast
    · rw [getLast?_append_of_ne_nil _ hnil] at hlast
      exact absurd hlast hrest
lemma Trim.mayCreate_iff (h : r.create = false ∨ Trim (name :: rest)) (hname : name ≠ [])
    (hstrict : r.strict = true) (seen : Text → Text) :
    mayCreate { r with strict := false, seen } rest ↔ mayCreate r rest := by
  simp only [mayCreate, hstrict, if_true, Bool.false_eq_true, if_false]
  rcases h with hcreate | htrim
  · simp [hcreate]
  · refine and_congr_right fun _ => ⟨fun hall => ?_, ?_⟩
    · rcases htrim.rest_ends hname with hnil | hlast
      · exact hnil
      · by_contra hne
        refine hlast ?_
        rw [getLast?_eq_some_getLast hne, hall _ (getLast_mem hne)]
    · rintro rfl
      simp

/-- **Insisting on directories.** Where the walk that insists on directories finds nothing else in
their place, the walk that does not insist ends at the same place, also if it reads the targets of
links in another way that makes no difference. -/
theorem walk_lax_of_strict (hstrict : r.strict = true) (hfollow : r.follow = true)
    {seen : Text → Text}
    (hseen : ∀ p target, t.object p = some (.symlink target) → seen target = r.seen target)
    (htargets : r.create = false ∨ ∀ p target, t.object p = some (.symlink target) →
      Trim (components (r.seen target))) :
    ∀ (links : ℕ) (cur : Place) (names : List Text), (r.create = false ∨ Trim names) →
      (walk t r links cur names).reached ≠ .error .notDirectory →
      (walk t { r with strict := false, seen } links cur names).reached =
        (walk t r links cur names).reached := by
  have hlax : ∀ {cur}, Passable t { r with strict := false, seen } cur := passable_of_lax rfl
  have hfollows : ∀ {rest : List Text}, ¬ (r.follow = false ∧ rest = []) := by simp [hfollow]
  intro links
  induction links using Nat.strong_induction_on with
  | _ links ihlinks =>
    intro cur names
    induction names generalizing cur with
    | nil => exact fun _ _ => by simp
    | cons name rest ih =>
      intro htrim hreached
      have htrim' : r.create = false ∨ Trim rest := htrim.imp_right Trim.of_cons
      have hpass : Passable t r cur := by
        intro hnot
        exact hreached (by rw [walk_notDirectory hstrict hnot.2])
      rcases name_cases name with hstay | rfl | hname
      · rw [walk_stay hpass hstay] at hreached ⊢
        rw [walk_stay hlax hstay, ih cur htrim' hreached]
      · rw [walk_up hpass] at hreached ⊢
        rw [walk_up hlax]
        exact ih _ htrim' hreached
      · have hne : name ≠ [] := fun h => hname.1 (.inl h)
        match hobject : t.object (cur ++ [name]) with
        | none =>
          rw [walk_missing hpass hname hobject, walk_missing hlax hname hobject]
          simp only [Trim.mayCreate_iff htrim hne hstrict seen]
        | some (.symlink target) =>
          cases links with
          | zero => rw [walk_tooManyLinks hpass hname hobject hfollows,
              walk_tooManyLinks hlax hname hobject hfollows]
          | succ links =>
            rw [walk_link hpass hname hobject hfollows] at hreached ⊢
            rw [walk_link hlax hname hobject hfollows]
            simp only [hseen _ _ hobject, Walked.reached_touching] at hreached ⊢
            refine ihlinks links (Nat.lt_succ_self links) _ _ ?_ hreached
            rcases htrim with hcreate | htrim
            · exact .inl hcreate
            · exact htargets.imp_right fun h =>
                (h _ _ hobject).append_of_rest (htrim.rest_ends hne)
        | some .directory =>
          rw [walk_onto hpass hname hobject (by simp)] at hreached ⊢
          rw [walk_onto hlax hname hobject (by simp)]
          exact ih _ htrim' hreached
        | some .other =>
          rw [walk_onto hpass hname hobject (by simp)] at hreached ⊢
          rw [walk_onto hlax hname hobject (by simp)]
          exact ih _ htrim' hreached

-- ══ Paths without links

lemma walk_down (r : Rules) (links : ℕ) (rest : List Text)
    (hnames : ∀ name ∈ names, Ordinary name)
    (hobject : t.object (cur ++ names) = some o) (ho : ∀ target, o ≠ .symlink target) :
    (walk t r links cur (names ++ rest)).reached =
        (walk t r links (cur ++ names) rest).reached ∧
      ∀ p ∈ (walk t r links cur (names ++ rest)).touched,
        cur <+: p ∨ p ∈ (walk t r links (cur ++ names) rest).touched := by
  induction names generalizing cur with
  | nil => exact ⟨by simp, fun p hp => .inr (by simpa using hp)⟩
  | cons name names ih =>
    have hcur : t.object cur = some .directory :=
      directory_of_below (cons_ne_nil name names) (by rw [hobject]; simp)
    have hpass : Passable t r cur := fun hnot => hnot.2 hcur
    rw [show cur ++ name :: names = (cur ++ [name]) ++ names by simp] at hobject ⊢
    obtain ⟨o', hnext, hno⟩ : ∃ o', t.object (cur ++ [name]) = some o' ∧
        ∀ target, o' ≠ .symlink target := by
      by_cases hnil : names = []
      · rw [hnil, append_nil] at hobject
        exact ⟨o, hobject, ho⟩
      · exact ⟨.directory, directory_of_below hnil (by rw [hobject]; simp), by simp⟩
    obtain ⟨hreached, htouched⟩ := ih (fun n hn => hnames n (mem_cons_of_mem _ hn)) hobject
    rw [cons_append, walk_onto hpass (hnames name mem_cons_self) hnext hno]
    refine ⟨hreached, fun p hp => ?_⟩
    rcases mem_cons.mp hp with rfl | hp
    · exact .inl (prefix_append _ _)
    · exact (htouched p hp).imp_left fun h => (prefix_append _ _).trans h

lemma walk_last (links : ℕ) (hfollow : r.follow = false) (hname : Ordinary name)
    (hobject : t.object (cur ++ [name]) = some o) :
    walk t r links cur [name] = ⟨.ok (cur ++ [name]), [cur ++ [name]]⟩ := by
  have hcur : t.object cur = some .directory := t.parent cur name (by rw [hobject]; simp)
  have hpass : Passable t r cur := fun hnot => hnot.2 hcur
  cases o with
  | symlink target =>
    rw [walk, if_neg hpass, if_neg hname.1, if_neg hname.2, hobject]
    exact if_pos ⟨hfollow, rfl⟩
  | directory => simp [walk_onto hpass hname hobject (by simp), Walked.touching]
  | other => simp [walk_onto hpass hname hobject (by simp), Walked.touching]

end LinkTree

end Lib
