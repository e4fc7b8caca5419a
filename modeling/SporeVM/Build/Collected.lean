import SporeVM.Build.Context

/-!
# What a copy of a directory collects

A path is ignored if the last rule that covers it is not negated. A directory is given up only if
everything below it is ignored, so a copy of a directory collects the paths below it that are not
ignored, with the directories that lead to them.
-/

namespace SporeVM.Context

open Lib (NameTree)
open Lib.NameTree (find_nil find_directory_cons find_append entry_of_mem mem_of_entry)
open Lib.Check (bind_ok seq_ok rejectIf_ok rejectIf_bind)
open Lib.PathText (Text Plain sep dot components written components_written written_append_singleton
  join_child)
open PathPattern (Pattern)
open List hiding le_total le_trans

-- ══ Rules

def IgnoreRule.Covers (rule : IgnoreRule) (path : Text) : Prop :=
  rule.pattern.matches path = true ∨
    ∃ parent rest, parent ≠ [] ∧ path = parent ++ sep :: rest ∧ rule.pattern.matches parent = true

def IsIgnored (rules : List IgnoreRule) (path : Text) : Prop :=
  path ≠ dot ∧ ∃ earlier rule later, rules = earlier ++ rule :: later ∧ rule.Covers path ∧
    rule.negated = false ∧ ∀ after ∈ later, ¬ after.Covers path

section Rules

variable {rules : List IgnoreRule} {path : Text} {rule : IgnoreRule}

lemma matchesOrParent_iff_covers (hpath : path ≠ dot) :
    rule.pattern.matchesOrParent path = true ↔ rule.Covers path :=
  PathPattern.matchesOrParent_iff hpath

lemma ignored_append_singleton (rules : List IgnoreRule) (rule : IgnoreRule) (path : Text) :
    ignored (rules ++ [rule]) path = applyRule path (ignored rules path) rule := by
  rw [ignored, foldl_append]
  rfl

lemma applyRule_eq (hpath : path ≠ dot) (result : Bool) (rule : IgnoreRule)
    [Decidable (rule.Covers path)] :
    applyRule path result rule = if rule.Covers path then !rule.negated else result := by
  rw [applyRule]
  simp only [matchesOrParent_iff_covers hpath]
  split
  · next hne =>
    split
    · cases hn : rule.negated <;> cases result <;> simp_all
    · rfl
  · rfl

lemma ignored_dot (rules : List IgnoreRule) : ignored rules dot = false := by
  induction rules using reverseRecOn with
  | nil => rfl
  | append_singleton rules rule ih =>
    rw [ignored_append_singleton, ih, applyRule, Pattern.matchesOrParent, if_pos rfl]
    simp

lemma isIgnored_append_of_covers (hpath : path ≠ dot) (hcovers : rule.Covers path) :
    IsIgnored (rules ++ [rule]) path ↔ rule.negated = false := by
  constructor
  · rintro ⟨-, earlier, last, later, hsplit, -, hnegated, hlater⟩
    rcases eq_nil_or_concat' later with rfl | ⟨later, final, rfl⟩
    · cases (append_inj_right' hsplit rfl)
      exact hnegated
    · rw [← cons_append, ← append_assoc] at hsplit
      cases (append_inj_right' hsplit rfl)
      exact absurd hcovers (hlater rule (by simp))
  · intro hnegated
    exact ⟨hpath, rules, rule, [], rfl, hcovers, hnegated, nofun⟩

lemma isIgnored_append_of_not_covers (hcovers : ¬ rule.Covers path) :
    IsIgnored (rules ++ [rule]) path ↔ IsIgnored rules path := by
  constructor
  · rintro ⟨hpath, earlier, last, later, hsplit, hlast, hnegated, hlater⟩
    rcases eq_nil_or_concat' later with rfl | ⟨later, final, rfl⟩
    · cases (append_inj_right' hsplit rfl)
      exact absurd hlast hcovers
    · rw [← cons_append, ← append_assoc] at hsplit
      refine ⟨hpath, earlier, last, later, append_inj_left' hsplit rfl, hlast, hnegated, ?_⟩
      exact fun after hafter => hlater after (mem_append_left _ hafter)
  · rintro ⟨hpath, earlier, last, later, rfl, hlast, hnegated, hlater⟩
    refine ⟨hpath, earlier, last, later ++ [rule], by simp, hlast, hnegated, fun after hafter => ?_⟩
    rcases mem_append.mp hafter with hafter | hafter
    · exact hlater after hafter
    · rwa [mem_singleton.mp hafter]

/-- The rules as the last one that covers a path. -/
theorem ignored_iff : ignored rules path = true ↔ IsIgnored rules path := by
  classical
  by_cases hpath : path = dot
  · rw [hpath, ignored_dot]
    exact iff_of_false (by decide) fun h => h.1 rfl
  induction rules using reverseRecOn with
  | nil => exact iff_of_false (by simp [ignored]) fun ⟨_, _, _, _, h, _⟩ => by simp at h
  | append_singleton rules rule ih =>
    rw [ignored_append_singleton, applyRule_eq hpath]
    split
    · next hcovers =>
      rw [isIgnored_append_of_covers hpath hcovers, Bool.not_eq_true']
    · next hcovers =>
      rw [isIgnored_append_of_not_covers hcovers, ih]

lemma isIgnored_of_covers (hpath : path ≠ dot)
    (hsome : ∃ rule ∈ rules, rule.negated = false ∧ rule.Covers path)
    (hnone : ∀ rule ∈ rules, rule.negated = true → ¬ rule.Covers path) : IsIgnored rules path := by
  induction rules using reverseRecOn with
  | nil =>
    obtain ⟨rule, hrule, -⟩ := hsome
    cases hrule
  | append_singleton rules last ih =>
    by_cases hcovers : last.Covers path
    · rw [isIgnored_append_of_covers hpath hcovers]
      by_contra hnegated
      exact hnone last (by simp) (by simpa using hnegated) hcovers
    · rw [isIgnored_append_of_not_covers hcovers]
      refine ih ?_ fun rule hrule => hnone rule (mem_append_left _ hrule)
      obtain ⟨rule, hrule, hnegated, hrule'⟩ := hsome
      rcases mem_append.mp hrule with hrule | hrule
      · exact ⟨rule, hrule, hnegated, hrule'⟩
      · rw [mem_singleton.mp hrule] at hrule'
        exact absurd hrule' hcovers

variable {directory : Text}

lemma IgnoreRule.Covers.below (h : rule.Covers directory) (hne : directory ≠ []) (rest : Text) :
    rule.Covers (directory ++ sep :: rest) := by
  rcases h with h | ⟨parent, tail, hparent, rfl, h⟩
  · exact .inr ⟨directory, rest, hne, rfl, h⟩
  · exact .inr ⟨parent, tail ++ sep :: rest, hparent, by simp, h⟩

lemma IgnoreRule.Covers.above {rest : Text} (h : rule.Covers (directory ++ sep :: rest)) :
    rule.Covers directory ∨ rule.pattern.couldMatchDescendant directory = true := by
  rcases h with h | ⟨parent, tail, hparent, hsplit, h⟩
  · exact .inr (PathPattern.couldMatchDescendant_of_matches h)
  · -- the parent lies above the directory, is it, or lies below it
    rcases append_eq_append_iff.mp hsplit with
      ⟨middle, hparent', hrest⟩ | ⟨middle, hdir, hrest⟩
    · cases middle with
      | nil =>
        rw [append_nil] at hparent'
        exact .inl (.inl (hparent' ▸ h))
      | cons c middle =>
        cases hrest
        rw [hparent'] at h
        exact .inr (PathPattern.couldMatchDescendant_of_matches h)
    · cases middle with
      | nil =>
        rw [append_nil] at hdir
        exact .inl (.inl (hdir ▸ h))
      | cons c middle =>
        cases hrest
        exact .inl (.inr ⟨parent, middle, hparent, hdir, h⟩)

/-- Below a directory that is given up everything is ignored. -/
theorem ignored_of_pruned (h : pruned rules directory) (hne : directory ≠ []) (rest : Text) :
    ignored rules (directory ++ sep :: rest) = true := by
  obtain ⟨hignored, hcould⟩ := h
  obtain ⟨hdot, earlier, rule, later, hsplit, hcovers, hnegated, -⟩ := ignored_iff.mp hignored
  have hbelow : directory ++ sep :: rest ≠ dot := by
    intro heq
    have hmem : sep ∈ dot := heq ▸ mem_append_right _ mem_cons_self
    exact absurd hmem (by decide)
  have hrule : rule ∈ rules := hsplit ▸ mem_append_right _ mem_cons_self
  refine ignored_iff.mpr (isIgnored_of_covers hbelow ⟨rule, hrule, hnegated, hcovers.below hne rest⟩
    fun other hother hother' hcovers' => ?_)
  -- a negated rule that covers the path would have kept the directory
  have hkept : couldIncludeDescendant rules directory = true := by
    have hsome : hasNegations rules = true := any_eq_true.mpr ⟨other, hother, hother'⟩
    rw [couldIncludeDescendant, if_neg (by rw [hsome]; decide)]
    refine any_eq_true.mpr ⟨other, hother, ?_⟩
    rw [hother', Bool.true_and, Bool.or_eq_true]
    exact hcovers'.above.imp_left (matchesOrParent_iff_covers hdot).mpr
  exact absurd (hkept.symm.trans hcould) (by decide)

end Rules

-- ══ Places and paths

def relOf (place : List Text) : Text := if place = [] then dot else written place

def PlainPlace (place : List Text) : Prop := ∀ name ∈ place, Plain name

lemma PlainPlace.append {a b : List Text} (ha : PlainPlace a) (hb : PlainPlace b) :
    PlainPlace (a ++ b) := by
  intro name hname
  rcases mem_append.mp hname with hname | hname
  · exact ha name hname
  · exact hb name hname

variable {place : List Text} {name : Text}

lemma PlainPlace.concat (h : PlainPlace place) (hname : Plain name) :
    PlainPlace (place ++ [name]) :=
  h.append fun _ hmem => mem_singleton.mp hmem ▸ hname

lemma relOf_of_ne_nil (h : place ≠ []) : relOf place = written place :=
  if_neg h

lemma components_relOf (h : PlainPlace place) :
    components (relOf place) = if place = [] then [dot] else place := by
  by_cases hnil : place = []
  · rw [if_pos hnil, hnil]
    rfl
  · rw [if_neg hnil, relOf_of_ne_nil hnil, components_written hnil fun n hn => (h n hn).no_sep]

lemma relOf_ne_dot (h : PlainPlace place) (hne : place ≠ []) : relOf place ≠ dot := by
  intro hdot
  have hcomponents := components_relOf h
  rw [hdot, if_neg hne] at hcomponents
  have hmem : dot ∈ place := hcomponents ▸ mem_singleton_self dot
  exact (h dot hmem).ne_dot rfl

lemma relOf_inj {a b : List Text} (ha : PlainPlace a) (hb : PlainPlace b)
    (h : relOf a = relOf b) : a = b := by
  by_cases hnil : a = [] <;> by_cases hnil' : b = []
  · rw [hnil, hnil']
  · rw [hnil] at h
    exact absurd h.symm (relOf_ne_dot hb hnil')
  · rw [hnil'] at h
    exact absurd h (relOf_ne_dot ha hnil)
  · have hcomponents := components_relOf ha
    rw [h, components_relOf hb, if_neg hnil, if_neg hnil'] at hcomponents
    exact hcomponents.symm

lemma written_ne_nil (h : PlainPlace place) (hne : place ≠ []) : written place ≠ [] := fun hnil =>
  hne ((Lib.PathText.written_eq_nil fun n hn => (h n hn).nonempty).mp hnil)

lemma getLast_written (h : PlainPlace place) : (written place).getLast? ≠ some sep := by
  induction place using reverseRecOn with
  | nil => simp [written]
  | append_singleton place name _ =>
    have hname := h name (mem_append_right _ (mem_singleton_self name))
    have hlast : name.getLast? ≠ some sep := fun hsep =>
      hname.no_sep (List.mem_of_getLast? hsep)
    by_cases hnil : place = []
    · rw [hnil]
      exact hlast
    · rw [written_append_singleton hnil, getLast?_append, getLast?_cons]
      have hne := hname.nonempty
      cases hget : name.getLast? with
      | none => exact absurd (getLast?_eq_none_iff.mp hget) hne
      | some c =>
        rw [hget] at hlast
        simpa using hlast

lemma joinRel_relOf (h : PlainPlace place) (hname : Plain name) :
    joinRel (relOf place) name = relOf (place ++ [name]) := by
  by_cases hnil : place = []
  · rw [hnil]
    rfl
  · rw [joinRel, if_neg (relOf_ne_dot h hnil), relOf_of_ne_nil hnil,
      relOf_of_ne_nil (by simp), written_append_singleton hnil]
    exact join_child (written_ne_nil h hnil) hname.nonempty (getLast_written h)
      (Lib.PathText.head_of_no_sep hname.no_sep)

variable {below : List Text}

lemma relOf_append (hplace : place ≠ []) (hbelow : below ≠ []) :
    relOf (place ++ below) = relOf place ++ sep :: written below := by
  rw [relOf_of_ne_nil hplace, relOf_of_ne_nil (by simp [hplace])]
  induction below using reverseRecOn with
  | nil => exact absurd rfl hbelow
  | append_singleton below name ih =>
    by_cases hnil : below = []
    · rw [hnil, nil_append, written_append_singleton hplace]
      rfl
    · rw [← append_assoc, written_append_singleton (by simp [hplace]), ih hnil,
        written_append_singleton hnil, append_assoc, cons_append]

-- ══ What is collected below a place

def Kept (rules : List IgnoreRule) (node : Node) (place : List Text) : Prop :=
  ∃ below found, node.find below = some found ∧ ignored rules (relOf (place ++ below)) = false

def NoOther (node : Node) : Prop := ∀ below, node.find below ≠ some (.leaf .other)

structure Collects (rules : List IgnoreRule) (node : Node) (place : List Text)
    (entries : List CopyEntry) (included : Bool) : Prop where
  included : included = true ↔ Kept rules node place
  mem : ∀ entry, entry ∈ entries ↔ ∃ below found, node.find below = some found ∧
    Kept rules found (place ++ below) ∧ entry = ⟨relOf (place ++ below), [], kindOf found⟩
  nodup : (entries.map CopyEntry.rel).Nodup

structure CollectsChildren (rules : List IgnoreRule) (children : List (Text × Node))
    (place : List Text) (entries : List CopyEntry) (included : Bool) : Prop where
  included : included = true ↔ ∃ child ∈ children, Kept rules child.2 (place ++ [child.1])
  mem : ∀ entry, entry ∈ entries ↔ ∃ child ∈ children, ∃ below found,
    child.2.find below = some found ∧ Kept rules found (place ++ child.1 :: below) ∧
    entry = ⟨relOf (place ++ child.1 :: below), [], kindOf found⟩
  nodup : (entries.map CopyEntry.rel).Nodup

variable {entries : List CopyEntry} {kind : LeafKind} {included : Bool}

section Collect

variable {rules : List IgnoreRule} {place : List Text}

lemma kept_leaf : Kept rules (.leaf kind) place ↔ ignored rules (relOf place) = false := by
  constructor
  · rintro ⟨below, found, hfind, hkept⟩
    cases below with
    | nil => rwa [append_nil] at hkept
    | cons name below => cases hfind
  · intro hkept
    exact ⟨[], _, rfl, by rwa [append_nil]⟩

lemma kept_directory {children : List (Text × Node)} (hnames : (children.map Prod.fst).Nodup) :
    Kept rules (.directory children) place ↔ ignored rules (relOf place) = false ∨
      ∃ child ∈ children, Kept rules child.2 (place ++ [child.1]) := by
  constructor
  · rintro ⟨below, found, hfind, hkept⟩
    cases below with
    | nil =>
      rw [append_nil] at hkept
      exact .inl hkept
    | cons name below =>
      obtain ⟨child, hentry, hfind⟩ := Option.bind_eq_some_iff.mp hfind
      refine .inr ⟨(name, child), mem_of_entry hentry, below, found, hfind, ?_⟩
      rwa [append_assoc]
  · rintro (hkept | ⟨⟨name, child⟩, hmem, below, found, hfind, hkept⟩)
    · exact ⟨[], _, rfl, by rwa [append_nil]⟩
    · refine ⟨name :: below, found, ?_, by rwa [append_assoc] at hkept⟩
      rw [find_directory_cons, entry_of_mem hnames hmem]
      exact hfind

lemma copyEntry_self (rel : Text) (kind : EntryKind) :
    copyEntry rel rel kind = ⟨rel, [], kind⟩ := by
  rw [copyEntry, if_pos rfl]

variable {node : Node}

lemma CollectsChildren.cons {child : Text} {children : List (Text × Node)}
    {entries others : List CopyEntry} {included childIncluded : Bool}
    (hfirst : Collects rules node (place ++ [child]) entries included)
    (hrest : CollectsChildren rules children place others childIncluded)
    (hdisjoint : ∀ a ∈ entries, ∀ b ∈ others, a.rel ≠ b.rel) :
    CollectsChildren rules ((child, node) :: children) place (entries ++ others)
      (included || childIncluded) := by
  constructor
  · rw [Bool.or_eq_true, hfirst.included, hrest.included, exists_mem_cons_iff]
  · intro entry
    rw [mem_append, hfirst.mem, hrest.mem, exists_mem_cons_iff]
    simp only [append_assoc, singleton_append]
  · rw [map_append, nodup_append]
    refine ⟨hfirst.nodup, hrest.nodup, ?_⟩
    intro rel hrel rel' hrel'
    obtain ⟨a, ha, rfl⟩ := mem_map.mp hrel
    obtain ⟨b, hb, rfl⟩ := mem_map.mp hrel'
    exact hdisjoint a ha b hb

variable {children : List (Text × Node)}

lemma appendChildren_collects (hplace : PlainPlace place)
    (hwell : (NameTree.directory children).WellNamed Plain (· < ·))
    (ih : ∀ child ∈ children, ∃ entries included,
      appendPathAt rules child.2 (relOf (place ++ [child.1])) (relOf (place ++ [child.1])) =
      .ok (entries, included) ∧ Collects rules child.2 (place ++ [child.1]) entries included) :
    ∃ entries included, appendChildren rules children (relOf place) (relOf place) =
        .ok (entries, included) ∧
      CollectsChildren rules children place entries included := by
  induction children with
  | nil => exact ⟨[], false, rfl, by simp, by simp, by simp⟩
  | cons first children ihc =>
    obtain ⟨child, node⟩ := first
    cases hwell with
    | directory hvalid horder hbelow =>
    have hchild : Plain child := hvalid _ mem_cons_self
    obtain ⟨entries, included, happend, hfirst⟩ := ih _ mem_cons_self
    rw [map_cons, pairwise_cons] at horder
    obtain ⟨others, childIncluded, hothers, hrest⟩ := ihc
      (.directory (fun e he => hvalid e (mem_cons_of_mem _ he)) horder.2
        fun e he => hbelow e (mem_cons_of_mem _ he))
      fun e he => ih e (mem_cons_of_mem _ he)
    refine ⟨entries ++ others, included || childIncluded, ?_, CollectsChildren.cons hfirst hrest ?_⟩
    · rw [appendChildren, joinRel_relOf hplace hchild, happend, hothers]
      rfl
    · -- a path below one entry is not below another one
      intro a ha b hb heq
      obtain ⟨below, found, hfind, -, rfl⟩ := (hfirst.mem a).mp ha
      obtain ⟨⟨other, tree⟩, hother, below', found', hfind', -, rfl⟩ := (hrest.mem b).mp hb
      have hplain : PlainPlace (place ++ [child] ++ below) :=
        (hplace.concat hchild).append ((hbelow _ mem_cons_self).find hfind).1
      have hplain' : PlainPlace (place ++ other :: below') := by
        rw [← singleton_append, ← append_assoc]
        exact (hplace.concat (hvalid _ (mem_cons_of_mem _ hother))).append
          ((hbelow _ (mem_cons_of_mem _ hother)).find hfind').1
      have hsame := relOf_inj hplain hplain' heq
      rw [append_assoc, singleton_append, append_cancel_left_eq, List.cons.injEq] at hsame
      exact absurd hsame.1 (horder.1 other (mem_map_of_mem hother)).ne

lemma NoOther.child (hwell : (NameTree.directory children).WellNamed Plain (· < ·))
    (h : NoOther (.directory children)) {child : Text × Node} (hchild : child ∈ children) :
    NoOther child.2 := by
  intro below hfind
  refine h (child.1 :: below) ?_
  rw [find_directory_cons, entry_of_mem hwell.nodup hchild]
  exact hfind

lemma not_kept_of_pruned (hplace : PlainPlace place)
    (h : pruned rules (relOf place)) (below : List Text) : ¬ Kept rules node (place ++ below) := by
  rintro ⟨further, found, -, hkept⟩
  have hne : place ≠ [] := by
    rintro rfl
    exact absurd ((ignored_dot rules).symm.trans h.1) (by decide)
  rw [append_assoc] at hkept
  by_cases hnil : below ++ further = []
  · rw [hnil, append_nil, h.1] at hkept
    cases hkept
  · have hrel : relOf place ≠ [] := by
      rw [relOf_of_ne_nil hne]
      exact written_ne_nil hplace hne
    rw [relOf_append hne hnil, ignored_of_pruned h hrel] at hkept
    cases hkept

lemma Kept.above {node found : Node} (hfind : node.find below = some found)
    (h : Kept rules found (place ++ below)) : Kept rules node place := by
  obtain ⟨further, inner, hinner, hkept⟩ := h
  refine ⟨below ++ further, inner, ?_, by rwa [← append_assoc]⟩
  rw [find_append, hfind]
  exact hinner

lemma collects_nothing (h : ¬ Kept rules node place) : Collects rules node place [] false := by
  refine ⟨iff_of_false (by decide) h, fun entry => iff_of_false not_mem_nil ?_, nodup_nil⟩
  rintro ⟨below, found, hfind, hkept, -⟩
  exact h (Kept.above hfind hkept)

lemma collects_leaf (h : ignored rules (relOf place) = false) :
    Collects rules (.leaf kind) place [⟨relOf place, [], kind.kind⟩] true := by
  have hkept : Kept rules (.leaf kind) place := kept_leaf.mpr h
  refine ⟨iff_of_true rfl hkept, fun entry => ?_, by simp⟩
  rw [mem_singleton]
  constructor
  · rintro rfl
    exact ⟨[], _, rfl, by rwa [append_nil], by rw [append_nil]; rfl⟩
  · rintro ⟨below, found, hfind, -, rfl⟩
    cases below with
    | nil =>
      cases hfind
      rw [append_nil]
      rfl
    | cons name below => cases hfind

lemma CollectsChildren.eq_nil
    (h : CollectsChildren rules children place entries false) : entries = [] := by
  refine eq_nil_iff_forall_not_mem.mpr fun entry hentry => ?_
  obtain ⟨child, hchild, below, found, hfind, hkept, -⟩ := (h.mem entry).mp hentry
  rw [← singleton_append, ← append_assoc] at hkept
  exact absurd (h.included.mpr ⟨child, hchild, Kept.above hfind hkept⟩) (by decide)

lemma CollectsChildren.directory {entries all : List CopyEntry}
    (hplace : PlainPlace place) (hwell : (NameTree.directory children).WellNamed Plain (· < ·))
    (h : CollectsChildren rules children place entries included)
    (hkept : Kept rules (.directory children) place)
    (hperm : all.Perm (⟨relOf place, [], .directory⟩ :: entries)) :
    Collects rules (.directory children) place all true := by
  have hnames := hwell.nodup
  constructor
  · exact iff_of_true rfl hkept
  · intro entry
    rw [hperm.mem_iff, mem_cons, h.mem]
    constructor
    · rintro (rfl | ⟨⟨name, child⟩, hchild, below, found, hfind, hfound, rfl⟩)
      · exact ⟨[], _, rfl, by rwa [append_nil], by rw [append_nil]; rfl⟩
      · refine ⟨name :: below, found, ?_, hfound, rfl⟩
        rw [find_directory_cons, entry_of_mem hnames hchild]
        exact hfind
    · rintro ⟨below, found, hfind, hfound, rfl⟩
      cases below with
      | nil =>
        cases hfind
        rw [append_nil]
        exact .inl rfl
      | cons name below =>
        obtain ⟨child, hentry, hfind⟩ := Option.bind_eq_some_iff.mp hfind
        exact .inr ⟨(name, child), mem_of_entry hentry, below, found, hfind, hfound, rfl⟩
  · rw [(hperm.map _).nodup_iff, map_cons, nodup_cons]
    refine ⟨fun hmem => ?_, h.nodup⟩
    obtain ⟨entry, hentry, hrel⟩ := mem_map.mp hmem
    obtain ⟨⟨name, child⟩, hchild, below, found, hfind, -, rfl⟩ := (h.mem entry).mp hentry
    have hbelow : (NameTree.directory children).find (name :: below) = some found := by
      rw [find_directory_cons, entry_of_mem hnames hchild]
      exact hfind
    have hsame := relOf_inj (hplace.append (hwell.find hbelow).1) hplace hrel
    exact absurd hsame (by simp)

lemma appendPathAt_leaf (hkind : kind ≠ .other) (sourceRel outputRel : Text) :
    appendPathAt rules (.leaf kind) sourceRel outputRel =
      if ignored rules sourceRel = true then .ok ([], false)
      else .ok ([copyEntry sourceRel outputRel kind.kind], true) := by
  cases kind with
  | other => exact absurd rfl hkind
  | file => rw [appendPathAt]; simp
  | symLink => rw [appendPathAt]; simp

/-- What is collected at and below a place. -/
theorem appendPathAt_collects (hplace : PlainPlace place)
    (hwell : node.WellNamed Plain (· < ·)) (hnone : NoOther node) : ∃ entries included,
      appendPathAt rules node (relOf place) (relOf place) = .ok (entries, included) ∧
      Collects rules node place entries included := by
  induction node using NameTree.induct generalizing place with
  | leaf kind =>
    have hkind : kind ≠ .other := by
      rintro rfl
      exact hnone [] rfl
    rw [appendPathAt_leaf hkind, copyEntry_self]
    cases hignored : ignored rules (relOf place) with
    | true =>
      refine ⟨[], false, rfl, collects_nothing fun hkept => ?_⟩
      exact absurd (hignored.symm.trans (kept_leaf.mp hkept)) (by decide)
    | false => exact ⟨_, true, rfl, collects_leaf hignored⟩
  | directory children ih =>
    by_cases hpruned : pruned rules (relOf place)
    · have hnone := @not_kept_of_pruned rules place (.directory children) hplace hpruned []
      rw [append_nil] at hnone
      refine ⟨[], false, ?_, collects_nothing hnone⟩
      rw [appendPathAt, if_pos hpruned]
    · have hvalid : ∀ child ∈ children, Plain child.1 ∧ child.2.WellNamed Plain (· < ·) := by
        cases hwell with
        | directory hvalid _ hbelow =>
          exact fun child hchild => ⟨hvalid child hchild, hbelow child hchild⟩
      obtain ⟨entries, included, happend, hcollects⟩ := appendChildren_collects hplace hwell
        fun child hchild => ih child hchild (hplace.concat (hvalid child hchild).1)
          (hvalid child hchild).2 (hnone.child hwell hchild)
      have hkept := @kept_directory rules place children hwell.nodup
      rw [appendPathAt, if_neg hpruned, happend, copyEntry_self]
      cases hignored : ignored rules (relOf place) with
      | false =>
        exact ⟨_, true, rfl, hcollects.directory hplace hwell (hkept.mpr (.inl hignored)) (.refl _)⟩
      | true =>
        -- an ignored directory is kept for what is below it
        cases included with
        | true =>
          refine ⟨_, true, rfl, hcollects.directory hplace hwell
            (hkept.mpr (.inr (hcollects.included.mp rfl))) ?_⟩
          exact perm_append_singleton _ _
        | false =>
          refine ⟨entries, false, rfl, ?_⟩
          rw [hcollects.eq_nil]
          refine collects_nothing fun h => ?_
          rcases hkept.mp h with h | h
          · exact absurd (hignored.symm.trans h) (by decide)
          · exact absurd (hcollects.included.mpr h) (by decide)

end Collect

-- ══ Sources that name a place

section Sources

lemma reverse_path (hne : place ≠ []) :
    (relOf (place ++ [name])).reverse = name.reverse ++ sep :: (written place).reverse := by
  rw [relOf_of_ne_nil (by simp), written_append_singleton hne]
  simp

lemma dropWhile_sep_reverse (h : Plain name) (rest : Text) :
    (name.reverse ++ rest).dropWhile (fun c => decide (c = sep)) = name.reverse ++ rest := by
  cases hrev : name.reverse with
  | nil => exact absurd (reverse_eq_nil_iff.mp hrev) h.nonempty
  | cons c cs =>
    have hc : c ≠ sep := by
      rintro rfl
      exact h.no_sep (mem_reverse.mp (hrev ▸ mem_cons_self))
    simp [hc]

lemma ne_sep_of_mem_reverse (h : Plain name) :
    ∀ c ∈ name.reverse, decide (c ≠ sep) = true := fun _ hc =>
  decide_eq_true fun heq => h.no_sep (heq ▸ mem_reverse.mp hc)

lemma basename_relOf (h : Plain name) : Lib.PathText.basename (relOf (place ++ [name])) = name := by
  have hstop : ∀ rest : Text, (name.reverse ++ sep :: rest).takeWhile (fun c => decide (c ≠ sep)) =
      name.reverse := by
    intro rest
    rw [takeWhile_append_of_pos (ne_sep_of_mem_reverse h)]
    simp
  unfold Lib.PathText.basename
  by_cases hnil : place = []
  · have hdrop := dropWhile_sep_reverse h []
    rw [append_nil] at hdrop
    rw [hnil, nil_append, relOf_of_ne_nil (by simp), written, hdrop,
      takeWhile_eq_self_iff.mpr (ne_sep_of_mem_reverse h), reverse_reverse]
  · rw [reverse_path hnil, dropWhile_sep_reverse h, hstop, reverse_reverse]

lemma dirname_relOf (hplace : PlainPlace place) (h : Plain name) :
    dirname (relOf (place ++ [name])) = if place = [] then none else some (written place) := by
  unfold dirname
  by_cases hnil : place = []
  · have hdrop := dropWhile_sep_reverse h []
    rw [append_nil] at hdrop
    rw [if_pos hnil, hnil, nil_append, relOf_of_ne_nil (by simp), written, hdrop,
      dropWhile_eq_nil_iff.mpr (ne_sep_of_mem_reverse h)]
  · have hne : (written place).reverse ≠ [] := fun hrev =>
      written_ne_nil hplace hnil (reverse_eq_nil_iff.mp hrev)
    have hstop : (name.reverse ++ sep :: (written place).reverse).dropWhile
        (fun c => decide (c ≠ sep)) = sep :: (written place).reverse := by
      rw [dropWhile_append_of_pos (ne_sep_of_mem_reverse h)]
      simp
    rw [if_neg hnil, reverse_path hnil, dropWhile_sep_reverse h, hstop]
    dsimp only
    rw [if_neg hne, reverse_reverse]

lemma openContextDir_of_find {entries children : List (Text × Node)} (hplace : PlainPlace place)
    (h : (NameTree.directory entries).find place = some (.directory children)) :
    openContextDir entries place = .ok children := by
  induction place generalizing entries with
  | nil =>
    cases h
    rfl
  | cons name place ih =>
    have hname := hplace name mem_cons_self
    obtain ⟨below, hentry, hfind⟩ := Option.bind_eq_some_iff.mp h
    rw [openContextDir, if_neg (not_or.mpr ⟨hname.nonempty, hname.ne_dot⟩), hentry]
    cases below with
    | leaf kind =>
      cases place with
      | nil => cases hfind
      | cons second place => cases hfind
    | directory inner => exact ih (fun n hn => hplace n (mem_cons_of_mem _ hn)) hfind

lemma find_of_openContextDir {entries children : List (Text × Node)} (hplace : PlainPlace place)
    (h : openContextDir entries place = .ok children) :
    (NameTree.directory entries).find place = some (.directory children) := by
  induction place generalizing entries with
  | nil =>
    cases h
    rfl
  | cons name place ih =>
    have hname := hplace name mem_cons_self
    rw [openContextDir, if_neg (not_or.mpr ⟨hname.nonempty, hname.ne_dot⟩)] at h
    cases hentry : NameTree.entry entries name with
    | none =>
      rw [hentry] at h
      cases h
    | some below =>
      rw [hentry] at h
      rw [find_directory_cons, hentry, Option.bind_some]
      cases below with
      | leaf kind => cases kind <;> cases h
      | directory inner => exact ih (fun n hn => hplace n (mem_cons_of_mem _ hn)) h

variable {context : BuildContext}

lemma statPath_relOf {parent : List Text} (hparent : PlainPlace parent)
    (hname : Plain name) : statPath context (relOf (parent ++ [name])) =
      (openContextDir context.entries parent >>= fun children => statFile children name) := by
  rw [statPath, dirname_relOf hparent hname, basename_relOf hname]
  by_cases hnil : parent = []
  · rw [if_pos hnil, hnil]
    rfl
  · rw [if_neg hnil, Option.getD_some, components_written hnil fun n hn => (hparent n hn).no_sep]

lemma statPath_of_find {place : List Text} {node : Node}
    (h : context.root.find place = some node) : statPath context (relOf place) = .ok node := by
  have hplace : PlainPlace place := (context.wellNamed.find h).1
  rcases eq_nil_or_concat' place with rfl | ⟨parent, name, rfl⟩
  · cases (find_nil context.root).symm.trans h
    rfl
  · have hparent : PlainPlace parent := fun n hn => hplace n (mem_append_left _ hn)
    have hname : Plain name := hplace name (by simp)
    rw [find_append] at h
    obtain ⟨directory, hdirectory, hfind⟩ := Option.bind_eq_some_iff.mp h
    cases directory with
    | leaf kind => cases hfind
    | directory children =>
      obtain ⟨below, hentry, hbelow⟩ := Option.bind_eq_some_iff.mp hfind
      cases (find_nil below).symm.trans hbelow
      rw [statPath_relOf hparent hname]
      refine bind_ok.mpr ⟨children, openContextDir_of_find hparent hdirectory, ?_⟩
      rw [statFile, if_neg hname.ne_dot, hentry]

lemma find_of_statPath {node : Node} (hplace : PlainPlace place)
    (h : statPath context (relOf place) = .ok node) : context.root.find place = some node := by
  rcases eq_nil_or_concat' place with rfl | ⟨parent, name, rfl⟩
  · have hroot := @statPath_of_find context [] context.root (find_nil _)
    cases hroot.symm.trans h
    exact find_nil _
  · have hparent : PlainPlace parent := fun n hn => hplace n (mem_append_left _ hn)
    have hname : Plain name := hplace name (by simp)
    rw [statPath_relOf hparent hname] at h
    obtain ⟨children, hopen, h⟩ := bind_ok.mp h
    rw [statFile, if_neg hname.ne_dot] at h
    have hparent' : context.root.find parent = some (.directory children) :=
      find_of_openContextDir hparent hopen
    rw [find_append, hparent', Option.bind_some, find_directory_cons]
    cases hentry : NameTree.entry children name with
    | none =>
      rw [hentry] at h
      cases h
    | some found =>
      rw [hentry] at h
      cases h
      exact find_nil _

def sourceNames (raw : Text) : List Text :=
  (components raw).filter fun part => part ≠ [] ∧ part ≠ dot

lemma cleanCopySource_ok {raw source : Text} (h : cleanCopySource raw = .ok source) :
    source = relOf (sourceNames raw) := by
  iterate 3 obtain ⟨-, h⟩ := seq_ok.mp h
  cases h
  rfl

lemma plain_of_cleanCopySource {raw source : Text} (h : cleanCopySource raw = .ok source) :
    PlainPlace (sourceNames raw) := by
  iterate 2 obtain ⟨-, h⟩ := seq_ok.mp h
  obtain ⟨hdots, -⟩ := seq_ok.mp h
  rw [rejectIf_ok] at hdots
  intro name hname
  obtain ⟨hpart, hkept⟩ := mem_filter.mp hname
  obtain ⟨hne, hdot⟩ := of_decide_eq_true hkept
  refine ⟨hne, Lib.PathText.no_sep_of_mem_components hpart, hdot, ?_⟩
  rintro rfl
  exact hdots hname

end Sources

-- ══ Lists in order

lemma dedup_of_nodup {α : Type} {key : α → Text} {as : List α} {previous : Option Text}
    (h : (as.map key).Nodup) (hprevious : ∀ a ∈ as, previous ≠ some (key a)) :
    dedup key as previous = as := by
  induction as generalizing previous with
  | nil => rfl
  | cons a as ih =>
    obtain ⟨hnotin, hnodup⟩ := nodup_cons.mp h
    rw [dedup, if_neg (hprevious a mem_cons_self), ih hnodup]
    intro b hb heq
    exact hnotin (Option.some.inj heq ▸ mem_map_of_mem hb)

lemma sorted_entries (h : (entries.map CopyEntry.rel).Nodup) :
    ((entries.insertionSort entryLe).map CopyEntry.rel).Pairwise (· < ·) := by
  have : Std.Total entryLe := ⟨fun a b => le_total a.rel b.rel⟩
  have : IsTrans CopyEntry entryLe := ⟨fun a b c => le_trans⟩
  have hsorted := pairwise_insertionSort entryLe entries
  have hnodup : ((entries.insertionSort entryLe).map CopyEntry.rel).Nodup :=
    ((perm_insertionSort entryLe entries).map _).nodup_iff.mpr h
  rw [pairwise_map]
  rw [Nodup, pairwise_map] at hnodup
  exact (hsorted.and hnodup).imp fun ⟨hle, hne⟩ => lt_of_le_of_ne hle hne

-- ══ Copies of a directory

section Directory

variable {context : BuildContext} {raw source : Text} {children : List (Text × Node)}

lemma Collects.ne_nil {rules : List IgnoreRule} {node : Node}
    (h : Collects rules node place entries included) :
    entries ≠ [] ↔ included = true := by
  rw [h.included]
  constructor
  · intro hne
    obtain ⟨entry, hentry⟩ := exists_mem_of_ne_nil _ hne
    obtain ⟨below, found, hfind, hkept, -⟩ := (h.mem entry).mp hentry
    exact Kept.above hfind hkept
  · intro hkept
    refine ne_nil_of_mem ((h.mem _).mpr ⟨[], node, find_nil node, ?_, rfl⟩)
    rwa [append_nil]

lemma Found.append_empty (found : Found) : found.append {} = found := by
  simp [Found.append]

lemma appendSources_singleton (context : BuildContext) (raw : Text) (sourceIndex : ℕ) :
    appendSources context [raw] sourceIndex = appendSourceMatches context raw sourceIndex := by
  rw [appendSources, appendSources]
  cases appendSourceMatches context raw sourceIndex with
  | error e => rfl
  | ok found => exact congrArg Except.ok found.append_empty

lemma resolve_of_found {sources : List Text} {found : Found}
    (h : appendSources context sources 0 = .ok found) :
    resolveCopySources context sources = if found.entries = [] then .error .copySourceNotFound
      else .ok
        { entries := dedup CopyEntry.rel (found.entries.insertionSort entryLe) none
          roots := dedup CopyRoot.rel (found.roots.insertionSort rootLe) none } := by
  rw [resolveCopySources, h]
  exact rejectIf_bind

lemma directory_source_matches (hclean : cleanCopySource raw = .ok source)
    (hliteral : PathPattern.hasCopyMeta source = false)
    (hdir : context.root.find (sourceNames raw) = some (.directory children))
    (happend : appendPathAt context.rules (.directory children) source source =
      .ok (entries, included)) :
    appendSourceMatches context raw 0 = if included = false then .error .copySourceNotFound
      else .ok ⟨entries, [⟨source, .directory, 0⟩], true⟩ := by
  have hstat : statPath context source = .ok (.directory children) := by
    rw [cleanCopySource_ok hclean]
    exact statPath_of_find hdir
  have hmatches : sourceMatches context source 0 = .ok ⟨entries,
      if included then [⟨source, .directory, 0⟩] else [], included⟩ := by
    rw [sourceMatches, if_neg (by rw [hliteral]; decide), hstat]
    change appendRoot context _ source source 0 = _
    rw [appendRoot, happend]
    rfl
  rw [appendSourceMatches, hclean]
  change (sourceMatches context source 0 >>= _) = _
  rw [hmatches]
  cases included <;> rfl

lemma kept_iff_collected {rules : List IgnoreRule} {node : Node}
    {found : Node} {paths : List Text} (hwell : node.WellNamed Plain (· < ·))
    (hplace : PlainPlace place) (hfound : node.find below = some found)
    (hpaths : ∀ path, path ∈ paths ↔ ∃ below found, node.find below = some found ∧
      Kept rules found (place ++ below) ∧ path = relOf (place ++ below)) :
    Kept rules found (place ++ below) ↔ ¬ IsIgnored rules (relOf (place ++ below)) ∨
      kindOf found = .directory ∧ ∃ further inner, further ≠ [] ∧
        found.find further = some inner ∧ relOf (place ++ below ++ further) ∈ paths := by
  have hinside : ∀ {further inner}, found.find further = some inner →
      node.find (below ++ further) = some inner := by
    intro further inner hinner
    rw [find_append, hfound]
    exact hinner
  constructor
  · rintro ⟨further, inner, hinner, hkept⟩
    cases further with
    | nil =>
      rw [append_nil] at hkept
      exact .inl fun hignored => absurd (hkept.symm.trans (ignored_iff.mpr hignored)) (by decide)
    | cons name further =>
      cases found with
      | leaf kind => cases hinner
      | directory children =>
        refine .inr ⟨rfl, name :: further, inner, cons_ne_nil _ _, hinner, ?_⟩
        refine (hpaths _).mpr ⟨below ++ name :: further, inner, hinside hinner, ?_, ?_⟩
        · refine ⟨[], inner, find_nil inner, ?_⟩
          rwa [append_nil, ← append_assoc]
        · rw [append_assoc]
  · rintro (hignored | ⟨-, further, inner, -, hinner, hmem⟩)
    · refine ⟨[], found, find_nil found, ?_⟩
      rw [append_nil]
      exact Bool.eq_false_iff.mpr fun h => hignored (ignored_iff.mp h)
    · obtain ⟨other, inner', hinner', hkept, heq⟩ := (hpaths _).mp hmem
      rw [append_assoc] at heq
      have hsame := relOf_inj (hplace.append (hwell.find (hinside hinner)).1)
        (hplace.append (hwell.find hinner').1) heq
      rw [append_cancel_left_eq] at hsame
      rw [← hsame] at hinner' hkept
      cases (hinside hinner).symm.trans hinner'
      rw [← append_assoc] at hkept
      exact Kept.above hinner hkept

/-- A copy of a directory collects the paths at and below it that are not ignored, and the ignored
directories with a path below them that is collected, each once. -/
theorem directory_source_collects (hnone : NoOther context.root)
    (hclean : cleanCopySource raw = .ok source) (hliteral : PathPattern.hasCopyMeta source = false)
    (hdir : context.root.find (sourceNames raw) = some (.directory children)) :
    ∃ paths : List Text, paths.Pairwise (· < ·) ∧
      (∀ path, path ∈ paths ↔ ∃ below node,
        context.root.find (sourceNames raw ++ below) = some node ∧
        path = relOf (sourceNames raw ++ below) ∧
        (¬ IsIgnored context.rules path ∨ kindOf node = .directory ∧
          ∃ further inner, further ≠ [] ∧ node.find further = some inner ∧
            relOf (sourceNames raw ++ below ++ further) ∈ paths)) ∧
      (resolveCopySources context [raw]).map (fun found => found.entries.map CopyEntry.rel) =
        if paths = [] then .error .copySourceNotFound else .ok paths := by
  obtain ⟨hplace, hwell⟩ := context.wellNamed.find hdir
  have hsource := cleanCopySource_ok hclean
  have hbelow : ∀ below, context.root.find (sourceNames raw ++ below) =
      (NameTree.directory children).find below := by
    intro below
    rw [find_append, hdir]
    rfl
  have hnone' : NoOther (.directory children) := fun below hfind =>
    hnone (sourceNames raw ++ below) ((hbelow below).trans hfind)
  obtain ⟨entries, included, happend, hcollects⟩ :=
    @appendPathAt_collects context.rules _ _ hplace hwell hnone'
  rw [← hsource] at happend
  have hmatches := directory_source_matches hclean hliteral hdir happend
  have hsorted := sorted_entries hcollects.nodup
  refine ⟨(entries.insertionSort entryLe).map CopyEntry.rel, hsorted, ?_, ?_⟩
  · have hpaths : ∀ path, path ∈ (entries.insertionSort entryLe).map CopyEntry.rel ↔
        ∃ below found, (NameTree.directory children).find below = some found ∧
          Kept context.rules found (sourceNames raw ++ below) ∧
          path = relOf (sourceNames raw ++ below) := by
      intro path
      rw [((perm_insertionSort entryLe entries).map _).mem_iff, mem_map]
      constructor
      · rintro ⟨entry, hentry, rfl⟩
        obtain ⟨below, found, hfind, hkept, rfl⟩ := (hcollects.mem entry).mp hentry
        exact ⟨below, found, hfind, hkept, rfl⟩
      · rintro ⟨below, found, hfind, hkept, rfl⟩
        exact ⟨_, (hcollects.mem _).mpr ⟨below, found, hfind, hkept, rfl⟩, rfl⟩
    intro path
    rw [hpaths]
    refine exists_congr fun below => exists_congr fun node => ?_
    rw [hbelow]
    refine and_congr_right fun hfind => ?_
    rw [kept_iff_collected hwell hplace hfind hpaths, and_comm]
    refine and_congr_right fun hpath => ?_
    rw [hpath]
  · cases included with
    | false =>
      have hnil : entries = [] := by
        by_contra hne
        exact absurd (hcollects.ne_nil.mp hne) (by decide)
      rw [resolveCopySources, appendSources_singleton, hmatches, hnil, insertionSort_nil]
      rfl
    | true =>
      have hne : entries ≠ [] := hcollects.ne_nil.mpr rfl
      have hne' : (entries.insertionSort entryLe).map CopyEntry.rel ≠ [] := by
        intro hnil
        have hperm := perm_insertionSort entryLe entries
        rw [map_eq_nil_iff.mp hnil] at hperm
        exact hne hperm.nil_eq.symm
      rw [resolve_of_found ((appendSources_singleton context raw 0).trans hmatches), if_neg hne,
        if_neg hne']
      have hnodup : ((entries.insertionSort entryLe).map CopyEntry.rel).Nodup :=
        hsorted.imp fun hlt => hlt.ne
      rw [dedup_of_nodup hnodup (by simp)]
      rfl

end Directory

-- A directory that is ignored but for one of its entries.

def literalRule (path : String) (negated : Bool) : IgnoreRule :=
  ⟨⟨path.toList.map fun c => .literal c.toNat, []⟩, negated⟩

def sampleSource : List (Text × Node) :=
  [("a".toList, .leaf .file), ("b".toList, .leaf .symLink)]

lemma sampleSource_wellNamed : (NameTree.directory sampleSource).WellNamed Plain (· < ·) := by
  refine .directory (by decide) (by decide) fun entry hentry => ?_
  simp only [sampleSource, mem_cons, not_mem_nil, or_false] at hentry
  rcases hentry with rfl | rfl <;> exact .leaf _

def sampleContext : BuildContext where
  entries := [("src".toList, .directory sampleSource)]
  wellNamed := .directory (by decide) (by decide) fun entry hentry =>
    mem_singleton.mp hentry ▸ sampleSource_wellNamed
  rules := [literalRule "src" false, literalRule "src/b" true]
  absoluteRoot := "/context".toList
  realpath := fun _ => none

lemma noOther_leaf (h : kind ≠ .other) : NoOther (.leaf kind) := by
  intro below hfind
  cases below with
  | nil => exact h (by cases hfind; rfl)
  | cons name below => cases hfind

lemma noOther_directory {children : List (Text × Node)}
    (h : ∀ child ∈ children, NoOther child.2) : NoOther (.directory children) := by
  intro below hfind
  cases below with
  | nil => cases hfind
  | cons name below =>
    obtain ⟨child, hentry, hfind⟩ := Option.bind_eq_some_iff.mp hfind
    exact h _ (mem_of_entry hentry) below hfind

lemma sampleContext_noOther : NoOther sampleContext.root := by
  refine noOther_directory fun child hchild => ?_
  rw [mem_singleton.mp hchild]
  refine noOther_directory fun entry hentry => ?_
  simp only [sampleSource, mem_cons, not_mem_nil, or_false] at hentry
  rcases hentry with rfl | rfl
  · exact noOther_leaf (by decide)
  · exact noOther_leaf (by decide)

theorem directory_source_collects_sample :
    ∃ paths : List Text, paths.Pairwise (· < ·) ∧ paths = ["src".toList, "src/b".toList] ∧
      (resolveCopySources sampleContext ["./src/".toList]).map
        (fun found => found.entries.map CopyEntry.rel) = .ok paths := by
  have hclean : cleanCopySource "./src/".toList = .ok "src".toList := by decide +kernel
  have hresolve : (resolveCopySources sampleContext ["./src/".toList]).map
      (fun found => found.entries.map CopyEntry.rel) = .ok ["src".toList, "src/b".toList] := by
    decide +kernel
  obtain ⟨paths, hsorted, -, hpaths⟩ :=
    @directory_source_collects sampleContext _ _ sampleSource sampleContext_noOther hclean
      (by decide +kernel) (by rfl)
  rw [hresolve] at hpaths
  split at hpaths
  · cases hpaths
  · cases hpaths
    exact ⟨_, hsorted, rfl, hresolve⟩

end SporeVM.Context
