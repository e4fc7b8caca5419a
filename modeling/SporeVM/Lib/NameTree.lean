import Mathlib.Data.List.Nodup
import Mathlib.Tactic.Common

/-!
# Trees of named entries

A tree is a leaf of some kind or a directory, which lists entries by their names. A place in a tree
is the list of the names that lead there.
-/

namespace Lib

open List

inductive NameTree (ν κ : Type) where
  | leaf (kind : κ)
  | directory (entries : List (ν × NameTree ν κ))

namespace NameTree

variable {ν κ : Type}

mutual

theorem induct {motive : NameTree ν κ → Prop} (leaf : ∀ kind, motive (.leaf kind))
    (directory : ∀ entries, (∀ entry ∈ entries, motive entry.2) → motive (.directory entries)) :
    ∀ tree, motive tree
  | .leaf kind => leaf kind
  | .directory entries => directory entries (induct_entries leaf directory entries)

theorem induct_entries {motive : NameTree ν κ → Prop} (leaf : ∀ kind, motive (.leaf kind))
    (directory : ∀ entries, (∀ entry ∈ entries, motive entry.2) → motive (.directory entries)) :
    ∀ entries : List (ν × NameTree ν κ), ∀ entry ∈ entries, motive entry.2
  | [], _, h => nomatch h
  | (_, tree) :: rest, entry, h => by
    rcases mem_cons.mp h with rfl | h
    · exact induct leaf directory tree
    · exact induct_entries leaf directory rest entry h

end

-- ══ Places

variable [DecidableEq ν]

def entry (entries : List (ν × NameTree ν κ)) (name : ν) : Option (NameTree ν κ) :=
  entries.lookup name

def find : NameTree ν κ → List ν → Option (NameTree ν κ)
  | tree, [] => some tree
  | .leaf _, _ :: _ => none
  | .directory entries, name :: names => (entry entries name).bind fun tree => tree.find names

@[simp] lemma find_nil (tree : NameTree ν κ) : tree.find [] = some tree := by
  cases tree <;> rfl

@[simp] lemma find_directory_cons (entries : List (ν × NameTree ν κ)) (name : ν) (names : List ν) :
    (directory entries).find (name :: names) =
      (entry entries name).bind fun tree => tree.find names := rfl

lemma find_append (tree : NameTree ν κ) (p q : List ν) :
    tree.find (p ++ q) = (tree.find p).bind fun below => below.find q := by
  induction p generalizing tree with
  | nil => rw [nil_append, find_nil, Option.bind_some]
  | cons name p ih =>
    cases tree with
    | leaf kind => rfl
    | directory entries =>
      rw [cons_append, find_directory_cons, find_directory_cons]
      cases entry entries name with
      | none => rfl
      | some below => exact ih below

-- ══ Names

inductive WellNamed (valid : ν → Prop) (lt : ν → ν → Prop) : NameTree ν κ → Prop
  | leaf (kind : κ) : WellNamed valid lt (.leaf kind)
  | directory {entries : List (ν × NameTree ν κ)}
      (hvalid : ∀ entry ∈ entries, valid entry.1)
      (horder : (entries.map Prod.fst).Pairwise lt)
      (h : ∀ entry ∈ entries, WellNamed valid lt entry.2) :
      WellNamed valid lt (.directory entries)

variable {tree : NameTree ν κ} {entries : List (ν × NameTree ν κ)}

lemma entry_of_mem (h : (entries.map Prod.fst).Nodup) {name : ν} (hmem : (name, tree) ∈ entries) :
    entry entries name = some tree := by
  obtain ⟨before, after, rfl⟩ := append_of_mem hmem
  refine lookup_eq_some_iff.mpr ⟨before, after, rfl, fun entry hentry => ?_⟩
  rw [map_append, map_cons] at h
  have hne : entry.1 ≠ name := (nodup_append.mp h).2.2 _ (mem_map_of_mem hentry) _ mem_cons_self
  simpa using hne.symm

lemma mem_of_entry {name : ν} (h : entry entries name = some tree) : (name, tree) ∈ entries := by
  obtain ⟨before, after, rfl, -⟩ := lookup_eq_some_iff.mp h
  exact mem_append_right _ mem_cons_self

variable {node : NameTree ν κ}

lemma WellNamed.find {valid : ν → Prop} {lt : ν → ν → Prop} {place : List ν}
    (h : tree.WellNamed valid lt) (hfind : tree.find place = some node) :
    (∀ name ∈ place, valid name) ∧ node.WellNamed valid lt := by
  induction place generalizing tree with
  | nil =>
    cases (find_nil tree).symm.trans hfind
    exact ⟨nofun, h⟩
  | cons name place ih =>
    cases h with
    | leaf kind => cases hfind
    | directory hvalid _ h =>
      obtain ⟨below, hentry, hfind⟩ := Option.bind_eq_some_iff.mp hfind
      have hmem := mem_of_entry hentry
      obtain ⟨hplace, hnode⟩ := ih (h _ hmem) hfind
      refine ⟨fun other hother => ?_, hnode⟩
      rcases mem_cons.mp hother with rfl | hother
      · exact hvalid _ hmem
      · exact hplace other hother

-- ══ One more entry

omit [DecidableEq ν] in
inductive Adds : NameTree ν κ → NameTree ν κ → List ν → NameTree ν κ → Prop
  | here (before after : List (ν × NameTree ν κ)) (name : ν) (tree : NameTree ν κ) :
      Adds (.directory (before ++ after)) (.directory (before ++ (name, tree) :: after)) [name] tree
  | inside (before after : List (ν × NameTree ν κ)) (name : ν)
      {child child' tree : NameTree ν κ} {place : List ν} (h : Adds child child' place tree) :
      Adds (.directory (before ++ (name, child) :: after))
        (.directory (before ++ (name, child') :: after)) (name :: place) tree

omit [DecidableEq ν] in
def Grown (tree : NameTree ν κ) (place p : List ν) (node node' : NameTree ν κ) : Prop :=
  node' = node ∨ ∃ rest, place = p ++ rest ∧ Adds node node' rest tree

lemma entry_insert {before after : List (ν × NameTree ν κ)} {name : ν}
    (hnames : ((before ++ (name, tree) :: after).map Prod.fst).Nodup) (other : ν) :
    entry (before ++ (name, tree) :: after) other =
      if other = name then some tree else entry (before ++ after) other := by
  by_cases hother : other = name
  · rw [if_pos hother, hother]
    exact entry_of_mem hnames (mem_append_right _ mem_cons_self)
  · rw [if_neg hother, entry, entry, lookup_append, lookup_append, lookup_cons,
      beq_false_of_ne hother]

section Adds

variable {valid : ν → Prop} {lt : ν → ν → Prop} [Std.Irrefl lt]
variable {t t' tree : NameTree ν κ} {place : List ν}

omit [DecidableEq ν] in
lemma WellNamed.nodup (h : (NameTree.directory entries).WellNamed valid lt) :
    (entries.map Prod.fst).Nodup := by
  cases h with
  | directory _ horder _ =>
    refine horder.imp fun hlt heq => ?_
    rw [heq] at hlt
    exact Std.Irrefl.irrefl _ hlt

omit [DecidableEq ν] [Std.Irrefl lt] in
lemma WellNamed.entry (h : (NameTree.directory entries).WellNamed valid lt) {e : ν × NameTree ν κ}
    (he : e ∈ entries) : valid e.1 ∧ e.2.WellNamed valid lt := by
  cases h with
  | directory hvalid _ h => exact ⟨hvalid e he, h e he⟩

lemma entry_insert_ne {before after : List (ν × NameTree ν κ)} {name other : ν}
    (hnames : ((before ++ (name, tree) :: after).map Prod.fst).Nodup) (hother : other ≠ name) :
    entry (before ++ (name, tree) :: after) other = entry (before ++ after) other := by
  rw [entry_insert hnames, if_neg hother]

lemma Adds.find_new (h : Adds t t' place tree) (hwell : t'.WellNamed valid lt) :
    t'.find place = some tree := by
  induction h with
  | here before after name tree =>
    rw [find_directory_cons, entry_insert hwell.nodup, if_pos rfl, Option.bind_some, find_nil]
  | inside before after name h ih =>
    rw [find_directory_cons, entry_insert hwell.nodup, if_pos rfl, Option.bind_some]
    exact ih (hwell.entry (mem_append_right _ mem_cons_self)).2

variable {p : List ν}

lemma Adds.find_old (h : Adds t t' place tree) (hwell : t'.WellNamed valid lt)
    (hfind : t.find p = some node) :
    ∃ node', t'.find p = some node' ∧ Grown tree place p node node' := by
  induction h generalizing p with
  | here before after name tree =>
    cases p with
    | nil =>
      cases hfind
      exact ⟨_, rfl, .inr ⟨_, rfl, .here before after name tree⟩⟩
    | cons other p =>
      obtain ⟨child, hentry, hfind⟩ := Option.bind_eq_some_iff.mp hfind
      have hother : other ≠ name := by
        rintro rfl
        have hmem := mem_map_of_mem (f := Prod.fst) (mem_of_entry hentry)
        have hnames := hwell.nodup
        rw [map_append, map_cons, nodup_middle, nodup_cons, ← map_append] at hnames
        exact hnames.1 hmem
      refine ⟨node, ?_, .inl rfl⟩
      rw [find_directory_cons, entry_insert_ne hwell.nodup hother, hentry]
      exact hfind
  | inside before after name h ih =>
    rename_i child child' tree place
    cases p with
    | nil =>
      cases hfind
      exact ⟨_, rfl, .inr ⟨_, rfl, .inside before after name h⟩⟩
    | cons other p =>
      have hnames : ((before ++ (name, child) :: after).map Prod.fst).Nodup := by
        simpa using hwell.nodup
      rw [find_directory_cons, entry_insert hnames] at hfind
      rw [find_directory_cons, entry_insert hwell.nodup]
      by_cases hother : other = name
      · rw [if_pos hother] at hfind ⊢
        obtain ⟨node', hfind', hgrown⟩ :=
          ih (hwell.entry (mem_append_right _ mem_cons_self)).2 hfind
        refine ⟨node', hfind', hgrown.imp_right ?_⟩
        rintro ⟨rest, rfl, hadds⟩
        exact ⟨rest, by rw [hother, cons_append], hadds⟩
      · rw [if_neg hother] at hfind ⊢
        exact ⟨node, hfind, .inl rfl⟩

lemma Adds.find_only (h : Adds t t' place tree) (hwell : t'.WellNamed valid lt)
    (hold : t.find p = none) {node' : NameTree ν κ} (hfind : t'.find p = some node') :
    ∃ below, p = place ++ below := by
  induction h generalizing p with
  | here before after name tree =>
    cases p with
    | nil => cases hold
    | cons other p =>
      by_cases hother : other = name
      · exact ⟨p, by rw [hother, singleton_append]⟩
      · rw [find_directory_cons, entry_insert_ne hwell.nodup hother] at hfind
        rw [find_directory_cons, hfind] at hold
        cases hold
  | inside before after name h ih =>
    rename_i child child' tree place
    cases p with
    | nil => cases hold
    | cons other p =>
      have hnames : ((before ++ (name, child) :: after).map Prod.fst).Nodup := by
        simpa using hwell.nodup
      rw [find_directory_cons, entry_insert hnames] at hold
      rw [find_directory_cons, entry_insert hwell.nodup] at hfind
      by_cases hother : other = name
      · rw [if_pos hother] at hold hfind
        obtain ⟨below, rfl⟩ := ih (hwell.entry (mem_append_right _ mem_cons_self)).2 hold hfind
        exact ⟨below, by rw [hother, cons_append]⟩
      · rw [if_neg hother] at hold hfind
        rw [hfind] at hold
        cases hold

omit [DecidableEq ν] in
inductive GrownEntries (tree : NameTree ν κ) (place p : List ν) :
    List (ν × NameTree ν κ) → List (ν × NameTree ν κ) → Prop
  | nil : GrownEntries tree place p [] []
  | keep {name : ν} {node node' : NameTree ν κ} {entries entries' : List (ν × NameTree ν κ)}
      (h : Grown tree place (p ++ [name]) node node')
      (hrest : GrownEntries tree place p entries entries') :
      GrownEntries tree place p ((name, node) :: entries) ((name, node') :: entries')
  | new {name : ν} {entries entries' : List (ν × NameTree ν κ)} (h : place = p ++ [name])
      (hrest : GrownEntries tree place p entries entries') :
      GrownEntries tree place p entries ((name, tree) :: entries')

omit [DecidableEq ν]

lemma GrownEntries.refl (tree : NameTree ν κ) (place p : List ν) :
    ∀ entries, GrownEntries tree place p entries entries
  | [] => .nil
  | (_, _) :: entries => .keep (.inl rfl) (GrownEntries.refl tree place p entries)

lemma GrownEntries.append {tree : NameTree ν κ} {place p : List ν}
    {entries entries' : List (ν × NameTree ν κ)} (h : GrownEntries tree place p entries entries') :
    ∀ before, GrownEntries tree place p (before ++ entries) (before ++ entries')
  | [] => h
  | (_, _) :: before => .keep (.inl rfl) (h.append before)

lemma Grown.directory {entries' : List (ν × NameTree ν κ)}
    (h : Grown tree place p node (.directory entries')) :
    ∃ entries, node = .directory entries ∧ GrownEntries tree place p entries entries' := by
  rcases h with rfl | ⟨rest, rfl, hadds⟩
  · exact ⟨entries', rfl, .refl ..⟩
  · cases hadds with
    | here before after name =>
      exact ⟨_, rfl, .append (.new rfl (.refl ..)) before⟩
    | @inside before after name child child' _ rest h =>
      refine ⟨_, rfl, .append (.keep (.inr ⟨rest, ?_, h⟩) (.refl ..)) before⟩
      rw [append_assoc, singleton_append]

lemma Grown.leaf {kind : κ} (h : Grown tree place p node (.leaf kind)) : node = .leaf kind := by
  rcases h with h | ⟨rest, -, hadds⟩
  · exact h.symm
  · cases hadds

lemma Grown.of_leaf {node' : NameTree ν κ} {kind : κ} (h : Grown tree place p (.leaf kind) node')
    : node' = .leaf kind := by
  rcases h with h | ⟨rest, -, hadds⟩
  · exact h
  · cases hadds

end Adds

end NameTree

end Lib
