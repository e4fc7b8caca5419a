import SporeVM.Build.Collected

/-!
# Copies from a context with one more ignored entry

Two contexts are compared that differ in one entry, which is ignored with everything below it. The
copy collects nothing there. It may be changed all the same: a special file makes it fail where it
is looked at, ignored or not, a link does where a source needs a directory, and a link of a source
that led nowhere may lead somewhere now. There is nothing else.
-/

namespace SporeVM.Context

open Lib (NameTree)
open Lib.NameTree (Grown GrownEntries find_nil find_directory_cons find_append
  entry_of_mem)
open Lib.PathText (Text Plain sep joinTwo)
open Lib.Check (Agree Fails fails_error)
open PathPattern (Pattern hasCopyMeta)
open List

variable {node node' : Node} {p place : List Text} {children : List (Text × Node)}
  {raw parentRel sourceRel : Text} {pattern : Pattern} {sourceIndex : ℕ}

-- ══ Two contexts

/-- The second context has one entry more. The host leads every path where it led before, and where
it leads into the context there is something. -/
structure BuildContext.Adds (context context' : BuildContext) (place : List Text) (tree : Node) :
    Prop where
  root : NameTree.Adds context.root context'.root place tree
  rules : context'.rules = context.rules
  absoluteRoot : context'.absoluteRoot = context.absoluteRoot
  realpath : ∀ path resolved, context.realpath path = some resolved →
    context'.realpath path = some resolved
  found : ∀ path rel, context.realpath path = some (context.absoluteRoot ++ sep :: rel) →
    ∃ target node, rel = relOf target ∧ context.root.find target = some node

/-- The tree is ignored at the place, with everything below it. -/
def AllIgnored (rules : List IgnoreRule) (place : List Text) (tree : Node) : Prop :=
  ∀ below node, tree.find below = some node → ignored rules (relOf (place ++ below)) = true

/-- The pattern of one of the sources, if it has wildcards. -/
def IsPattern (sources : List Text) (pattern : Pattern) : Prop :=
  ∃ raw ∈ sources, ∃ source, cleanCopySource raw = .ok source ∧ hasCopyMeta source = true ∧
    Pattern.compile source .copy = .ok pattern

/-- A link of the context led nowhere, and leads somewhere now. -/
def Mends (context context' : BuildContext) : Prop :=
  ∃ link, context.root.find link = some (.leaf .symLink) ∧
    context.realpath (joinTwo context.absoluteRoot (relOf link)) = none ∧
    context'.realpath (joinTwo context.absoluteRoot (relOf link)) ≠ none

/-- The tree holds no special file, and no link stands where one of the sources needs a
directory. -/
structure Plainly (sources : List Text) (place : List Text) (tree : Node) : Prop where
  noSpecial : ∀ below, tree.find below ≠ some (.leaf .other)
  noLink : ∀ below, tree.find below = some (.leaf .symLink) → ∀ pattern, IsPattern sources pattern →
    pattern.requiresLiteralDirectory (relOf (place ++ below)) = false

-- ══ Files below a path

variable {below : List Text} {name : Text}

section Below

variable {rules : List IgnoreRule} {outputRel : Text}

lemma appendChildren_nothing
    (h : ∀ child ∈ children, appendPathAt rules child.2 (joinRel sourceRel child.1)
      (joinRel outputRel child.1) = .ok ([], false)) :
    appendChildren rules children sourceRel outputRel = .ok ([], false) := by
  induction children with
  | nil => rfl
  | cons first children ih =>
    rw [appendChildren, h _ mem_cons_self,
      ih fun child hchild => h child (mem_cons_of_mem _ hchild)]
    rfl

lemma AllIgnored.child (hwell : (NameTree.directory children).WellNamed Plain (· < ·))
    (h : AllIgnored rules place (.directory children))
    (hmem : (name, node) ∈ children) : AllIgnored rules (place ++ [name]) node := by
  intro below found hfind
  rw [append_assoc]
  refine h (name :: below) found ?_
  rw [find_directory_cons, entry_of_mem hwell.nodup hmem]
  exact hfind

lemma AllIgnored.self {tree : Node} (h : AllIgnored rules place tree) :
    ignored rules (relOf place) = true := by
  have hself := h [] tree (find_nil tree)
  rwa [append_nil] at hself

lemma appendPathAt_nothing (hplace : PlainPlace place) (hwell : node.WellNamed Plain (· < ·))
    (hignored : AllIgnored rules place node)
    (hother : ∀ below, node.find below ≠ some (.leaf .other)) :
    appendPathAt rules node (relOf place) outputRel = .ok ([], false) := by
  induction node using NameTree.induct generalizing place outputRel with
  | leaf kind =>
    have hkind : kind ≠ .other := by
      rintro rfl
      exact hother [] rfl
    rw [appendPathAt_leaf hkind, if_pos hignored.self]
  | directory children ih =>
    rw [appendPathAt]
    by_cases hpruned : pruned rules (relOf place)
    · rw [if_pos hpruned]
    · have hchildren : appendChildren rules children (relOf place) outputRel = .ok ([], false) := by
        refine appendChildren_nothing ?_
        rintro ⟨name, node⟩ hmem
        obtain ⟨hname, hnode⟩ := hwell.entry hmem
        rw [joinRel_relOf hplace hname]
        refine ih _ hmem (hplace.concat hname) hnode (hignored.child hwell hmem) ?_
        intro below hfind
        refine hother (name :: below) ?_
        rw [find_directory_cons, entry_of_mem hwell.nodup hmem]
        exact hfind
      rw [if_neg hpruned, hchildren]
      change (if ignored rules (relOf place) = true then _ else _) = _
      rw [if_pos hignored.self]
      rfl

lemma appendChildren_grown {tree : Node} {children' : List (Text × Node)}
    (h : GrownEntries tree place p children children')
    (hkeep : ∀ name node node', (name, node') ∈ children' → Grown tree place (p ++ [name])
      node node' → appendPathAt rules node' (joinRel sourceRel name) (joinRel outputRel name) =
      appendPathAt rules node (joinRel sourceRel name) (joinRel outputRel name))
    (hnew : ∀ name, (name, tree) ∈ children' → place = p ++ [name] →
      appendPathAt rules tree (joinRel sourceRel name) (joinRel outputRel name) = .ok ([], false)) :
    appendChildren rules children' sourceRel outputRel =
      appendChildren rules children sourceRel outputRel := by
  induction h with
  | nil => rfl
  | @keep name node node' _ _ hgrown _ ih =>
    rw [appendChildren, appendChildren, hkeep name node node' mem_cons_self hgrown,
      ih (fun _ _ _ hmem => hkeep _ _ _ (mem_cons_of_mem _ hmem))
        fun _ hmem => hnew _ (mem_cons_of_mem _ hmem)]
  | @new name entries entries' hplace _ ih =>
    rw [appendChildren, hnew name mem_cons_self hplace,
      ih (fun _ _ _ hmem => hkeep _ _ _ (mem_cons_of_mem _ hmem))
        fun _ hmem => hnew _ (mem_cons_of_mem _ hmem)]
    cases appendChildren rules entries sourceRel outputRel with
    | error e => rfl
    | ok found =>
      simp [bind, Except.bind, pure, Except.pure]

lemma appendPathAt_grown {tree : Node} (hp : PlainPlace p) (hwell : node'.WellNamed Plain (· < ·))
    (h : Grown tree place p node node')
    (hnew : ∀ outputRel, appendPathAt rules tree (relOf place) outputRel = .ok ([], false)) :
    appendPathAt rules node' (relOf p) outputRel = appendPathAt rules node (relOf p) outputRel := by
  induction node' using NameTree.induct generalizing node p outputRel with
  | leaf kind => rw [h.leaf]
  | directory children' ih =>
    obtain ⟨children, rfl, hentries⟩ := h.directory
    rw [appendPathAt, appendPathAt]
    by_cases hpruned : pruned rules (relOf p)
    · rw [if_pos hpruned, if_pos hpruned]
    · rw [if_neg hpruned, if_neg hpruned, appendChildren_grown hentries]
      · intro name node node' hmem hgrown
        obtain ⟨hname, hnode'⟩ := hwell.entry hmem
        rw [joinRel_relOf hp hname]
        exact ih _ hmem (hp.concat hname) hnode' hgrown
      · intro name hmem hplace
        rw [joinRel_relOf hp (hwell.entry hmem).1, ← hplace]
        exact hnew _

end Below

-- ══ Patterns

lemma find_concat {root : Node} (hroot : root.WellNamed Plain (· < ·))
    (hfind : root.find p = some (.directory children)) (hmem : (name, node) ∈ children) :
    root.find (p ++ [name]) = some node := by
  rw [find_append, hfind, Option.bind_some, find_directory_cons,
    entry_of_mem (hroot.find hfind).2.nodup hmem, Option.bind_some, find_nil]

variable {rel : Text}

section Scan

variable {context : BuildContext} {pattern : Pattern}

lemma childRel_root (name : Text) : childRel [] name = relOf ([] ++ [name]) := rfl

lemma childRel_relOf (h : PlainPlace place) (hne : place ≠ []) (hname : Plain name)
    : childRel (relOf place) name = relOf (place ++ [name]) := by
  have hrel : relOf place ≠ [] := by
    rw [relOf_of_ne_nil hne]
    exact written_ne_nil h hne
  rw [← joinRel_relOf h hname, childRel, if_neg hrel, joinRel, if_neg (relOf_ne_dot h hne)]

lemma appendWildcardChild_of_matches (h : pattern.matches rel = true) :
    appendWildcardChild context pattern sourceIndex node rel =
      appendSourceRoot context node rel sourceIndex := by
  cases node with
  | leaf kind => rw [appendWildcardChild, if_pos h]
  | directory children => rw [appendWildcardChild, if_pos h]

lemma appendWildcardChild_leaf (h : pattern.matches rel = false) (kind : LeafKind)
    (sourceIndex : ℕ) : appendWildcardChild context pattern sourceIndex (.leaf kind) rel =
      if pattern.couldMatchDescendant rel = true ∧ kind = .symLink ∧
          pattern.requiresLiteralDirectory rel = true then .error .copySourceEscapesContext
      else .ok {} := by
  rw [appendWildcardChild, if_neg (by rw [h]; decide)]

lemma appendWildcardChild_directory (h : pattern.matches rel = false)
    (children : List (Text × Node)) (sourceIndex : ℕ) :
    appendWildcardChild context pattern sourceIndex (.directory children) rel =
      if pattern.couldMatchDescendant rel = false then .ok {}
      else if pruned context.rules rel then .ok {}
      else appendWildcardMatches context pattern sourceIndex children rel := by
  rw [appendWildcardChild, if_neg (by rw [h]; decide)]

lemma appendWildcardMatches_nothing
    (h : ∀ child ∈ children, appendWildcardChild context pattern sourceIndex child.2
      (childRel parentRel child.1) = .ok {}) :
    appendWildcardMatches context pattern sourceIndex children parentRel = .ok {} := by
  induction children with
  | nil => rfl
  | cons first children ih =>
    rw [appendWildcardMatches, h _ mem_cons_self,
      ih fun child hchild => h child (mem_cons_of_mem _ hchild)]
    rfl

lemma Found.empty_append (found : Found) : Found.append {} found = found := by
  simp [Found.append]

end Scan

-- ══ Sources

variable {source : Text}

section Sources

variable {context : BuildContext}

lemma appendSourceRoot_of_ne (h : node ≠ .leaf .symLink) (rel : Text) (sourceIndex : ℕ) :
    appendSourceRoot context node rel sourceIndex =
      appendRoot context node rel rel sourceIndex := by
  cases node with
  | directory children => rfl
  | leaf kind =>
    cases kind with
    | symLink => exact absurd rfl h
    | file => rfl
    | other => rfl

lemma appendSourceRoot_link (h : ignored context.rules rel = false) (sourceIndex : ℕ) :
    appendSourceRoot context (.leaf .symLink) rel sourceIndex =
      appendDereferencedSourceSymlink context rel rel sourceIndex := by
  rw [appendSourceRoot, if_neg (by rw [h]; decide)]

end Sources

-- ══ Copies that are not changed

section Agreement

variable {context context' : BuildContext} {place : List Text} {tree : Node} {sources : List Text}

structure Unnoticed (context context' : BuildContext) (place : List Text) (tree : Node)
    (sources : List Text) : Prop where
  adds : context.Adds context' place tree
  allIgnored : AllIgnored context'.rules place tree
  plainly : Plainly sources place tree
  notMended : ¬ Mends context context'

namespace BuildContext.Adds

variable (hadds : context.Adds context' place tree)
include hadds

lemma find_tree (below : List Text) : context'.root.find (place ++ below) = tree.find below := by
  rw [find_append, hadds.root.find_new context'.wellNamed]
  rfl

lemma tree_wellNamed : PlainPlace place ∧ tree.WellNamed Plain (· < ·) :=
  context'.wellNamed.find (hadds.root.find_new context'.wellNamed)

lemma found_target {rel target : Text} (h : resolveContextSymlinkTarget context rel = .ok target) :
    ∃ p node, target = relOf p ∧ context.root.find p = some node := by
  rw [resolveContextSymlinkTarget] at h
  cases hpath : context.realpath (joinTwo context.absoluteRoot rel) with
  | none =>
    rw [hpath] at h
    cases h
  | some resolved =>
    rw [hpath] at h
    dsimp only at h
    by_cases hroot : resolved = context.absoluteRoot
    · rw [if_pos hroot] at h
      cases h
      exact ⟨[], context.root, rfl, find_nil _⟩
    · rw [if_neg hroot] at h
      split at h
      · next hinside =>
        cases h
        obtain ⟨rest, rfl⟩ := isPrefixOf_iff_prefix.mp hinside
        rw [append_assoc, singleton_append] at hpath
        obtain ⟨target, node, hrel, hfind⟩ := hadds.found _ rest hpath
        refine ⟨target, node, ?_, hfind⟩
        rw [← hrel, ← length_singleton, ← length_append, drop_left]
      · cases h

end BuildContext.Adds

namespace Unnoticed

variable (h : Unnoticed context context' place tree sources)
include h

lemma resolveTarget (hlink : context.root.find p = some (.leaf .symLink)) :
    resolveContextSymlinkTarget context' (relOf p) =
      resolveContextSymlinkTarget context (relOf p) := by
  rw [resolveContextSymlinkTarget, resolveContextSymlinkTarget, h.adds.absoluteRoot]
  cases hpath : context.realpath (joinTwo context.absoluteRoot (relOf p)) with
  | some resolved => rw [h.adds.realpath _ _ hpath]
  | none => rw [not_not.mp fun hne => h.notMended ⟨p, hlink, hpath, hne⟩]

lemma appendPathAt_new (hfind : tree.find below = some node) (outputRel : Text) :
    appendPathAt context'.rules node (relOf (place ++ below)) outputRel = .ok ([], false) := by
  obtain ⟨hplain, hwell⟩ := h.adds.tree_wellNamed
  obtain ⟨hbelow, hnode⟩ := hwell.find hfind
  have hdown : ∀ further, node.find further = tree.find (below ++ further) := fun further => by
    rw [find_append, hfind, Option.bind_some]
  refine appendPathAt_nothing (hplain.append hbelow) hnode ?_ ?_
  · intro further found hfound
    rw [append_assoc]
    exact h.allIgnored (below ++ further) found (hdown further ▸ hfound)
  · intro further hother
    exact h.plainly.noSpecial (below ++ further) (hdown further ▸ hother)

lemma appendRoot_grown {start : List Text} (hfind' : context'.root.find start = some node')
    (hgrown : Grown tree place start node node') (outputRel : Text) (sourceIndex : ℕ) :
    appendRoot context' node' (relOf start) outputRel sourceIndex =
      appendRoot context node (relOf start) outputRel sourceIndex := by
  obtain ⟨hplain, hwell⟩ := context'.wellNamed.find hfind'
  have hfiles : appendPathAt context'.rules node' (relOf start) outputRel =
      appendPathAt context'.rules node (relOf start) outputRel := by
    refine appendPathAt_grown hplain hwell hgrown ?_
    have hnew := h.appendPathAt_new (find_nil tree)
    rwa [append_nil] at hnew
  have hkind : kindOf node' = kindOf node := by
    cases node' with
    | leaf kind => rw [hgrown.leaf]
    | directory children' =>
      obtain ⟨children, rfl, -⟩ := hgrown.directory
      rfl
  rw [appendRoot, appendRoot, hfiles, hkind, h.adds.rules]

lemma appendSourceRoot_new (hfind : tree.find below = some node) (sourceIndex : ℕ) :
    appendSourceRoot context' node (relOf (place ++ below)) sourceIndex = .ok {} := by
  by_cases hlink : node = .leaf .symLink
  · rw [hlink, appendSourceRoot, if_pos (h.allIgnored below node hfind)]
  · rw [appendSourceRoot_of_ne hlink, appendRoot, h.appendPathAt_new hfind]
    rfl

lemma appendSourceRoot_grown (hfind : context.root.find p = some node)
    (hfind' : context'.root.find p = some node') (hgrown : Grown tree place p node node')
    (sourceIndex : ℕ) : appendSourceRoot context' node' (relOf p) sourceIndex =
      appendSourceRoot context node (relOf p) sourceIndex := by
  have hrules := h.adds.rules
  by_cases hlink : node' = .leaf .symLink
  · -- the link leads where it led
    subst hlink
    rw [hgrown.leaf] at hfind ⊢
    cases hignored : ignored context.rules (relOf p) with
    | true => rw [appendSourceRoot, appendSourceRoot, hrules, if_pos hignored, if_pos hignored]
    | false =>
      rw [appendSourceRoot_link hignored, appendSourceRoot_link (hrules ▸ hignored),
        appendDereferencedSourceSymlink, appendDereferencedSourceSymlink, h.resolveTarget hfind]
      cases htarget : resolveContextSymlinkTarget context (relOf p) with
      | error e => rfl
      | ok target =>
        obtain ⟨q, found, rfl, hfound⟩ := h.adds.found_target htarget
        obtain ⟨found', hfound', hgrown'⟩ := h.adds.root.find_old context'.wellNamed hfound
        change (statPath context' (relOf q) >>= _) = (statPath context (relOf q) >>= _)
        rw [statPath_of_find hfound, statPath_of_find hfound']
        exact h.appendRoot_grown hfound' hgrown' _ _
  · have hlink' : node ≠ .leaf .symLink := by
      rintro rfl
      exact hlink hgrown.of_leaf
    rw [appendSourceRoot_of_ne hlink, appendSourceRoot_of_ne hlink']
    exact h.appendRoot_grown hfind' hgrown _ _

variable (hpattern : IsPattern sources pattern)

include hpattern

lemma appendWildcardChild_new (hfind : tree.find below = some node) (hne : place ++ below ≠ [])
    (sourceIndex : ℕ) :
    appendWildcardChild context' pattern sourceIndex node (relOf (place ++ below)) = .ok {} := by
  have hfind' := (h.adds.find_tree below).trans hfind
  obtain ⟨hplain, hwell⟩ := context'.wellNamed.find hfind'
  induction node using NameTree.induct generalizing below
  all_goals cases hmatches : pattern.matches (relOf (place ++ below))
  case leaf.true | directory.true =>
    rw [appendWildcardChild_of_matches hmatches]
    exact h.appendSourceRoot_new hfind _
  case leaf.false kind =>
    rw [appendWildcardChild_leaf hmatches]
    refine if_neg ?_
    rintro ⟨-, rfl, hliteral⟩
    rw [h.plainly.noLink below hfind pattern hpattern] at hliteral
    cases hliteral
  case directory.false children ih =>
    rw [appendWildcardChild_directory hmatches]
    by_cases hcould : pattern.couldMatchDescendant (relOf (place ++ below)) = false
    · rw [if_pos hcould]
    · rw [if_neg hcould]
      by_cases hpruned : pruned context'.rules (relOf (place ++ below))
      · rw [if_pos hpruned]
      · rw [if_neg hpruned]
        refine appendWildcardMatches_nothing fun ⟨name, child⟩ hmem => ?_
        obtain ⟨hname, hchild⟩ := hwell.entry hmem
        have hentry := find_concat h.adds.tree_wellNamed.2 hfind hmem
        rw [childRel_relOf hplain hne hname, append_assoc]
        refine ih _ hmem hentry (by simp) ((h.adds.find_tree _).trans hentry) ?_ hchild
        rw [← append_assoc]
        exact PlainPlace.concat hplain hname

lemma appendWildcardMatches_grown {children' : List (Text × Node)}
    (hfind : context.root.find p = some (.directory children))
    (hfind' : context'.root.find p = some (.directory children'))
    (hentries : GrownEntries tree place p children children')
    (hrel : ∀ name, Plain name → childRel parentRel name = relOf (p ++ [name])) (sourceIndex : ℕ)
    (hkeep : ∀ name node node', (name, node') ∈ children' → context.root.find (p ++ [name]) =
      some node → context'.root.find (p ++ [name]) = some node' → Grown tree place (p ++ [name])
      node node' → appendWildcardChild context' pattern sourceIndex node' (relOf (p ++ [name])) =
        appendWildcardChild context pattern sourceIndex node (relOf (p ++ [name]))) :
    appendWildcardMatches context' pattern sourceIndex children' parentRel =
      appendWildcardMatches context pattern sourceIndex children parentRel := by
  have hentry : ∀ name node, (name, node) ∈ children →
      context.root.find (p ++ [name]) = some node := fun name node =>
    find_concat context.wellNamed hfind
  have hentry' : ∀ name node, (name, node) ∈ children' →
      Plain name ∧ context'.root.find (p ++ [name]) = some node := fun name node hmem =>
    ⟨((context'.wellNamed.find hfind').2.entry hmem).1,
      find_concat context'.wellNamed hfind' hmem⟩
  clear hfind hfind'
  induction hentries with
  | nil => rfl
  | @keep name node node' entries entries' hgrown _ ih =>
    obtain ⟨hname, hfind'⟩ := hentry' name node' mem_cons_self
    rw [appendWildcardMatches, appendWildcardMatches, hrel name hname,
      hkeep name node node' mem_cons_self (hentry name node mem_cons_self) hfind' hgrown,
      ih (fun _ _ _ hmem => hkeep _ _ _ (mem_cons_of_mem _ hmem))
        (fun _ _ hmem => hentry _ _ (mem_cons_of_mem _ hmem))
        fun _ _ hmem => hentry' _ _ (mem_cons_of_mem _ hmem)]
  | @new name entries entries' hplace _ ih =>
    have hnothing := h.appendWildcardChild_new hpattern (find_nil tree) (by simp [hplace])
      sourceIndex
    rw [append_nil, hplace] at hnothing
    rw [appendWildcardMatches, hrel name (hentry' name tree mem_cons_self).1, hnothing,
      ih (fun _ _ _ hmem => hkeep _ _ _ (mem_cons_of_mem _ hmem)) hentry
        fun _ _ hmem => hentry' _ _ (mem_cons_of_mem _ hmem)]
    cases appendWildcardMatches context pattern sourceIndex entries parentRel with
    | error e => rfl
    | ok found => exact congrArg Except.ok found.empty_append

lemma appendWildcardChild_grown
    (hfind : context.root.find p = some node) (hfind' : context'.root.find p = some node')
    (hgrown : Grown tree place p node node') (hne : p ≠ []) (sourceIndex : ℕ) :
    appendWildcardChild context' pattern sourceIndex node' (relOf p) =
      appendWildcardChild context pattern sourceIndex node (relOf p) := by
  obtain ⟨hplain, hwell⟩ := context'.wellNamed.find hfind'
  induction node' using NameTree.induct generalizing node p
  all_goals cases hmatches : pattern.matches (relOf p)
  case leaf.true | directory.true =>
    rw [appendWildcardChild_of_matches hmatches, appendWildcardChild_of_matches hmatches]
    exact h.appendSourceRoot_grown hfind hfind' hgrown _
  case leaf.false kind =>
    rw [hgrown.leaf, appendWildcardChild_leaf hmatches, appendWildcardChild_leaf hmatches]
  case directory.false children' ih =>
    obtain ⟨children, rfl, hentries⟩ := hgrown.directory
    rw [appendWildcardChild_directory hmatches, appendWildcardChild_directory hmatches,
      ← h.adds.rules]
    by_cases hcould : pattern.couldMatchDescendant (relOf p) = false
    · rw [if_pos hcould, if_pos hcould]
    · rw [if_neg hcould, if_neg hcould]
      by_cases hpruned : pruned context'.rules (relOf p)
      · rw [if_pos hpruned, if_pos hpruned]
      · rw [if_neg hpruned, if_neg hpruned]
        refine h.appendWildcardMatches_grown hpattern hfind hfind' hentries
          (fun name hname => childRel_relOf hplain hne hname) sourceIndex ?_
        intro name node node' hmem hchild hchild' hgrown'
        obtain ⟨hname, hwell'⟩ := hwell.entry hmem
        exact ih _ hmem hchild hchild' hgrown' (by simp) (PlainPlace.concat hplain hname) hwell'

omit hpattern

lemma literal_agree (hclean : cleanCopySource raw = .ok source) (hmeta : hasCopyMeta source = false)
    (sourceIndex : ℕ) : Agree (appendSourceMatches context' raw sourceIndex)
      (appendSourceMatches context raw sourceIndex) := by
  have hplain := plain_of_cleanCopySource hclean
  have hliteral : ∀ c : BuildContext, sourceMatches c source sourceIndex =
      (statPath c source >>= fun node => appendSourceRoot c node source sourceIndex) := fun c => by
    rw [sourceMatches, if_neg (by rw [hmeta]; decide)]
  rw [appendSourceMatches, appendSourceMatches, hclean]
  change Agree (sourceMatches context' source sourceIndex >>= _)
    (sourceMatches context source sourceIndex >>= _)
  rw [hliteral, hliteral, cleanCopySource_ok hclean]
  cases hfind : context.root.find (sourceNames raw) with
  | some node =>
    obtain ⟨node', hfind', hgrown⟩ := h.adds.root.find_old context'.wellNamed hfind
    rw [statPath_of_find hfind, statPath_of_find hfind']
    change Agree (appendSourceRoot context' node' _ sourceIndex >>= _) _
    rw [h.appendSourceRoot_grown hfind hfind' hgrown sourceIndex]
    exact .refl _
  | none =>
    have hmissing : Fails (statPath context (relOf (sourceNames raw))) := fun node hstat => by
      rw [find_of_statPath hplain hstat] at hfind
      cases hfind
    refine Fails.agree ?_ ((hmissing.bind _).bind _)
    cases hfind' : context'.root.find (sourceNames raw) with
    | none =>
      have hmissing' : Fails (statPath context' (relOf (sourceNames raw))) := fun node hstat => by
        rw [find_of_statPath hplain hstat] at hfind'
        cases hfind'
      exact (hmissing'.bind _).bind _
    | some node' =>
      obtain ⟨below, hbelow⟩ := h.adds.root.find_only context'.wellNamed hfind hfind'
      rw [statPath_of_find hfind']
      rw [hbelow] at hfind' ⊢
      change Fails (appendSourceRoot context' node' _ sourceIndex >>= _)
      rw [h.appendSourceRoot_new ((h.adds.find_tree below).symm.trans hfind')]
      exact fails_error _

lemma sourceMatches_pattern (hmem : raw ∈ sources) (hclean : cleanCopySource raw = .ok source)
    (hmeta : hasCopyMeta source = true) (sourceIndex : ℕ) :
    sourceMatches context' source sourceIndex = sourceMatches context source sourceIndex := by
  rw [sourceMatches, sourceMatches, if_pos hmeta, if_pos hmeta]
  cases hcompile : Pattern.compile source .copy with
  | error e => rfl
  | ok pattern =>
    have hpattern : IsPattern sources pattern := ⟨raw, hmem, source, hclean, hmeta, hcompile⟩
    obtain ⟨entries, hroot, hentries⟩ := Grown.directory (p := []) (.inr ⟨place, rfl, h.adds.root⟩)
    cases hroot
    refine h.appendWildcardMatches_grown hpattern (find_nil _) (find_nil _) hentries
      (fun name _ => childRel_root name) sourceIndex ?_
    intro name node node' _ hfind hfind' hgrown
    exact h.appendWildcardChild_grown hpattern hfind hfind' hgrown (by simp) sourceIndex

lemma appendSourceMatches_agree (hmem : raw ∈ sources) (sourceIndex : ℕ) :
    Agree (appendSourceMatches context' raw sourceIndex)
      (appendSourceMatches context raw sourceIndex) := by
  cases hclean : cleanCopySource raw with
  | error e =>
    rw [appendSourceMatches, appendSourceMatches, hclean]
    exact .refl _
  | ok source =>
    cases hmeta : hasCopyMeta source with
    | false => exact h.literal_agree hclean hmeta sourceIndex
    | true =>
      rw [appendSourceMatches, appendSourceMatches, hclean]
      change Agree (sourceMatches context' source sourceIndex >>= _) _
      rw [h.sourceMatches_pattern hmem hclean hmeta sourceIndex]
      exact .refl _

lemma appendSources_agree {rest : List Text} (hrest : ∀ raw ∈ rest, raw ∈ sources)
    (sourceIndex : ℕ) :
    Agree (appendSources context' rest sourceIndex) (appendSources context rest sourceIndex) := by
  induction rest generalizing sourceIndex with
  | nil => exact .refl _
  | cons raw rest ih =>
    refine (h.appendSourceMatches_agree (hrest raw mem_cons_self) sourceIndex).bind
      fun found => Agree.bind ?_ fun others => .refl _
    exact ih (fun other hother => hrest other (mem_cons_of_mem _ hother)) (sourceIndex + 1)

/-- A copy does not notice the new entry. -/
theorem resolve_agree :
    Agree (resolveCopySources context' sources) (resolveCopySources context sources) :=
  (h.appendSources_agree (fun _ hraw => hraw) 0).bind fun _ => .refl _

end Unnoticed

end Agreement

-- A context with a file, and one with an ignored entry beside it.

def besideEntries (kind : LeafKind) : List (Text × Node) :=
  [("a".toList, .leaf .file), ("pipe".toList, .leaf kind)]

def fileContext : BuildContext where
  entries := [("a".toList, .leaf .file)]
  wellNamed := .directory (by decide) (by decide) fun entry hentry =>
    mem_singleton.mp hentry ▸ .leaf _
  rules := [literalRule "pipe" false]
  absoluteRoot := "/context".toList
  realpath := fun _ => none

def besideContext (kind : LeafKind) : BuildContext where
  entries := besideEntries kind
  wellNamed := by
    have hentries : ∀ entry ∈ besideEntries kind,
        Plain entry.1 ∧ entry.2.WellNamed Plain (· < ·) := by
      intro entry hentry
      simp only [besideEntries, mem_cons, not_mem_nil, or_false] at hentry
      rcases hentry with rfl | rfl
      · exact ⟨by decide, .leaf _⟩
      · exact ⟨(by decide : Plain "pipe".toList), .leaf _⟩
    exact .directory (fun entry hentry => (hentries entry hentry).1)
      (show ["a".toList, "pipe".toList].Pairwise (· < ·) by decide)
      fun entry hentry => (hentries entry hentry).2
  rules := [literalRule "pipe" false]
  absoluteRoot := "/context".toList
  realpath := fun _ => none

lemma fileContext_adds (kind : LeafKind) :
    fileContext.Adds (besideContext kind) ["pipe".toList] (.leaf kind) where
  root := NameTree.Adds.here [("a".toList, (.leaf .file : Node))] [] "pipe".toList (.leaf kind)
  rules := rfl
  absoluteRoot := rfl
  realpath := nofun
  found := nofun

lemma pipe_allIgnored (kind : LeafKind) :
    AllIgnored (besideContext kind).rules ["pipe".toList] (.leaf kind) := by
  intro below node hfind
  cases below with
  | nil =>
    change ignored [literalRule "pipe" false] "pipe".toList = true
    decide +kernel
  | cons name below => cases hfind

def rootAndFile : CopyResolution :=
  ⟨[⟨".".toList, [], .directory⟩, ⟨"a".toList, [], .file⟩], [⟨".".toList, .directory, 0⟩]⟩

end SporeVM.Context
