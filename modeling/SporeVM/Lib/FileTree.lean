import SporeVM.Lib.Links

/-!
# Trees of files

A tree says what stands at every place. Its invariants are fields: the root is a directory, and an
entry lies in a directory. A name is looked up as a kernel does it: an absolute path starts at the
root, `..` leads up, and a link is followed unless the caller says otherwise.
-/

namespace Lib

open PathText

inductive FileNode
  | file (bytes : List UInt8)
  | directory
  | symlink (target : Text)
  | other
  deriving DecidableEq

namespace FileNode

/-- What a walk sees of a node. -/
def object : FileNode → LinkObject
  | directory => .directory
  | symlink target => .symlink target
  | file _ => .other
  | other => .other

/-- More bytes at the end of a file. -/
def append (data : List UInt8) : FileNode → FileNode
  | file bytes => .file (bytes ++ data)
  | node => node

end FileNode

/-- What stands at every place. -/
structure FileTree where
  node : Place → Option FileNode
  root : node [] = some .directory
  parent : ∀ p n, node (p ++ [n]) ≠ none → node p = some .directory

namespace FileTree

variable (t : FileTree) (p q : Place)

-- ══ Changing

/-- A new entry in a directory that has none of that name. -/
def make (node : FileNode) (hfree : t.node p = none)
    (hdir : t.node p.dropLast = some .directory) : FileTree where
  node q := if q = p then some node else t.node q
  root := by
    have hne : [] ≠ p := by
      rintro rfl
      simp [t.root] at hfree
    rw [if_neg hne, t.root]
  parent := by
    intro r n h
    have hr : t.node r = some .directory := by
      by_cases hrn : r ++ [n] = p
      · rw [← hrn, List.dropLast_concat] at hdir
        exact hdir
      · rw [if_neg hrn] at h
        exact t.parent r n h
    have hne : r ≠ p := by
      rintro rfl
      simp [hr] at hfree
    rw [if_neg hne, hr]

/-- A new entry where one can be made. -/
def make? (node : FileNode) : Option FileTree :=
  if h : t.node p = none ∧ t.node p.dropLast = some .directory then
    some (t.make p node h.1 h.2)
  else none

def append (data : List UInt8) : FileTree where
  node q := if q = p then (t.node q).map (FileNode.append data) else t.node q
  root := by simp [t.root, FileNode.append]
  parent := by
    intro r n h
    have hr : t.node r = some .directory := by
      refine t.parent r n fun hnone => h ?_
      simp [hnone]
    simp [hr, FileNode.append]

/-- Everything at and below a place is gone, but for what leads to the places `left`. -/
def remove (left : List Place) (hp : p ≠ []) : FileTree where
  node q := if p <+: q ∧ ∀ r ∈ left, ¬ q <+: r then none else t.node q
  root := by simp [hp, t.root]
  parent := by
    intro r n h
    split at h
    · exact absurd rfl h
    · next hstays =>
      rw [if_neg, t.parent r n h]
      rintro ⟨hpre, hall⟩
      exact hstays ⟨hpre.trans (List.prefix_append r [n]),
        fun s hs hle => hall s hs ((List.prefix_append r [n]).trans hle)⟩

/-- The entries that can be made, one after another. -/
def grow (entries : List (Place × FileNode)) : FileTree :=
  entries.foldl (fun t e => (t.make? e.1 e.2).getD t) t

variable {t p q}

lemma make?_eq {node : FileNode} {t' : FileTree} (h : t.make? p node = some t') :
    t.node p = none ∧ ∀ q, t'.node q = if q = p then some node else t.node q := by
  unfold make? at h
  split at h
  · next hfree =>
    cases h
    exact ⟨hfree.1, fun _ => rfl⟩
  · cases h

lemma node_grow {entries : List (Place × FileNode)} (h : ∀ e ∈ entries, e.1 ≠ q) :
    (t.grow entries).node q = t.node q := by
  induction entries generalizing t with
  | nil => rfl
  | cons e entries ih =>
    refine (ih fun e' he' => h e' (List.mem_cons_of_mem _ he')).trans ?_
    dsimp only
    cases hmake : t.make? e.1 e.2 with
    | none => rfl
    | some t' =>
      rw [Option.getD_some, (make?_eq hmake).2, if_neg (h e List.mem_cons_self).symm]

-- ══ Looking up a name

/-- The tree as a walk sees it. -/
def links (t : FileTree) : LinkTree where
  object p := (t.node p).map FileNode.object
  root := by simp [t.root, FileNode.object]
  parent := by
    intro p n h
    rw [t.parent p n fun hnone => h (by simp [hnone])]
    rfl

def nul : Char := Char.ofNat 0

/-- The text that a call sees: it ends before a NUL. -/
def cString (text : Text) : Text := text.takeWhile (· ≠ nul)

def maxLinks : ℕ := 40

/-- How a call resolves names. -/
def callRules (follow create : Bool) : Rules :=
  { top := [], seen := id, follow, create, strict := true }

/-- The place that a call resolves a name to, from a directory. -/
def resolve (t : FileTree) (follow create : Bool) (dir : Place) (name : Text) :
    Except PathError Place :=
  if cString name = [] then .error .noEntry
  else (t.links.walk (callRules follow create) maxLinks
    (if isAbsolute (cString name) then [] else dir) (components (cString name))).reached

/-- A name that stands for the entry of this name, or for none. -/
def Literal (name : Text) : Prop := cString name = [] ∨ Plain (cString name)

variable {follow create : Bool} {dir : Place} {name : Text}

lemma resolve_plain (hname : Plain (cString name)) : t.resolve follow create dir name =
    (t.links.walk (callRules follow create) maxLinks dir [cString name]).reached := by
  have habs : ¬ isAbsolute (cString name) := head_of_no_sep hname.no_sep
  rw [resolve, if_neg hname.nonempty, if_neg habs, components_of_no_sep hname.no_sep]

/-- **Names without a detour.** A plain name whose link is not followed is resolved to the entry of
this name. -/
theorem resolve_literal (hname : Literal name) (h : t.resolve false create dir name = .ok q) :
    q = dir ++ [cString name] := by
  rcases hname with hnil | hname
  · rw [resolve, if_pos hnil] at h
    cases h
  · have hordinary := LinkTree.ordinary_of_plain hname
    rw [resolve_plain hname, LinkTree.walk] at h
    split at h
    · cases h
    · rw [if_neg hordinary.1, if_neg hordinary.2] at h
      split at h
      · split at h
        · cases h
        · split at h
          · exact (Except.ok.inj h).symm
          · cases h
      · rw [if_pos ⟨rfl, rfl⟩] at h
        exact (Except.ok.inj h).symm
      · simpa [eq_comm] using h

lemma resolve_found (hname : Plain (cString name)) (h : t.node (dir ++ [cString name]) ≠ none) :
    t.resolve false create dir name = .ok (dir ++ [cString name]) := by
  obtain ⟨node, hnode⟩ := Option.ne_none_iff_exists'.mp h
  rw [resolve_plain hname, LinkTree.walk_last (o := node.object) maxLinks rfl
    (LinkTree.ordinary_of_plain hname) (by simp [links, hnode])]

/-- A look at the name finds nothing. -/
def Missing (t : FileTree) (dir : Place) (name : Text) : Prop :=
  ∀ q, t.resolve false false dir name ≠ .ok q

/-- The name is empty, or it is plain and no entry has it. -/
def Free (t : FileTree) (dir : Place) (name : Text) : Prop :=
  cString name = [] ∨ Plain (cString name) ∧ t.node (dir ++ [cString name]) = none

lemma Free.literal (h : t.Free dir name) : Literal name := h.imp_right And.left

lemma Free.missing (h : t.Free dir name) : t.Missing dir name := by
  intro q hq
  rcases h with hnil | ⟨hname, hfree⟩
  · rw [resolve, if_pos hnil] at hq
    cases hq
  · rw [resolve_plain hname, LinkTree.walk] at hq
    have hordinary := LinkTree.ordinary_of_plain hname
    have hobject : t.links.object (dir ++ [cString name]) = none := by simp [links, hfree]
    rw [if_neg hordinary.1, if_neg hordinary.2, hobject] at hq
    simp only [LinkTree.mayCreate, callRules, Bool.false_eq_true, false_and, if_false] at hq
    split at hq
    · cases hq
    · split at hq <;> cases hq

/-- **What a look does not find is free.** Names such as `..` lead somewhere in every directory. -/
theorem Missing.free (hdir : t.node dir = some .directory) (hsep : sep ∉ cString name)
    (h : t.Missing dir name) : t.Free dir name := by
  by_cases hnil : cString name = []
  · exact .inl hnil
  have habs : ¬ isAbsolute (cString name) := head_of_no_sep hsep
  have hpass : LinkTree.Passable t.links (callRules false false) dir := by
    rintro ⟨-, hnot⟩
    exact hnot (by simp [links, hdir, FileNode.object])
  have hwalk : ∀ q, (t.links.walk (callRules false false) maxLinks dir [cString name]).reached ≠
      .ok q := by
    intro q hq
    refine h q ?_
    rw [resolve, if_neg hnil, if_neg habs, components_of_no_sep hsep, hq]
  have hplain : Plain (cString name) := by
    refine ⟨hnil, hsep, fun hdot => ?_, fun hup => ?_⟩
    · exact hwalk dir (by rw [LinkTree.walk_stay hpass (.inr hdot), LinkTree.walk_nil])
    · exact hwalk _ (by rw [hup, LinkTree.walk_up hpass, LinkTree.walk_nil]; rfl)
  refine .inr ⟨hplain, ?_⟩
  by_contra hthere
  exact h _ (resolve_found hplain hthere)

/-- The directory that a path leads to. Links on the way are followed. -/
def directoryAt (t : FileTree) (cwd : Place) (path : Text) : Except PathError Place := do
  let place ← t.resolve true false cwd path
  if t.node place = some .directory then pure place else throw .notDirectory

end FileTree

end Lib
