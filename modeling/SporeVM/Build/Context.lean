import Mathlib.Data.Char
import Mathlib.Data.List.Lex
import Mathlib.Data.List.Sort
import SporeVM.Build.Patterns
import SporeVM.Lib.NameTree

/-!
# The sources of a copy in a build context

A build context is a tree of files with the rules of its ignore file. `resolveCopySources` finds
what the sources of a copy stand for: every file below them that is not ignored, with the
directories that lead there.

A directory is listed in the order of the names, which is the order the source sorts them in. The
tree does not change while it is read. Where a path leads outside of it is known to the host only,
which is a parameter.
-/

namespace SporeVM.Context

open Lib (NameTree)
open Lib.PathText (Text Plain sep dot dotDot components joinTwo basename written isAbsolute)
open Lib.Check (rejectIf)
open PathPattern (Pattern hasCopyMeta)

-- ══ What a copy resolves to

inductive EntryKind
  | file | directory | symLink | other
  deriving DecidableEq

structure CopyEntry where
  rel : Text
  sourceRel : Text := []
  kind : EntryKind
  deriving DecidableEq

structure CopyRoot where
  rel : Text
  kind : EntryKind
  sourceIndex : ℕ
  deriving DecidableEq

structure CopyResolution where
  entries : List CopyEntry
  roots : List CopyRoot
  deriving DecidableEq

-- ══ Contexts

inductive LeafKind
  | file
  | symLink
  | other
  deriving DecidableEq

abbrev Node := NameTree Text LeafKind

def LeafKind.kind : LeafKind → EntryKind
  | .file => .file
  | .symLink => .symLink
  | .other => .other

def kindOf : Node → EntryKind
  | .leaf kind => kind.kind
  | .directory _ => .directory

structure IgnoreRule where
  pattern : Pattern
  negated : Bool := false
  deriving DecidableEq

structure BuildContext where
  entries : List (Text × Node)
  wellNamed : (NameTree.directory entries).WellNamed Plain (· < ·)
  rules : List IgnoreRule
  absoluteRoot : Text
  /-- Where the host leads an absolute path, if it leads anywhere. -/
  realpath : Text → Option Text

def BuildContext.root (context : BuildContext) : Node := .directory context.entries

inductive ResolveError
  | badCopySource
  | copySourceEscapesContext
  | copySourceNotFound
  | unsupportedCopyGlob
  | unsupportedCopySourceType
  | fileNotFound
  | notDir
  deriving DecidableEq

-- ══ Ignored paths

def applyRule (rel : Text) (result : Bool) (rule : IgnoreRule) : Bool :=
  if rule.negated ≠ result then result
  else if rule.pattern.matchesOrParent rel = true then !rule.negated
  else result

def ignored (rules : List IgnoreRule) (rel : Text) : Bool := rules.foldl (applyRule rel) false

def hasNegations (rules : List IgnoreRule) : Bool := rules.any IgnoreRule.negated

def couldIncludeDescendant (rules : List IgnoreRule) (rel : Text) : Bool :=
  if hasNegations rules = false then false
  else rules.any fun rule => rule.negated &&
    (rule.pattern.matchesOrParent rel || rule.pattern.couldMatchDescendant rel)

def pruned (rules : List IgnoreRule) (rel : Text) : Prop :=
  ignored rules rel = true ∧ couldIncludeDescendant rules rel = false

instance (rules : List IgnoreRule) (rel : Text) : Decidable (pruned rules rel) :=
  inferInstanceAs (Decidable (_ ∧ _))

-- ══ Files below a path

def joinRel (rel child : Text) : Text := if rel = dot then child else joinTwo rel child

def copyEntry (sourceRel outputRel : Text) (kind : EntryKind) : CopyEntry :=
  { rel := outputRel, sourceRel := if sourceRel = outputRel then [] else sourceRel, kind }

section Append

variable (rules : List IgnoreRule)

mutual

/-- The entries for a path that is not followed, and whether there are any. An ignored directory
comes behind the entries below it, and only if there are some. -/
def appendPathAt : Node → Text → Text → Except ResolveError (List CopyEntry × Bool)
  | .leaf .other, _, _ => .error .unsupportedCopySourceType
  | .leaf kind, sourceRel, outputRel =>
    if ignored rules sourceRel = true then .ok ([], false)
    else .ok ([copyEntry sourceRel outputRel kind.kind], true)
  | .directory children, sourceRel, outputRel =>
    if pruned rules sourceRel then .ok ([], false)
    else do
      let (entries, childIncluded) ← appendChildren children sourceRel outputRel
      let own := copyEntry sourceRel outputRel .directory
      if ignored rules sourceRel = true then
        pure (if childIncluded then entries ++ [own] else entries, childIncluded)
      else pure (own :: entries, true)

def appendChildren : List (Text × Node) → Text → Text → Except ResolveError (List CopyEntry × Bool)
  | [], _, _ => .ok ([], false)
  | (child, node) :: children, sourceRel, outputRel => do
    let (entries, included) ← appendPathAt node (joinRel sourceRel child) (joinRel outputRel child)
    let (others, childIncluded) ← appendChildren children sourceRel outputRel
    pure (entries ++ others, included || childIncluded)

end

end Append

-- ══ Sources

def openContextDir : List (Text × Node) → List Text → Except ResolveError (List (Text × Node))
  | entries, [] => .ok entries
  | entries, component :: rest =>
    if component = [] ∨ component = dot then openContextDir entries rest
    else
      match NameTree.entry entries component with
      | none => .error .fileNotFound
      | some (.leaf .symLink) => .error .copySourceEscapesContext
      | some (.leaf _) => .error .notDir
      | some (.directory children) => openContextDir children rest

def statFile (parent : List (Text × Node)) (name : Text) : Except ResolveError Node :=
  if name = dot then .ok (.directory parent)
  else
    match NameTree.entry parent name with
    | some node => .ok node
    | none => .error .fileNotFound

def dirname (path : Text) : Option Text :=
  match (path.reverse.dropWhile (· = sep)).dropWhile (· ≠ sep) with
  | [] => none
  | _ :: rest => some (if rest = [] then [sep] else rest.reverse)

def statPath (context : BuildContext) (path : Text) : Except ResolveError Node := do
  let parent ← openContextDir context.entries (components ((dirname path).getD []))
  statFile parent (basename path)

structure Found where
  entries : List CopyEntry := []
  roots : List CopyRoot := []
  matched : Bool := false
  deriving DecidableEq

def Found.append (a b : Found) : Found :=
  ⟨a.entries ++ b.entries, a.roots ++ b.roots, a.matched || b.matched⟩

section Sources

variable (context : BuildContext)

def resolveContextSymlinkTarget (sourceRel : Text) : Except ResolveError Text :=
  match context.realpath (joinTwo context.absoluteRoot sourceRel) with
  | none => .error .copySourceEscapesContext
  | some resolved =>
    if resolved = context.absoluteRoot then .ok dot
    else if (context.absoluteRoot ++ [sep]).isPrefixOf resolved then
      .ok (resolved.drop (context.absoluteRoot.length + 1))
    else .error .copySourceEscapesContext

def appendRoot (node : Node) (sourceRel outputRel : Text) (sourceIndex : ℕ) :
    Except ResolveError Found := do
  let (entries, included) ← appendPathAt context.rules node sourceRel outputRel
  pure ⟨entries, if included then [⟨outputRel, kindOf node, sourceIndex⟩] else [], included⟩

def appendDereferencedSourceSymlink (sourceRel outputRel : Text) (sourceIndex : ℕ) :
    Except ResolveError Found := do
  let targetRel ← resolveContextSymlinkTarget context sourceRel
  let target ← statPath context targetRel
  appendRoot context target targetRel outputRel sourceIndex

def appendSourceRoot (node : Node) (rel : Text) (sourceIndex : ℕ) : Except ResolveError Found :=
  match node with
  | .leaf .symLink =>
    if ignored context.rules rel = true then .ok {}
    else appendDereferencedSourceSymlink context rel rel sourceIndex
  | node => appendRoot context node rel rel sourceIndex

def childRel (parentRel child : Text) : Text :=
  if parentRel = [] then child else joinTwo parentRel child

mutual

def appendWildcardMatches (pattern : Pattern) (sourceIndex : ℕ) :
    List (Text × Node) → Text → Except ResolveError Found
  | [], _ => .ok {}
  | (child, node) :: children, parentRel => do
    let found ← appendWildcardChild pattern sourceIndex node (childRel parentRel child)
    let others ← appendWildcardMatches pattern sourceIndex children parentRel
    pure (found.append others)

def appendWildcardChild (pattern : Pattern) (sourceIndex : ℕ) :
    Node → Text → Except ResolveError Found
  | .directory children, rel =>
    if pattern.matches rel = true then
      appendSourceRoot context (.directory children) rel sourceIndex
    else if pattern.couldMatchDescendant rel = false then .ok {}
    else if pruned context.rules rel then .ok {}
    else appendWildcardMatches pattern sourceIndex children rel
  | .leaf kind, rel =>
    if pattern.matches rel = true then appendSourceRoot context (.leaf kind) rel sourceIndex
    else if pattern.couldMatchDescendant rel = true ∧ kind = .symLink ∧
        pattern.requiresLiteralDirectory rel = true then .error .copySourceEscapesContext
    else .ok {}

end

def cleanCopySource (raw : Text) : Except ResolveError Text := do
  rejectIf (raw = []) .badCopySource
  rejectIf (isAbsolute raw) .copySourceEscapesContext
  let parts := (components raw).filter fun part => part ≠ [] ∧ part ≠ dot
  rejectIf (dotDot ∈ parts) .copySourceEscapesContext
  pure (if parts = [] then dot else written parts)

def sourceMatches (source : Text) (sourceIndex : ℕ) : Except ResolveError Found :=
  if hasCopyMeta source = true then
    match Pattern.compile source .copy with
    | .error _ => .error .unsupportedCopyGlob
    | .ok pattern => appendWildcardMatches context pattern sourceIndex context.entries []
  else do
    let node ← statPath context source
    appendSourceRoot context node source sourceIndex

def appendSourceMatches (raw : Text) (sourceIndex : ℕ) : Except ResolveError Found := do
  let source ← cleanCopySource raw
  let found ← sourceMatches context source sourceIndex
  rejectIf (found.matched = false) .copySourceNotFound
  pure found

def appendSources : List Text → ℕ → Except ResolveError Found
  | [], _ => .ok {}
  | source :: sources, sourceIndex => do
    let found ← appendSourceMatches context source sourceIndex
    let others ← appendSources sources (sourceIndex + 1)
    pure (found.append others)

def dedup {α : Type} (key : α → Text) : List α → Option Text → List α
  | [], _ => []
  | a :: as, previous =>
    if previous = some (key a) then dedup key as previous
    else a :: dedup key as (some (key a))

def entryLe (a b : CopyEntry) : Prop := a.rel ≤ b.rel

def rootLe (a b : CopyRoot) : Prop :=
  a.rel < b.rel ∨ a.rel = b.rel ∧ a.sourceIndex ≤ b.sourceIndex

instance : DecidableRel entryLe := fun a b => inferInstanceAs (Decidable (a.rel ≤ b.rel))

instance : DecidableRel rootLe := fun _ _ => inferInstanceAs (Decidable (_ ∨ _))

def resolveCopySources (sources : List Text) : Except ResolveError CopyResolution := do
  let found ← appendSources context sources 0
  rejectIf (found.entries = []) .copySourceNotFound
  pure
    { entries := dedup CopyEntry.rel (found.entries.insertionSort entryLe) none
      roots := dedup CopyRoot.rel (found.roots.insertionSort rootLe) none }

end Sources

end SporeVM.Context
