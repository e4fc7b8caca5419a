import SporeVM.Lib.Links
import SporeVM.Lib.Yields

/-!
# Confined paths

The build agent resolves paths of a root file system that it has not made its own root. Where the
kernel cannot do it, `build_copy.c` does it by hand: it takes the names off a pending path, looks at
each one from the directory `root_fd`, and puts the target of a link in front of what is left. Texts
live in buffers of fixed size, and a text that does not fit is an error.

The kernel calls are those of a process whose root is elsewhere: for them an absolute path or target
starts at the root of the file system. Every place that a call looks at is kept in the state.
-/

namespace SporeVM.BuildCopy

open Lib Lib.PathText Lib.EState
open List hiding modify

-- ══ The kernel

inductive Call
  | stat | readlink | open
  deriving DecidableEq

structure Kernel where
  tree : LinkTree
  rootFd : Place
  rootFd_directory : tree.object rootFd = some .directory
  /-- Calls that the kernel refuses for reasons of its own, such as missing permission. -/
  refuses : Call → Place → Bool

structure OpenFlags where
  write : Bool
  create : Bool
  directory : Bool
  deriving DecidableEq

def maxCopyPathLen : ℕ := 512

def maxCopyFullPathLen : ℕ := 1024

def maxSymlinkDepth : ℕ := 40

def pendingCap : ℕ := maxCopyFullPathLen + maxCopyPathLen + 2

def nofollowRules (create : Bool) : Rules :=
  { top := [], seen := id, follow := false, create, strict := true }

abbrev Sys := EStateM PathError (List Place)

variable (k : Kernel)

def lookUp (dir : Place) (path : Text) (create : Bool) : Sys Place := do
  let walked := k.tree.walk (nofollowRules create) maxSymlinkDepth
    (if isAbsolute path then [] else dir) (components path)
  modify (walked.touched ++ ·)
  check walked.reached

def fstatat (path : Text) : Sys LinkObject := do
  let place ← lookUp k k.rootFd path false
  rejectIf (k.refuses .stat place = true) .refused
  match k.tree.object place with
  | some o => pure o
  | none => throw .noEntry

def readlinkat (path : Text) (bufsize : ℕ) : Sys Text := do
  let place ← lookUp k k.rootFd path false
  rejectIf (k.refuses .readlink place = true) .refused
  match k.tree.object place with
  | some (.symlink target) => pure (target.take bufsize)
  | _ => throw .invalid

def openat (dir : Place) (name : Text) (flags : OpenFlags) : Sys Place := do
  let place ← lookUp k dir name flags.create
  rejectIf (k.refuses .open place = true) .refused
  match k.tree.object place with
  | none => pure place
  | some .directory => if flags.write ∨ flags.create then throw .isDirectory else pure place
  | some (.symlink _) => throw .tooManyLinks
  | some .other => if flags.directory then throw .notDirectory else pure place

-- ══ Paths in buffers

def appendPathComponent (path : Text) (cap : ℕ) (component : Text) : Except PathError Text :=
  if component = [] then .ok path
  else if path.length + (if path = [] then 0 else 1) + component.length ≥ cap then
    .error .nameTooLong
  else .ok (if path = [] then component else path ++ sep :: component)

def popPathComponent (path : Text) : Text := (path.reverse.dropWhile (· ≠ sep)).tail.reverse

def popPendingComponent (pending : Text) : Except PathError (Option (Text × Text)) :=
  let start := pending.dropWhile (· = sep)
  if start = [] then .ok none
  else if (start.takeWhile (· ≠ sep)).length ≥ maxCopyPathLen + 1 then .error .nameTooLong
  else .ok (some (start.takeWhile (· ≠ sep), (start.dropWhile (· ≠ sep)).tail))

def prependSymlinkTarget (pending target : Text) : Except PathError Text :=
  if target = [] then .error .invalid
  else
    let targetRel := target.dropWhile (· = sep)
    let next := if pending = [] then targetRel else targetRel ++ sep :: pending
    if next.length ≥ pendingCap then .error .nameTooLong else .ok next

lemma popPendingComponent_shorter {pending component rest : Text}
    (h : popPendingComponent pending = .ok (some (component, rest))) :
    rest.length < pending.length := by
  unfold popPendingComponent at h
  dsimp only at h
  split at h
  · cases h
  · next hstart =>
    split at h
    · cases h
    · obtain ⟨-, rfl⟩ := h
      have hpos := length_pos_iff.mpr hstart
      have hle := (dropWhile_suffix (· = sep) (l := pending)).length_le
      generalize pending.dropWhile (· = sep) = start at *
      have hle' := (dropWhile_suffix (· ≠ sep) (l := start)).length_le
      rw [length_tail]
      omega

-- ══ Opening a path without links

def directoryFlags : OpenFlags := { write := false, create := false, directory := true }

def openComponents (flags : OpenFlags) (dir : Place) (pending : Text) : Sys Place :=
  match _hpop : popPendingComponent pending with
  | .error e => throw e
  | .ok none => throw .invalid
  | .ok (some (component, rest)) =>
    if rest = [] then openat k dir component flags
    else do
      let next ← openat k dir component directoryFlags
      openComponents flags next rest
termination_by pending.length
decreasing_by exact popPendingComponent_shorter _hpop

def openResolvedPathNofollow (logical : Text) (flags : OpenFlags) : Sys Place :=
  if logical = [] then pure k.rootFd
  else do
    rejectIf (logical.length ≥ maxCopyFullPathLen) .nameTooLong
    openComponents k flags k.rootFd logical

-- ══ Following links by hand

def followPending (create : Bool) (symlinkDepth : ℕ) (pending logical : Text) : Sys Text :=
  match _hpop : popPendingComponent pending with
  | .error e => throw e
  | .ok none => pure logical
  | .ok (some (component, rest)) =>
    if component = dot then followPending create symlinkDepth rest logical
    else if component = dotDot then
      followPending create symlinkDepth rest (popPathComponent logical)
    else do
      let candidate ← check (appendPathComponent logical pendingCap component)
      let st ← capture (fstatat k candidate)
      match st with
      | .error e =>
        if e = .noEntry ∧ rest = [] ∧ create = true then
          check (appendPathComponent logical maxCopyFullPathLen component)
        else throw e
      | .ok (.symlink _) =>
        if hdepth : symlinkDepth + 1 > maxSymlinkDepth then throw .tooManyLinks
        else do
          -- a target that fills the buffer is cut
          let target ← readlinkat k candidate maxCopyPathLen
          let pending' ← check (prependSymlinkTarget rest target)
          followPending create (symlinkDepth + 1) pending'
            (if isAbsolute target then [] else logical)
      | .ok _ => do
        let logical' ← check (appendPathComponent logical maxCopyFullPathLen component)
        followPending create symlinkDepth rest logical'
termination_by (maxSymlinkDepth - symlinkDepth, pending.length)
decreasing_by
  · exact Prod.Lex.right _ (popPendingComponent_shorter _hpop)
  · exact Prod.Lex.right _ (popPendingComponent_shorter _hpop)
  · exact Prod.Lex.left _ _ (by omega)
  · exact Prod.Lex.right _ (popPendingComponent_shorter _hpop)

def relative (rawPath : Text) : Text := if isAbsolute rawPath then rawPath.tail else rawPath

def confinedOpenPathFallback (rawPath : Text) (flags : OpenFlags) : Sys Place :=
  if relative rawPath = [] then pure k.rootFd
  else do
    rejectIf ((relative rawPath).length > maxCopyPathLen) .nameTooLong
    let logical ← followPending k flags.create 0 (relative rawPath) []
    openResolvedPathNofollow k logical flags

def resolveConfinedSourcePath (rawPath : Text) (outCap : ℕ) : Sys Text := do
  let rel := if relative rawPath = [] then dot else relative rawPath
  rejectIf (rel.length ≥ pendingCap) .nameTooLong
  let logical ← followPending k false 0 rel []
  let resolved := if logical = [] then dot else logical
  rejectIf (resolved.length ≥ outCap ∨ resolved.length > maxCopyPathLen) .nameTooLong
  pure resolved

-- ══ The names of a text

def textNames (text : Text) : List Text := LinkTree.namesOf (components text)

lemma textNames_sep_cons (text : Text) : textNames (sep :: text) = textNames text := by
  rw [textNames, show components (sep :: text) = [] :: components text by simp [components],
    LinkTree.namesOf_cons_nil, textNames]

lemma textNames_dropWhile (text : Text) :
    textNames (text.dropWhile (· = sep)) = textNames text := by
  induction text with
  | nil => rfl
  | cons c text ih =>
    by_cases hc : c = sep
    · subst hc
      rw [dropWhile_cons_of_pos (by simp), ih, textNames_sep_cons]
    · rw [dropWhile_cons_of_neg (by simpa using hc)]

lemma textNames_append_sep (a b : Text) :
    textNames (a ++ sep :: b) = textNames a ++ textNames b := by
  simp only [textNames, components_append_sep, LinkTree.namesOf_append]

lemma textNames_of_no_sep {name : Text} (hne : name ≠ []) (h : sep ∉ name) :
    textNames name = [name] := by
  rw [textNames, components_of_no_sep h, LinkTree.namesOf_cons hne]
  rfl

@[simp] lemma textNames_nil : textNames [] = [] := rfl

lemma takeWhile_ne_nil_of_dropWhile {text : Text} (h : text.dropWhile (· = sep) ≠ []) :
    (text.dropWhile (· = sep)).takeWhile (· ≠ sep) ≠ [] := by
  have hhead := head_dropWhile_not (· = sep) h
  cases hstart : text.dropWhile (· = sep) with
  | nil => exact absurd hstart h
  | cons c rest =>
    simp only [hstart, head_cons] at hhead
    rw [takeWhile_cons_of_pos (by simpa using hhead)]
    simp

lemma popPendingComponent_some {pending component rest : Text}
    (h : popPendingComponent pending = .ok (some (component, rest))) :
    textNames pending = component :: textNames rest ∧ component ≠ [] ∧ sep ∉ component := by
  unfold popPendingComponent at h
  dsimp only at h
  split at h
  · cases h
  · next hstart =>
    split at h
    · cases h
    · obtain ⟨rfl, rfl⟩ := h
      have hne := takeWhile_ne_nil_of_dropWhile hstart
      rw [← textNames_dropWhile pending]
      generalize pending.dropWhile (· = sep) = start at *
      have hsep : sep ∉ start.takeWhile (· ≠ sep) := by
        intro hmem
        simpa using mem_takeWhile_imp hmem
      refine ⟨?_, hne, hsep⟩
      have hsplit := takeWhile_append_dropWhile (p := (· ≠ sep)) (l := start)
      rcases dropWhile_ne_sep start with hnil | ⟨rest, hcons⟩
      · rw [hnil, append_nil] at hsplit
        rw [hnil, tail_nil, textNames_nil, ← textNames_of_no_sep hne hsep, hsplit]
      · rw [hcons] at hsplit ⊢
        rw [tail_cons, ← singleton_append, ← textNames_of_no_sep hne hsep,
          ← textNames_append_sep, hsplit]

lemma popPendingComponent_none {pending : Text} (h : popPendingComponent pending = .ok none) :
    textNames pending = [] := by
  unfold popPendingComponent at h
  dsimp only at h
  split at h
  · next hstart => rw [← textNames_dropWhile, hstart, textNames_nil]
  · split at h <;> cases h

lemma prependSymlinkTarget_ok {pending target next : Text}
    (h : prependSymlinkTarget pending target = .ok next) :
    textNames next = textNames target ++ textNames pending := by
  iterate 2 obtain ⟨-, h⟩ := Check.ite_error_ok.mp h
  cases h
  split
  · next hpending => rw [hpending, textNames_dropWhile, textNames_nil, append_nil]
  · rw [textNames_append_sep, textNames_dropWhile]

lemma appendPathComponent_ok {names : List Text} {cap : ℕ} {component path : Text}
    (hnames : ∀ n ∈ names, Plain n) (hne : component ≠ [])
    (h : appendPathComponent (written names) cap component = .ok path) :
    path = written (names ++ [component]) := by
  unfold appendPathComponent at h
  rw [if_neg hne] at h
  obtain ⟨-, h⟩ := Check.ite_error_ok.mp h
  cases h
  split
  · next hnil =>
    rw [(written_eq_nil fun n hn => (hnames n hn).nonempty).mp hnil]
    rfl
  · next hnil =>
    rw [written_append_singleton]
    rintro rfl
    exact hnil rfl

lemma popPathComponent_written {names : List Text} (hnames : ∀ n ∈ names, Plain n) :
    popPathComponent (written names) = written names.dropLast := by
  rcases eq_nil_or_concat names with rfl | ⟨init, last, rfl⟩
  · rfl
  · rw [concat_eq_append] at hnames ⊢
    have hlast : sep ∉ last := (hnames last (by simp)).no_sep
    have hdrop : ∀ rest : Text, (last.reverse ++ rest).dropWhile (· ≠ sep) =
        rest.dropWhile (· ≠ sep) := by
      intro rest
      refine dropWhile_append_of_pos fun c hc => ?_
      have hc : c ≠ sep := by
        rintro rfl
        exact hlast (mem_reverse.mp hc)
      simpa using hc
    rw [dropLast_concat, popPathComponent]
    by_cases hinit : init = []
    · have hnil := hdrop []
      rw [append_nil] at hnil
      rw [hinit, nil_append, show written [last] = last from rfl, hnil]
      rfl
    · rw [written_append_singleton hinit, reverse_append, reverse_cons, append_assoc,
        hdrop, singleton_append, dropWhile_cons_of_neg (by simp), tail_cons,
        reverse_reverse]

end SporeVM.BuildCopy
