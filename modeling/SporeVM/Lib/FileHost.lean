import SporeVM.Lib.FileTree
import SporeVM.Lib.Triple

/-!
# A host that runs file calls

A call names a directory that is open and a name in it, which the host resolves as it stands: it is
for the caller to give names and flags that lead nowhere else. Every call takes one tick of a clock.
At every tick the host may refuse the call, and after it other processes may make entries of any
sort anywhere. What the program itself has resolved and changed is kept in a log, last first.
-/

namespace Lib

open EState PathText
open FileTree (cString)

inductive FileAccess
  | open | make | write | unlink
  deriving DecidableEq

/-- What a program does not control. -/
structure FileWorld where
  /-- Whether the call at this tick is refused. -/
  refuses : ℕ → FileAccess → Bool
  /-- The number of bytes that the write at this tick takes, besides the first. -/
  taken : ℕ → ℕ
  /-- The entries that other processes try to make after the call at this tick. -/
  others : ℕ → List (Place × FileNode)
  /-- The places that the deletion of a tree at this tick leaves behind. -/
  left : ℕ → List Place

inductive FileEvent
  | resolved (dir : Place) (name : Text) (place : Place)
  | changed (before after : FileTree)

structure FileHost where
  tree : FileTree
  clock : ℕ
  log : List FileEvent

abbrev FileM (ε : Type) := EStateM ε FileHost

structure OpenFlags where
  create : Bool
  excl : Bool
  nofollow : Bool
  directory : Bool

/-- What an open finds or makes at the place. -/
def FileTree.opened (t : FileTree) (flags : OpenFlags) (place : Place) : Option FileTree :=
  match t.node place with
  | none => if flags.create then t.make? place (.file []) else none
  | some (.symlink _) => none
  | some .directory => if flags.create then none else some t
  | some _ => if flags.directory ∨ flags.create ∧ flags.excl then none else some t

namespace FileHost

variable {ε : Type} (w : FileWorld)

def start (t : FileTree) : FileHost := ⟨t, 0, []⟩

def after (h : FileHost) (events : List FileEvent) (t : FileTree) : FileHost :=
  ⟨t.grow (w.others h.clock), h.clock + 1, events ++ h.log⟩

-- ══ Calls

/-- A call that resolves a name and then changes the tree there. -/
def call (e : ε) (access : FileAccess) (follow create : Bool) (dir : Place) (name : Text)
    (change : ℕ → FileTree → Place → Option FileTree) : FileM ε Place := fun h =>
  match h.tree.resolve follow create dir name with
  | .error _ => .error e (h.after w [] h.tree)
  | .ok place =>
    match if w.refuses h.clock access then none else change h.clock h.tree place with
    | none => .error e (h.after w [.resolved dir (cString name) place] h.tree)
    | some t =>
      .ok place (h.after w [.changed h.tree t, .resolved dir (cString name) place] t)

/-- A file that is to be made and must be new is not looked for behind a link. -/
def openat (e : ε) (dir : Place) (name : Text) (flags : OpenFlags) : FileM ε Place :=
  call w e .open (!(flags.nofollow || flags.create && flags.excl)) flags.create dir name
    fun _ t place => t.opened flags place

def mkdirat (e : ε) (dir : Place) (name : Text) : FileM ε Place :=
  call w e .make false true dir name fun _ t place => t.make? place .directory

def unlinkat (e : ε) (dir : Place) (name : Text) : FileM ε Place :=
  call w e .unlink false false dir name fun _ t place =>
    if h : place ≠ [] ∧ t.node place ≠ some .directory then some (t.remove place [] h.1) else none

/-- The calls that delete a tree, taken together. Links are removed and not followed. -/
def deleteTree (e : ε) (dir : Place) (name : Text) : FileM ε Place :=
  call w e .unlink false false dir name fun k t place =>
    if h : place ≠ [] then some (t.remove place (w.left k) h) else none

/-- A directory that a user names. -/
def openDirectory (e : PathError → ε) (cwd : Place) (path : Text) : FileM ε Place := fun h =>
  match h.tree.directoryAt cwd path with
  | .error err => .error (e err) (h.after w [] h.tree)
  | .ok place =>
    if w.refuses h.clock .open then .error (e .refused) (h.after w [] h.tree)
    else .ok place (h.after w [] h.tree)

/-- Writes to an open file as the host takes the bytes. The fuel is the number of bytes left, of
which every write takes at least one. -/
def writeAll (e : ε) (place : Place) : ℕ → List UInt8 → FileM ε Unit
  | 0, _ => pure ()
  | _ + 1, [] => pure ()
  | fuel + 1, byte :: data => fun h =>
    if w.refuses h.clock .write then .error e (h.after w [] h.tree)
    else
      let t := h.tree.append place (byte :: data.take (w.taken h.clock))
      writeAll e place fuel (data.drop (w.taken h.clock)) (h.after w [.changed h.tree t] t)

-- ══ What a call can do

variable {w} {e : ε} {access : FileAccess} {follow create : Bool} {dir : Place} {name : Text}
  {change : ℕ → FileTree → Place → Option FileTree}

variable (w e access follow create dir name change) in
lemma call_cases (h : FileHost) :
    (∃ events, call w e access follow create dir name change h =
        .error e (h.after w events h.tree) ∧
      ∀ event ∈ events, ∃ place, h.tree.resolve follow create dir name = .ok place ∧
        event = .resolved dir (cString name) place) ∨
    ∃ place t, h.tree.resolve follow create dir name = .ok place ∧
      change h.clock h.tree place = some t ∧ call w e access follow create dir name change h =
        .ok place (h.after w
          [.changed h.tree t, .resolved dir (cString name) place] t) := by
  unfold call
  cases hresolve : h.tree.resolve follow create dir name with
  | error err => exact .inl ⟨[], rfl, by simp⟩
  | ok place =>
    dsimp only
    split
    · exact .inl ⟨_, rfl, fun event hevent => ⟨place, rfl, List.mem_singleton.mp hevent⟩⟩
    · next t ht =>
      split at ht
      · cases ht
      · exact .inr ⟨place, t, rfl, ht, rfl⟩

lemma call_ok {place : Place} {h : FileHost} {t : FileTree}
    (hrefuses : w.refuses h.clock access = false)
    (hresolve : h.tree.resolve follow create dir name = .ok place)
    (hchange : change h.clock h.tree place = some t) :
    call w e access follow create dir name change h = .ok place (h.after w
      [.changed h.tree t, .resolved dir (cString name) place] t) := by
  simp [call, hrefuses, hresolve, hchange]

/-- **Rule of a call.** What holds after every failure, which changes nothing, and after every
change that the call can make. -/
theorem call_triple {P E : FileHost → Prop} {Q : Place → FileHost → Prop}
    (hfail : ∀ h events, P h → (∀ event ∈ events, ∃ place,
      h.tree.resolve follow create dir name = .ok place ∧
        event = .resolved dir (cString name) place) → E (h.after w events h.tree))
    (hok : ∀ h place t, P h → h.tree.resolve follow create dir name = .ok place →
      change h.clock h.tree place = some t → Q place (h.after w
        [.changed h.tree t, .resolved dir (cString name) place] t)) :
    Triple P (call w e access follow create dir name change) Q E := by
  intro h hh
  rcases call_cases w e access follow create dir name change h with
    ⟨events, hrun, hevents⟩ | ⟨place, t, hresolve, hchange, hrun⟩
  · rw [hrun]
    exact hfail h events hh hevents
  · rw [hrun]
    exact hok h place t hh hresolve hchange

lemma openDirectory_triple {e : PathError → ε} {cwd : Place} {path : Text} (h : FileHost) :
    Triple (· = h) (openDirectory w e cwd path)
      (fun dir h' => h.tree.directoryAt cwd path = .ok dir ∧ h' = h.after w [] h.tree)
      (· = h.after w [] h.tree) := by
  intro h' hh
  subst hh
  unfold openDirectory
  cases h'.tree.directoryAt cwd path with
  | error err => rfl
  | ok dir => by_cases hrefused : w.refuses h'.clock .open = true <;> simp [hrefused]

lemma writeAll_keeps {P : FileHost → Prop} {place : Place}
    (hfail : ∀ h, P h → P (h.after w [] h.tree))
    (hok : ∀ h data, P h → P (h.after w [.changed h.tree (h.tree.append place data)]
      (h.tree.append place data))) :
    ∀ fuel data, Stays P (writeAll w e place fuel data)
  | 0, _ => Stays.pure
  | _ + 1, [] => Stays.pure
  | fuel + 1, byte :: data => by
    intro h hh
    unfold writeAll
    by_cases hrefused : w.refuses h.clock .write = true
    · rw [if_pos hrefused]
      exact hfail h hh
    · rw [if_neg hrefused]
      exact writeAll_keeps hfail hok fuel _ _ (hok h _ hh)

end FileHost

end Lib
