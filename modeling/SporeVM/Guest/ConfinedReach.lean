import SporeVM.Guest.ConfinedPath

/-!
# Where confined paths lead

The loop of the resolvers is compared with the walk of a process whose root is `root_fd`. It keeps
the names from `root_fd` down to where it stands, and what stands there is no link. So every call it
makes stays below `root_fd`, whatever links lie around, and each round is one step of the walk.

The loop differs from the walk in one thing that matters: it reads 512 bytes of a target and does
not notice when there are more.
-/

namespace SporeVM.BuildCopy

open Lib Lib.PathText Lib.EState
open LinkTree (walk_last walk_missing walk_down ordinary_of_plain walk_namesOf walk_stay
  passable_of_lax walk_up walk_onto walk_link walk_nil)
open List

variable {k : Kernel} {o : LinkObject} {logical component pending : Text}
  {touched touched' : List Place}

-- ══ What the calls tell

def Confined (k : Kernel) (touched : List Place) : Prop := ∀ p ∈ touched, k.rootFd <+: p

structure Down (k : Kernel) (names : List Text) : Prop where
  plain : ∀ n ∈ names, Plain n
  stands : ∃ o, k.tree.object (k.rootFd ++ names) = some o ∧ ∀ target, o ≠ .symlink target

lemma Down.nil : Down k [] :=
  ⟨by simp, .directory, by rw [append_nil]; exact k.rootFd_directory, by simp⟩

lemma Down.dropLast {names : List Text} (h : Down k names) : Down k names.dropLast := by
  rcases eq_nil_or_concat names with rfl | ⟨init, last, rfl⟩
  · exact Down.nil
  · rw [concat_eq_append] at h ⊢
    rw [dropLast_concat]
    obtain ⟨o, ho, -⟩ := h.stands
    rw [← append_assoc] at ho
    have hdir := k.tree.parent _ _ (by rw [ho]; simp)
    exact ⟨fun n hn => h.plain n (mem_append_left _ hn), .directory, hdir, by simp⟩

def Found (k : Kernel) (create : Bool) (dir : Place) (name : Text)
    (r : Except PathError Place) : Prop :=
  (r = .ok (dir ++ [name]) ∧ (k.tree.object (dir ++ [name]) ≠ none ∨ create = true)) ∨
    (r = .error .noEntry ∧ k.tree.object (dir ++ [name]) = none ∧
      k.tree.object dir = some .directory) ∨ r = .error .notDirectory

variable {name : Text}

lemma found_walk (k : Kernel) (create : Bool) (dir : Place) (links : ℕ)
    (hname : LinkTree.Ordinary name) : Found k create dir name
        (k.tree.walk (nofollowRules create) links dir [name]).reached ∧
      ∀ p ∈ (k.tree.walk (nofollowRules create) links dir [name]).touched, dir <+: p := by
  cases hobject : k.tree.object (dir ++ [name]) with
  | some o =>
    rw [walk_last links rfl hname hobject]
    exact ⟨.inl ⟨rfl, .inl (by rw [hobject]; simp)⟩, by simp⟩
  | none =>
    by_cases hdir : k.tree.object dir = some .directory
    · rw [walk_missing (fun hnot => hnot.2 hdir) hname hobject, if_neg (not_not.mpr hdir)]
      split
      · next hcreate => exact ⟨.inl ⟨rfl, .inr hcreate.1⟩, by simp⟩
      · exact ⟨.inr (.inl ⟨rfl, hobject, hdir⟩), by simp⟩
    · rw [LinkTree.walk_notDirectory rfl hdir]
      exact ⟨.inr (.inr rfl), by simp⟩

lemma confined_append (h : Confined k touched) (h' : Confined k touched') :
    Confined k (touched ++ touched') := by
  intro p hp
  rcases mem_append.mp hp with hp | hp
  · exact h p hp
  · exact h' p hp

variable {create : Bool}

lemma lookUp_yields {dir : Place} {path : Text} {Q : Except PathError Place → Prop}
    (hreached : Q (k.tree.walk (nofollowRules create) maxSymlinkDepth
      (if isAbsolute path then [] else dir) (components path)).reached)
    (htouched : Confined k (k.tree.walk (nofollowRules create) maxSymlinkDepth
      (if isAbsolute path then [] else dir) (components path)).touched) :
    Yields (Confined k) (lookUp k dir path create) Q := by
  intro touched h
  exact Yields.check hreached _ (confined_append htouched h)

lemma lookUp_written {names : List Text} (hdown : Down k names) (hname : Plain name) :
    Yields (Confined k) (lookUp k k.rootFd (written (names ++ [name])) false)
      (Found k false (k.rootFd ++ names) name) := by
  have hplain : ∀ n ∈ names ++ [name], Plain n := by
    intro n hn
    rcases mem_append.mp hn with hn | hn
    · exact hdown.plain n hn
    · rw [mem_singleton.mp hn]
      exact hname
  have hrel : ¬ isAbsolute (written (names ++ [name])) := head_written hplain
  obtain ⟨o, hobject, ho⟩ := hdown.stands
  obtain ⟨hreached, htouched⟩ := walk_down (nofollowRules false) maxSymlinkDepth [name]
    (fun n hn => ordinary_of_plain (hdown.plain n hn)) hobject ho
  obtain ⟨hfound, hbelow⟩ := found_walk k false (k.rootFd ++ names) maxSymlinkDepth
    (ordinary_of_plain hname)
  refine lookUp_yields ?_ ?_
  · rw [if_neg hrel, components_written (by simp) fun n hn => (hplain n hn).no_sep, hreached]
    exact hfound
  · rw [if_neg hrel, components_written (by simp) fun n hn => (hplain n hn).no_sep]
    intro p hp
    rcases htouched p hp with h | h
    · exact h
    · exact (prefix_append _ _).trans (hbelow p h)

def StatTold (k : Kernel) (dir : Place) (name : Text) (r : Except PathError LinkObject) : Prop :=
  (∀ o, r = .ok o → k.tree.object (dir ++ [name]) = some o) ∧
    (r = .error .noEntry → k.tree.object (dir ++ [name]) = none ∧
      k.tree.object dir = some .directory)

lemma fstatat_written {names : List Text} (hdown : Down k names)
    (hname : Plain name) : Yields (Confined k) (fstatat k (written (names ++ [name])))
      (StatTold k (k.rootFd ++ names) name) := by
  refine (lookUp_written hdown hname).bind ?_ ?_
  · intro e he
    refine ⟨fun o ho => (by cases ho), fun hno => ?_⟩
    cases hno
    rcases he with ⟨h, -⟩ | ⟨-, h⟩ | h
    · cases h
    · exact h
    · cases h
  · intro place hplace
    obtain ⟨rfl, hobject⟩ : place = k.rootFd ++ names ++ [name] ∧
        k.tree.object (k.rootFd ++ names ++ [name]) ≠ none := by
      rcases hplace with ⟨h, h'⟩ | ⟨h, -⟩ | h
      · cases h
        exact ⟨rfl, h'.resolve_right (by simp)⟩
      · cases h
      · cases h
    refine .bind (Q := fun r => r = .error .refused ∨ r = .ok ())
      (Yields.rejectIf (fun _ => .inl rfl) fun _ => .inr rfl) ?_ fun _ _ => ?_
    · rintro e (he | he)
      · cases he
        exact ⟨fun o ho => (by cases ho), fun hno => (by cases hno)⟩
      · cases he
    · match h : k.tree.object (k.rootFd ++ names ++ [name]) with
      | none => exact absurd h hobject
      | some o =>
        refine .pure ⟨fun o' ho' => ?_, fun hno => (by cases hno)⟩
        cases ho'
        exact h

lemma readlinkat_written {names : List Text} (hdown : Down k names) {name target : Text}
    (hname : Plain name)
    (hobject : k.tree.object (k.rootFd ++ names ++ [name]) = some (.symlink target)) (n : ℕ) :
    Yields (Confined k) (readlinkat k (written (names ++ [name])) n)
      (OnOk fun text => text = target.take n) := by
  refine (lookUp_written hdown hname).bind (fun _ _ => trivial) fun place hplace => ?_
  obtain rfl : place = k.rootFd ++ names ++ [name] := by
    rcases hplace with ⟨h, -⟩ | ⟨h, -⟩ | h
    · cases h
      rfl
    · cases h
    · cases h
  refine .guard <| ?_
  rw [hobject]
  exact .pure rfl

lemma openat_below {dir : Place} (hdir : k.rootFd <+: dir) (hname : Plain name)
    (flags : OpenFlags) :
    Yields (Confined k) (openat k dir name flags) (OnOk fun place => place = dir ++ [name]) := by
  obtain ⟨hfound, hbelow⟩ := found_walk k flags.create dir maxSymlinkDepth (ordinary_of_plain hname)
  have hrel : ¬ isAbsolute name := head_of_no_sep hname.no_sep
  have hlookUp : Yields (Confined k) (lookUp k dir name flags.create)
      (Found k flags.create dir name) := by
    refine lookUp_yields ?_ ?_
    · rwa [if_neg hrel, components_of_no_sep hname.no_sep]
    · rw [if_neg hrel, components_of_no_sep hname.no_sep]
      exact fun p hp => hdir.trans (hbelow p hp)
  refine hlookUp.bind (fun _ _ => trivial) fun place hplace => ?_
  obtain rfl : place = dir ++ [name] := by
    rcases hplace with ⟨h, -⟩ | ⟨h, -⟩ | h
    · cases h
      rfl
    · cases h
    · cases h
  refine .guard <| ?_
  match k.tree.object (dir ++ [name]) with
  | none => exact .pure rfl
  | some .directory =>
    dsimp only
    split
    · exact .throw trivial
    · exact .pure rfl
  | some (.symlink _) => exact .throw trivial
  | some .other =>
    dsimp only
    split
    · exact .throw trivial
    · exact .pure rfl

lemma textNames_written {names : List Text} (h : ∀ n ∈ names, Plain n) :
    textNames (written names) = names := by
  by_cases hnil : names = []
  · rw [hnil]
    rfl
  · rw [textNames, components_written hnil fun n hn => (h n hn).no_sep, LinkTree.namesOf,
      filter_eq_self]
    intro n hn
    simpa using (h n hn).nonempty

lemma openComponents_below (flags : OpenFlags) {dir : Place} (hdir : k.rootFd <+: dir)
    (pending : Text) (hnames : ∀ n ∈ textNames pending, Plain n) :
    Yields (Confined k) (openComponents k flags dir pending)
      (OnOk fun place => place = dir ++ textNames pending) := by
  rw [openComponents]
  split
  · exact .throw trivial
  · exact .throw trivial
  · next component rest hpop =>
    obtain ⟨htext, -, -⟩ := popPendingComponent_some hpop
    have hcomponent : Plain component := hnames component (by rw [htext]; simp)
    rw [htext] at hnames ⊢
    split
    · next hrest =>
      rw [hrest, textNames_nil]
      exact openat_below hdir hcomponent flags
    · refine (openat_below hdir hcomponent directoryFlags).seq ?_
      rintro next rfl
      refine (openComponents_below flags (hdir.trans (prefix_append _ _)) rest
        fun n hn => hnames n (mem_cons_of_mem _ hn)).mono fun r hr => ?_
      cases r with
      | ok place => exact hr.trans (by simp)
      | error e => trivial
termination_by pending.length
decreasing_by exact popPendingComponent_shorter (by assumption)

lemma openResolvedPathNofollow_written (flags : OpenFlags) {names : List Text}
    (hnames : ∀ n ∈ names, Plain n) :
    Yields (Confined k) (openResolvedPathNofollow k (written names) flags)
      (OnOk fun place => place = k.rootFd ++ names) := by
  unfold openResolvedPathNofollow
  split
  · next hnil =>
    have hnames' := (written_eq_nil fun n hn => (hnames n hn).nonempty).mp hnil
    exact .pure (show k.rootFd = k.rootFd ++ names by rw [hnames', append_nil])
  · refine .guard <| ?_
    have hopen := openComponents_below (k := k) flags (prefix_refl _) (written names)
      (by rwa [textNames_written hnames])
    rwa [textNames_written hnames] at hopen

-- ══ Where the loop ends

def chrootRules (k : Kernel) (create : Bool) : Rules :=
  { top := k.rootFd, seen := id, follow := true, create, strict := true }

def cutRules (k : Kernel) (create : Bool) : Rules :=
  { top := k.rootFd, seen := fun target => target.take maxCopyPathLen, follow := true, create
    strict := false }

def leads (k : Kernel) (r : Rules) (links : ℕ) (names : List Text) (path : Text) :
    Except PathError Place :=
  (k.tree.walk r links (k.rootFd ++ names) (components path)).reached

def cutLeads (k : Kernel) (create : Bool) (links : ℕ) (names todo : List Text) :
    Except PathError Place :=
  (k.tree.walk (cutRules k create) links (k.rootFd ++ names) todo).reached

lemma leads_cutRules (create : Bool) (links : ℕ) (names : List Text) (path : Text) :
    leads k (cutRules k create) links names path =
      cutLeads k create links names (textNames path) :=
  (walk_namesOf rfl rfl links _ _).symm

section CutLeads

variable {links : ℕ} {names todo : List Text}

lemma cutLeads_dot : cutLeads k create links names (dot :: todo) =
    cutLeads k create links names todo := by
  unfold cutLeads
  rw [walk_stay (passable_of_lax rfl) (.inr rfl)]

lemma above_rootFd (names : List Text) :
    LinkTree.above k.rootFd (k.rootFd ++ names) = k.rootFd ++ names.dropLast := by
  unfold LinkTree.above
  by_cases hnil : names = []
  · rw [hnil]
    simp
  · rw [if_neg (by simpa using hnil), dropLast_append_of_ne_nil hnil]

lemma cutLeads_dotDot : cutLeads k create links names (dotDot :: todo) =
    cutLeads k create links names.dropLast todo := by
  unfold cutLeads
  rw [walk_up (passable_of_lax rfl), Walked.reached_touching,
    show (cutRules k create).top = k.rootFd from rfl, above_rootFd]

lemma cutLeads_onto (hname : Plain name)
    (hobject : k.tree.object (k.rootFd ++ names ++ [name]) = some o)
    (ho : ∀ target, o ≠ .symlink target) : cutLeads k create links names (name :: todo) =
      cutLeads k create links (names ++ [name]) todo := by
  unfold cutLeads
  rw [walk_onto (passable_of_lax rfl) (ordinary_of_plain hname) hobject
    ho, Walked.reached_touching, append_assoc]

lemma cutLeads_create (hname : Plain name)
    (hobject : k.tree.object (k.rootFd ++ names ++ [name]) = none)
    (hdir : k.tree.object (k.rootFd ++ names) = some .directory) :
    cutLeads k true links names [name] = .ok (k.rootFd ++ (names ++ [name])) := by
  unfold cutLeads
  rw [walk_missing (passable_of_lax rfl) (ordinary_of_plain hname)
    hobject, if_neg (not_not.mpr hdir), if_pos ⟨rfl, by simp⟩, append_assoc]

lemma cutLeads_link {target : Text} (hname : Plain name)
    (hobject : k.tree.object (k.rootFd ++ names ++ [name]) = some (.symlink target)) :
    cutLeads k create (links + 1) names (name :: todo) =
      cutLeads k create links (if isAbsolute (target.take maxCopyPathLen) then [] else names)
        (textNames (target.take maxCopyPathLen) ++ todo) := by
  unfold cutLeads
  rw [walk_link (passable_of_lax rfl) (ordinary_of_plain hname) hobject
    (by simp [cutRules]), Walked.reached_touching]
  change (k.tree.walk (cutRules k create) links
    (if isAbsolute (target.take maxCopyPathLen) then k.rootFd else k.rootFd ++ names)
    (components (target.take maxCopyPathLen) ++ todo)).reached = _
  rw [← walk_namesOf rfl rfl, ← walk_namesOf rfl rfl links _ (textNames _ ++ todo)]
  simp only [LinkTree.namesOf_append, textNames, LinkTree.namesOf_namesOf]
  by_cases habs : isAbsolute (target.take maxCopyPathLen)
  · rw [if_pos habs, if_pos habs, append_nil]
  · rw [if_neg habs, if_neg habs]

end CutLeads

def LoopEnd (k : Kernel) (create : Bool) (links : ℕ) (names todo : List Text) (logical : Text) :
    Prop :=
  ∃ names', logical = written names' ∧ (∀ n ∈ names', Plain n) ∧
    (create = false → Down k names') ∧
    cutLeads k create links names todo = .ok (k.rootFd ++ names')

lemma loopEnd_congr {links links' : ℕ} {names names' todo todo' : List Text}
    (h : cutLeads k create links names todo = cutLeads k create links' names' todo') :
    LoopEnd k create links names todo = LoopEnd k create links' names' todo' := by
  funext logical
  simp only [LoopEnd, h]

lemma append_yields {P : List Place → Prop} {names : List Text} (hnames : ∀ n ∈ names, Plain n)
    (hne : component ≠ []) (cap : ℕ) :
    Yields P (check (appendPathComponent (written names) cap component) : Sys Text)
      (OnOk fun path => path = written (names ++ [component])) := by
  refine .check ?_
  cases happend : appendPathComponent (written names) cap component with
  | ok path => exact appendPathComponent_ok hnames hne happend
  | error e => trivial

lemma prepend_yields {P : List Place → Prop} (rest target : Text) :
    Yields P (check (prependSymlinkTarget rest target) : Sys Text)
      (OnOk fun pending => textNames pending = textNames target ++ textNames rest) := by
  refine .check ?_
  cases hprepend : prependSymlinkTarget rest target with
  | ok pending => exact prependSymlinkTarget_ok hprepend
  | error e => trivial

/-- **The loop.** It looks at nothing outside the open directory, and it ends with the names that
the pending path leads to when targets are cut. -/
theorem followPending_reaches (create : Bool) (depth : ℕ) (hdepth : depth ≤ maxSymlinkDepth)
    (pending : Text) {names : List Text} (hdown : Down k names) :
    Yields (Confined k) (followPending k create depth pending (written names))
      (OnOk (LoopEnd k create (maxSymlinkDepth - depth) names (textNames pending))) := by
  rw [followPending]
  split
  · exact .throw trivial
  · next hpop =>
    rw [popPendingComponent_none hpop]
    exact .pure ⟨names, rfl, hdown.plain, fun _ => hdown, by simp [cutLeads]⟩
  · next component rest hpop =>
    obtain ⟨htext, hne, hsep⟩ := popPendingComponent_some hpop
    rw [htext]
    split
    · next hdot =>
      rw [hdot, loopEnd_congr cutLeads_dot]
      exact followPending_reaches create depth hdepth rest hdown
    · next hdot =>
      split
      · next hdots =>
        rw [hdots, popPathComponent_written hdown.plain, loopEnd_congr cutLeads_dotDot]
        exact followPending_reaches create depth hdepth rest hdown.dropLast
      · next hdots =>
        have hname : Plain component := ⟨hne, hsep, hdot, hdots⟩
        have hplain : ∀ n ∈ names ++ [component], Plain n := by
          intro n hn
          rcases mem_append.mp hn with hn | hn
          · exact hdown.plain n hn
          · rw [mem_singleton.mp hn]
            exact hname
        have hdescend : ∀ o, k.tree.object (k.rootFd ++ names ++ [component]) = some o →
            (∀ target, o ≠ .symlink target) →
            Yields (Confined k) (do
              let logical' ←
                check (appendPathComponent (written names) maxCopyFullPathLen component)
              followPending k create depth rest logical')
              (OnOk (LoopEnd k create (maxSymlinkDepth - depth) names
                (component :: textNames rest))) := by
          intro o hobject ho
          rw [loopEnd_congr (cutLeads_onto hname hobject ho)]
          refine (append_yields hdown.plain hne _).seq ?_
          rintro logical' rfl
          exact followPending_reaches create depth hdepth rest
            ⟨hplain, o, by rw [← append_assoc]; exact hobject, ho⟩
        refine (append_yields hdown.plain hne _).seq ?_
        rintro candidate rfl
        refine (fstatat_written hdown hname).capture_bind fun st hst => ?_
        cases st with
        | error e =>
          dsimp only
          split
          · next hcreate =>
            obtain ⟨rfl, hrest, rfl⟩ := hcreate
            obtain ⟨hmissing, hdir⟩ := hst.2 rfl
            refine (append_yields hdown.plain hne _).mono fun r hr => ?_
            cases r with
            | error e => trivial
            | ok path =>
              refine ⟨names ++ [component], hr, hplain, by simp, ?_⟩
              rw [hrest, textNames_nil, cutLeads_create hname hmissing hdir]
          · exact .throw trivial
        | ok o =>
          cases o with
          | symlink target =>
            have hobject := hst.1 _ rfl
            dsimp only
            split
            · exact .throw trivial
            · next hdepth' =>
              have hlinks : maxSymlinkDepth - depth = maxSymlinkDepth - (depth + 1) + 1 := by omega
              rw [hlinks, loopEnd_congr (cutLeads_link hname hobject)]
              refine (readlinkat_written hdown hname hobject maxCopyPathLen).seq ?_
              rintro text rfl
              refine (prepend_yields rest _).seq fun pending' hpending => ?_
              rw [← hpending]
              by_cases habs : isAbsolute (target.take maxCopyPathLen)
              · rw [if_pos habs, if_pos habs]
                exact followPending_reaches create (depth + 1) (by omega) pending' Down.nil
              · rw [if_neg habs, if_neg habs]
                exact followPending_reaches create (depth + 1) (by omega) pending' hdown
          | directory => exact hdescend .directory (hst.1 _ rfl) (by simp)
          | other => exact hdescend .other (hst.1 _ rfl) (by simp)
termination_by (maxSymlinkDepth - depth, pending.length)
decreasing_by
  all_goals
    first
    | exact Prod.Lex.right _ (popPendingComponent_shorter (by assumption))
    | exact Prod.Lex.left _ _ (by omega)

-- ══ The two resolvers

/-- What `resolve_confined_source_path` writes, in a run in which nothing was looked at before. -/
def resolved (k : Kernel) (rawPath : Text) (outCap : ℕ) : Except PathError Text :=
  (outcome (resolveConfinedSourcePath k rawPath outCap) []).1

def opened (k : Kernel) (rawPath : Text) (flags : OpenFlags) : Except PathError Place :=
  (outcome (confinedOpenPathFallback k rawPath flags) []).1

def named (k : Kernel) (path : Text) : Except PathError Place :=
  (k.tree.walk (nofollowRules false) maxSymlinkDepth
    (if isAbsolute path then [] else k.rootFd) (components path)).reached

def chrootPath (k : Kernel) (create : Bool) (path : Text) : Except PathError Place :=
  leads k (chrootRules k create) maxSymlinkDepth [] path

def cutPath (k : Kernel) (create : Bool) (path : Text) : Except PathError Place :=
  leads k (cutRules k create) maxSymlinkDepth [] path

lemma textNames_relative (rawPath : Text) : textNames (relative rawPath) = textNames rawPath := by
  unfold relative
  split
  · next habs =>
    cases rawPath with
    | nil => rfl
    | cons c rest =>
      obtain rfl : c = sep := by simpa [isAbsolute] using habs
      rw [tail_cons, textNames_sep_cons]
  · rfl

lemma LoopEnd.leads {rawPath : Text}
    (h : LoopEnd k create (maxSymlinkDepth - 0) [] (textNames (relative rawPath)) logical) :
    ∃ names, logical = written names ∧ (∀ n ∈ names, Plain n) ∧
      (create = false → Down k names) ∧ cutPath k create rawPath = .ok (k.rootFd ++ names) := by
  obtain ⟨names, hlogical, hplain, hdown, hleads⟩ := h
  refine ⟨names, hlogical, hplain, hdown, ?_⟩
  rw [textNames_relative] at hleads
  exact (leads_cutRules create _ [] rawPath).trans hleads

lemma named_written {names : List Text} (h : Down k names) :
    named k (if written names = [] then dot else written names) = .ok (k.rootFd ++ names) := by
  by_cases hnil : names = []
  · subst hnil
    have hpass : LinkTree.Passable k.tree (nofollowRules false) k.rootFd :=
      fun hnot => hnot.2 k.rootFd_directory
    rw [if_pos (show written [] = [] from rfl), named, if_neg (by decide),
      show components dot = [dot] by decide,
      walk_stay hpass (.inr rfl), walk_nil, append_nil]
  · obtain ⟨o, hobject, ho⟩ := h.stands
    have hreached := (walk_down (nofollowRules false) maxSymlinkDepth []
      (fun n hn => ordinary_of_plain (h.plain n hn)) hobject ho).1
    have hwritten : written names ≠ [] :=
      fun hw => hnil ((written_eq_nil fun n hn => (h.plain n hn).nonempty).mp hw)
    have hrel : ¬ isAbsolute (written names) := head_written h.plain
    rw [append_nil] at hreached
    rw [if_neg hwritten, named, if_neg hrel,
      components_written hnil fun n hn => (h.plain n hn).no_sep, hreached, walk_nil]

lemma resolveConfinedSourcePath_reaches (rawPath : Text) (outCap : ℕ) :
    Yields (Confined k) (resolveConfinedSourcePath k rawPath outCap)
      (OnOk fun text => named k text = cutPath k false rawPath ∧
        ∃ p, cutPath k false rawPath = .ok p) := by
  refine .guard <| ?_
  have hloop : Yields (Confined k) (followPending k false 0
      (if relative rawPath = [] then dot else relative rawPath) [])
      (OnOk (LoopEnd k false (maxSymlinkDepth - 0) [] (textNames (relative rawPath)))) := by
    have hreaches := followPending_reaches (k := k) false 0 (Nat.zero_le _)
      (if relative rawPath = [] then dot else relative rawPath) Down.nil
    split at hreaches
    · next hnil =>
      -- the path of the directory itself is written as a dot
      rw [show textNames dot = [dot] by decide, loopEnd_congr cutLeads_dot] at hreaches
      rw [if_pos hnil, hnil]
      exact hreaches
    · next hne =>
      rw [if_neg hne]
      exact hreaches
  refine hloop.seq fun logical hend => ?_
  obtain ⟨names, rfl, -, hdown, hleads⟩ := hend.leads
  refine .guard <| .pure ⟨?_, _, hleads⟩
  rw [hleads]
  exact named_written (hdown rfl)

lemma confinedOpenPathFallback_reaches (rawPath : Text) (flags : OpenFlags) :
    Yields (Confined k) (confinedOpenPathFallback k rawPath flags)
      (OnOk fun place => cutPath k flags.create rawPath = .ok place) := by
  unfold confinedOpenPathFallback
  split
  · next hnil =>
    refine .pure ?_
    change leads k (cutRules k flags.create) maxSymlinkDepth [] rawPath = .ok k.rootFd
    rw [leads_cutRules, ← textNames_relative, hnil]
    simp [cutLeads]
  · refine .guard <| ?_
    refine (followPending_reaches flags.create 0 (Nat.zero_le _) _ Down.nil).seq
      fun logical hend => ?_
    obtain ⟨names, rfl, hplain, -, hleads⟩ := hend.leads
    refine (openResolvedPathNofollow_written flags hplain).mono fun r hr => ?_
    cases r with
    | error e => trivial
    | ok place => exact hleads.trans (congrArg Except.ok (Eq.symm hr))

/-- Every target fits the buffer, and for a file that is to be made neither the path nor a target
ends in a separator. -/
structure Fits (k : Kernel) (create : Bool) (rawPath : Text) : Prop where
  short : ∀ p target, k.tree.object p = some (.symlink target) → target.length ≤ maxCopyPathLen
  trim : create = false ∨ LinkTree.Trim (components rawPath) ∧
    ∀ p target, k.tree.object p = some (.symlink target) → LinkTree.Trim (components target)

lemma Fits.cutPath_eq {rawPath : Text} (h : Fits k create rawPath)
    (hthrough : chrootPath k create rawPath ≠ .error .notDirectory) :
    cutPath k create rawPath = chrootPath k create rawPath := by
  refine LinkTree.walk_lax_of_strict rfl rfl
    (fun p target hobject => ?_) (h.trim.imp_right And.right) maxSymlinkDepth _ _
    (h.trim.imp_right And.left) hthrough
  exact take_of_length_le (h.short p target hobject)

/-- The two resolvers look at nothing outside `root_fd`. A text that the first one writes names, and
the second one opens, exactly what the path leads to inside `root_fd`, if and only if this is where
it leads with link targets cut to 512 bytes. It is where everything fits and the path does not go
through something that is no directory. -/
theorem confinedPath_reaches_iff (k : Kernel) (rawPath : Text) (outCap : ℕ) (flags : OpenFlags) :
    Confined k (outcome (resolveConfinedSourcePath k rawPath outCap) []).2 ∧
    Confined k (outcome (confinedOpenPathFallback k rawPath flags) []).2 ∧
    ((∀ text, resolved k rawPath outCap = .ok text →
        ∃ p, named k text = .ok p ∧ chrootPath k false rawPath = .ok p) ↔
      ((∃ text, resolved k rawPath outCap = .ok text) →
        cutPath k false rawPath = chrootPath k false rawPath)) ∧
    ((∀ p, opened k rawPath flags = .ok p → chrootPath k flags.create rawPath = .ok p) ↔
      ((∃ p, opened k rawPath flags = .ok p) →
        cutPath k flags.create rawPath = chrootPath k flags.create rawPath)) ∧
    (chrootPath k false rawPath ≠ .error .notDirectory → Fits k false rawPath →
      cutPath k false rawPath = chrootPath k false rawPath) ∧
    (chrootPath k flags.create rawPath ≠ .error .notDirectory → Fits k flags.create rawPath →
      cutPath k flags.create rawPath = chrootPath k flags.create rawPath) := by
  have hstart : Confined k [] := by simp [Confined]
  obtain ⟨hresolve, htext⟩ :=
    (resolveConfinedSourcePath_reaches (k := k) rawPath outCap).outcome hstart
  obtain ⟨hopen, hplace⟩ := (confinedOpenPathFallback_reaches (k := k) rawPath flags).outcome hstart
  refine ⟨hresolve, hopen, ⟨?_, ?_⟩, ⟨?_, ?_⟩, fun hthrough h => h.cutPath_eq hthrough,
    fun hthrough h => h.cutPath_eq hthrough⟩
  · rintro hright ⟨text, hok⟩
    obtain ⟨p, hnamed, hchroot⟩ := hright text hok
    rw [show (outcome _ _).1 = Except.ok text from hok] at htext
    rw [← htext.1, hnamed, hchroot]
  · intro hsame text hok
    rw [show (outcome _ _).1 = Except.ok text from hok] at htext
    obtain ⟨hnamed, p, hcut⟩ := htext
    exact ⟨p, hnamed.trans hcut, (hsame ⟨text, hok⟩).symm.trans hcut⟩
  · rintro hright ⟨p, hok⟩
    rw [show (outcome _ _).1 = Except.ok p from hok] at hplace
    exact Eq.trans hplace (hright p hok).symm
  · intro hsame p hok
    rw [show (outcome _ _).1 = Except.ok p from hok] at hplace
    exact (hsame ⟨p, hok⟩).symm.trans hplace

-- ══ A target that is cut

def longTarget : Text := 'b' :: replicate 511 sep ++ ['c']

def sampleObject : Place → Option LinkObject
  | [] => some .directory
  | [n] =>
    if n = ['b'] then some .directory
    else if n = ['l'] then some (.symlink longTarget) else none
  | [m, n] => if m = ['b'] ∧ n = ['c'] then some .other else none
  | _ => none

def sampleTree : LinkTree where
  object := sampleObject
  root := rfl
  parent := by
    intro p n h
    match p with
    | [] => rfl
    | [m] =>
      by_cases hm : m = ['b']
      · simp [sampleObject, hm]
      · simp [sampleObject, hm] at h
    | _ :: _ :: _ => simp [sampleObject] at h

def sampleKernel : Kernel := ⟨sampleTree, [], rfl, fun _ _ => false⟩

lemma lookUp_sample (hname : Plain name) (ho : sampleObject [name] = some o)
    (create : Bool) (touched : List Place) :
    lookUp sampleKernel [] name create touched = .ok [name] ([name] :: touched) := by
  have hwalk : sampleTree.walk (nofollowRules create) maxSymlinkDepth [] [name] =
      ⟨.ok [name], [[name]]⟩ :=
    walk_last maxSymlinkDepth rfl (ordinary_of_plain hname) ho
  have hrel : ¬ isAbsolute name := head_of_no_sep hname.no_sep
  refine bind_ok.mpr ⟨(), _, modify_ok.mpr rfl, check_ok.mpr ?_⟩
  rw [if_neg hrel, components_of_no_sep hname.no_sep]
  exact ⟨congrArg Walked.reached hwalk, congrArg (·.touched ++ touched) hwalk⟩

lemma fstatat_sample (hname : Plain name) (ho : sampleObject [name] = some o)
    (touched : List Place) : fstatat sampleKernel name touched = .ok o ([name] :: touched) := by
  refine bind_ok.mpr ⟨_, _, lookUp_sample hname ho false touched,
    bind_ok.mpr ⟨(), _, rejectIf_ok.mpr ⟨by simp [sampleKernel], rfl⟩, ?_⟩⟩
  rw [show sampleKernel.tree.object [name] = some o from ho]
  exact pure_ok.mpr ⟨rfl, rfl⟩

lemma readlinkat_sample (touched : List Place) :
    readlinkat sampleKernel ['l'] maxCopyPathLen touched =
      .ok ('b' :: replicate 511 sep) ([['l']] :: touched) := by
  refine bind_ok.mpr ⟨_, _, lookUp_sample (by decide) rfl false touched,
    bind_ok.mpr ⟨(), _, rejectIf_ok.mpr ⟨by simp [sampleKernel], rfl⟩, ?_⟩⟩
  exact pure_ok.mpr ⟨by decide +kernel, rfl⟩

lemma followPending_none {depth : ℕ} (hpop : popPendingComponent pending = .ok none) :
    followPending k create depth pending logical = pure logical := by
  rw [followPending]
  split
  · simp_all
  · rfl
  · simp_all

lemma followPending_onto {depth : ℕ} {rest candidate logical' : Text}
    (hpop : popPendingComponent pending = .ok (some (component, rest))) (hname : Plain component)
    (hcandidate : appendPathComponent logical pendingCap component = .ok candidate)
    (hstat : fstatat k candidate touched = .ok o touched') (ho : ∀ target, o ≠ .symlink target)
    (hlogical : appendPathComponent logical maxCopyFullPathLen component = .ok logical') :
    followPending k create depth pending logical touched =
      followPending k create depth rest logical' touched' := by
  generalize hx : followPending k create depth pending logical = x
  rw [followPending] at hx
  split at hx
  · simp_all
  · simp_all
  · next c r h =>
    rw [hpop] at h
    cases h
    rw [if_neg hname.ne_dot, if_neg hname.ne_dotDot, hcandidate] at hx
    rw [← hx]
    have hcapture : capture (fstatat k candidate) touched = .ok (.ok o) touched' := by
      rw [capture_ok, outcome, hstat]
    change EStateM.bind (capture (fstatat k candidate)) _ touched = _
    unfold EStateM.bind
    rw [hcapture]
    cases o with
    | symlink target => exact absurd rfl (ho target)
    | directory =>
      rw [hlogical]
      rfl
    | other =>
      rw [hlogical]
      rfl

lemma followPending_link {depth : ℕ} {rest candidate text next target : Text}
    {touched'' : List Place} (hpop : popPendingComponent pending = .ok (some (component, rest)))
    (hname : Plain component)
    (hcandidate : appendPathComponent logical pendingCap component = .ok candidate)
    (hstat : fstatat k candidate touched = .ok (.symlink target) touched')
    (hdepth : depth < maxSymlinkDepth)
    (hread : readlinkat k candidate maxCopyPathLen touched' = .ok text touched'')
    (hnext : prependSymlinkTarget rest text = .ok next) :
    followPending k create depth pending logical touched =
      followPending k create (depth + 1) next (if isAbsolute text then [] else logical)
        touched'' := by
  generalize hx : followPending k create depth pending logical = x
  rw [followPending] at hx
  split at hx
  · simp_all
  · simp_all
  · next c r h =>
    rw [hpop] at h
    cases h
    rw [if_neg hname.ne_dot, if_neg hname.ne_dotDot, hcandidate] at hx
    rw [← hx]
    have hcapture : capture (fstatat k candidate) touched =
        .ok (.ok (.symlink target)) touched' := by
      rw [capture_ok, outcome, hstat]
    change EStateM.bind (capture (fstatat k candidate)) _ touched = _
    unfold EStateM.bind
    rw [hcapture]
    rw [dif_neg (by omega)]
    change EStateM.bind (readlinkat k candidate maxCopyPathLen) _ touched' = _
    unfold EStateM.bind
    rw [hread]
    dsimp only
    rw [hnext]
    rfl

lemma followPending_sample (touched : List Place) :
    ∃ touched', followPending sampleKernel false 0 ['l'] [] touched = .ok ['b'] touched' := by
  have hfirst : popPendingComponent ['l'] = .ok (some (['l'], [])) := by decide
  have hsecond : popPendingComponent ('b' :: replicate 511 sep) =
      .ok (some (['b'], replicate 510 sep)) := by decide +kernel
  have hlast : popPendingComponent (replicate 510 sep) = .ok none := by decide +kernel
  have hnext : prependSymlinkTarget [] ('b' :: replicate 511 sep) =
      .ok ('b' :: replicate 511 sep) := by decide +kernel
  have hl : appendPathComponent [] pendingCap ['l'] = .ok ['l'] := by decide
  have hb : appendPathComponent [] pendingCap ['b'] = .ok ['b'] := by decide
  have hb' : appendPathComponent [] maxCopyFullPathLen ['b'] = .ok ['b'] := by decide
  refine ⟨[['b']] :: [['l']] :: [['l']] :: touched, ?_⟩
  rw [followPending_link hfirst (by decide) hl (fstatat_sample (by decide) rfl touched) (by decide)
    (readlinkat_sample _) hnext]
  change followPending sampleKernel false 1 ('b' :: replicate 511 sep) [] _ = _
  rw [followPending_onto hsecond (by decide) hb (fstatat_sample (by decide) rfl _) (by simp) hb',
    followPending_none hlast]
  rfl

lemma walk_separators {t : LinkTree} {r : Rules} {links : ℕ} {cur : Place}
    (hcur : LinkTree.Passable t r cur) (n : ℕ) (rest : List Text) :
    t.walk r links cur (replicate n [] ++ rest) = t.walk r links cur rest := by
  induction n with
  | zero => rfl
  | succ n ih => rw [replicate_succ, cons_append, walk_stay hcur (.inl rfl), ih]

lemma chrootPath_sample : chrootPath sampleKernel false ['l'] = .ok [['b'], ['c']] := by
  have hroot : LinkTree.Passable sampleTree (chrootRules sampleKernel false) [] :=
    fun hnot => hnot.2 rfl
  have hb : LinkTree.Passable sampleTree (chrootRules sampleKernel false) [['b']] :=
    fun hnot => hnot.2 rfl
  have hcomponents : components longTarget =
      ['b'] :: (replicate 510 [] ++ [['c']]) := by decide +kernel
  change (sampleTree.walk (chrootRules sampleKernel false) (39 + 1) [] [['l']]).reached = _
  rw [walk_link hroot (ordinary_of_plain (by decide)) rfl (by decide), Walked.reached_touching]
  change (sampleTree.walk (chrootRules sampleKernel false) 39 []
    (components longTarget ++ [])).reached = _
  rw [hcomponents, append_nil,
    walk_onto hroot (ordinary_of_plain (by decide)) rfl
      (by simp),
    Walked.reached_touching, nil_append, walk_separators hb,
    walk_onto hb (ordinary_of_plain (by decide)) rfl (by simp),
    Walked.reached_touching, walk_nil]
  rfl

lemma openComponents_sample (touched : List Place) :
    openComponents sampleKernel ⟨false, false, false⟩ [] ['b'] touched =
      .ok [['b']] ([['b']] :: touched) := by
  have hpop : popPendingComponent ['b'] = .ok (some (['b'], [])) := by decide
  generalize hx : openComponents sampleKernel ⟨false, false, false⟩ [] ['b'] = x
  rw [openComponents] at hx
  split at hx
  · simp_all
  · simp_all
  · next h =>
    cases h
    rw [← hx]
    exact bind_ok.mpr ⟨_, _, lookUp_sample (by decide) rfl false touched,
      bind_ok.mpr ⟨(), _, rejectIf_ok.mpr ⟨by simp [sampleKernel], rfl⟩, rfl⟩⟩

/-- The link leads to the file, and both resolvers stop at the directory. -/
theorem longTarget_misleads :
    resolved sampleKernel ['l'] 513 = .ok ['b'] ∧ named sampleKernel ['b'] = .ok [['b']] ∧
      opened sampleKernel ['l'] ⟨false, false, false⟩ = .ok [['b']] ∧
      chrootPath sampleKernel false ['l'] = .ok [['b'], ['c']] := by
  obtain ⟨touched, hloop⟩ := followPending_sample []
  refine ⟨?_, ?_, ?_, chrootPath_sample⟩
  · have hrun : resolveConfinedSourcePath sampleKernel ['l'] 513 [] = .ok ['b'] touched :=
      bind_ok.mpr ⟨(), [], rejectIf_ok.mpr ⟨by decide, rfl⟩, bind_ok.mpr ⟨_, _, hloop,
        bind_ok.mpr ⟨(), _, rejectIf_ok.mpr ⟨by decide, rfl⟩, pure_ok.mpr ⟨rfl, rfl⟩⟩⟩⟩
    rw [resolved, outcome, hrun]
  · have hdown : Down sampleKernel [['b']] := ⟨by decide, .directory, rfl, by simp⟩
    exact named_written hdown
  · have hrun : confinedOpenPathFallback sampleKernel ['l'] ⟨false, false, false⟩ [] =
        .ok [['b']] ([['b']] :: touched) :=
      bind_ok.mpr ⟨(), [], rejectIf_ok.mpr ⟨by decide, rfl⟩, bind_ok.mpr ⟨_, _, hloop,
        bind_ok.mpr ⟨(), _, rejectIf_ok.mpr ⟨by decide, rfl⟩, openComponents_sample touched⟩⟩⟩
    rw [opened, outcome, hrun]

end SporeVM.BuildCopy
