import SporeVM.Copy.Archive
import SporeVM.Lib.FileHost
import SporeVM.Lib.Yields

/-!
# Extracting an archive on the host

`extract` makes a new file or directory at a path of the host and fills it from an archive that a
guest has sent. Nothing in the archive is trusted. The host resolves every name it is given, `..`
and links and all, and other processes make entries below the destination while the extraction
runs; that nothing is touched elsewhere is due to the checks of the paths and to the flags of the
calls.
-/

namespace SporeVM.NamedCopyArchive

open Lib Lib.PathText Lib.EState Lib.FileHost
open List hiding after
open FileTree (Literal cString opened resolve_literal callRules)

abbrev HostM := FileM ArchiveError

variable (w : FileWorld)

def directoryFlags : OpenFlags := ⟨false, false, true, true⟩

def createFlags : OpenFlags := ⟨true, true, true, false⟩

/-- The directory that holds the last of the names, and the last name. -/
def openParentAt (dir : Place) : List Text → HostM (Place × Text)
  | [] => pure (dir, [])
  | [name] => pure (dir, name)
  | name :: names => do
    let next ← openat w .openFailed dir name directoryFlags
    openParentAt next names

def createFileAt (dir : Place) (name : Text) (_mode : ℕ) : HostM Place :=
  openat w .openFailed dir name createFlags

def makeDirAt (dir : Place) (name : Text) (_mode : ℕ) : HostM Unit := do
  let _ ← mkdirat w .createDirFailed dir name

def copyBufferLen : ℕ := 65536

def copyFileBytes (file : Place) (remaining : ℕ) (input : Stream) : HostM Unit :=
  if remaining = 0 then pure ()
  else do
    let (chunk, input) ← check (readExact input (min remaining copyBufferLen))
    writeAll w (.host .refused) file chunk.length chunk
    copyFileBytes file (remaining - min remaining copyBufferLen) input
termination_by remaining
decreasing_by
  have : copyBufferLen = 65536 := rfl
  omega

def extractEntries (dest : Place) (input : Stream) : HostM Stream :=
  match _hread : readRecord input with
  | .error e => throw e
  | .ok (record, rest) =>
    if record.kind = .endMark then pure rest
    else if record.path = [] then throw .badCopyArchive
    else do
      let entry ← openParentAt w dest (components record.path)
      if record.kind = .file then do
        let file ← createFileAt w entry.1 entry.2 record.mode
        copyFileBytes w file record.size rest
        extractEntries dest (rest.drop record.size)
      else do
        makeDirAt w entry.1 entry.2 record.mode
        extractEntries dest rest
termination_by input.bytes.length
decreasing_by
  · exact readRecord_drop_shorter _hread record.size
  · exact readRecord_shorter _hread

def extractRoot (parent : Place) (base : Text) (root : Record) (input : Stream) : HostM Unit :=
  match root.kind with
  | .file => do
    let file ← createFileAt w parent base root.mode
    onError
      (do
        copyFileBytes w file root.size input
        let (last, rest) ← check (readRecord (input.drop root.size))
        rejectIf (last.kind ≠ .endMark) .badCopyArchive
        check (expectEof rest))
      (do let _ ← unlinkat w .openFailed parent base)
  | .directory => do
    makeDirAt w parent base root.mode
    onError
      (do
        let dest ← openat w .openFailed parent base directoryFlags
        let rest ← extractEntries w dest input
        check (expectEof rest))
      (do let _ ← deleteTree w .openFailed parent base)
  | .endMark => throw .badCopyArchive

/-- `std.fs.path.dirname`, up to separators at the end of the directory. -/
def dirname (path : Text) : Option Text :=
  match (path.reverse.dropWhile (· = sep)).dropWhile (· ≠ sep) with
  | [] => none
  | [_] => some [sep]
  | _ :: rest => some rest.reverse

/-- `cwd` is the working directory of the process. -/
def extract (cwd : Place) (hostPath : Text) (input : Stream) : HostM Unit := do
  let input ← check (readMagic input)
  let (root, input) ← check (readRecord input)
  rejectIf (root.path ≠ []) .badCopyArchive
  let parent ← openDirectory w .host cwd ((dirname hostPath).getD dot)
  extractRoot w parent (basename hostPath) root input

-- ══ What a run has done

/-- The run has made a file at the place. -/
def Made (log : List FileEvent) (q : Place) : Prop :=
  ∃ before after, FileEvent.changed before after ∈ log ∧ before.node q = none ∧
    after.node q = some (.file [])

/-- What a change of the run may do at `q`: make a file or directory where nothing is, write on at
the end of a file that the run has made, and remove; each at or below `place` only. -/
inductive Touched (place : Place) (log : List FileEvent) (before after : FileTree) (q : Place) :
    Prop
  | same (h : after.node q = before.node q)
  | created (hq : place <+: q) (hfree : before.node q = none)
      (hkind : after.node q = some .directory ∨ after.node q = some (.file []))
  | extended (hq : place <+: q) (hmade : Made log q) {bytes data : Bytes}
      (hbefore : before.node q = some (.file bytes))
      (hafter : after.node q = some (.file (bytes ++ data)))
  | removed (hq : place <+: q) (hgone : after.node q = none)

/-- Every name was resolved to the entry of this name, at or below `place`, and every change
happened there. -/
def Confined (place : Place) : List FileEvent → Prop
  | [] => True
  | .resolved dir name q :: log => (q = dir ++ [name] ∧ place <+: q) ∧ Confined place log
  | .changed before after :: log => (∀ q, Touched place log before after q) ∧ Confined place log

section Steps

variable {w} {place dir file : Place} {name : Text} {log : List FileEvent}

def Inside (place : Place) (h : FileHost) : Prop := Confined place h.log

lemma Touched.of_make {t t' : FileTree} {q : Place} {node : FileNode} (hq : place <+: q)
    (hnode : node = .directory ∨ node = .file []) (h : t.make? q node = some t') (r : Place) :
    Touched place log t t' r := by
  obtain ⟨hfree, hafter⟩ := FileTree.make?_eq h
  by_cases hr : r = q
  · subst hr
    refine .created hq hfree ?_
    rw [hafter, if_pos rfl]
    exact hnode.imp (congrArg some) (congrArg some)
  · exact .same (by rw [hafter, if_neg hr])

lemma Touched.of_append {t : FileTree} {data : Bytes} (hfile : place <+: file)
    (hmade : Made log file) (q : Place) : Touched place log t (t.append file data) q := by
  by_cases hq : q = file
  · subst hq
    have hafter : (t.append q data).node q = (t.node q).map (FileNode.append data) := if_pos rfl
    cases hnode : t.node q with
    | none => exact .same (by rw [hafter, hnode]; rfl)
    | some node =>
      cases node with
      | file bytes => exact .extended hfile hmade hnode (by rw [hafter, hnode]; rfl)
      | _ => exact .same (by rw [hafter, hnode]; rfl)
  · exact .same (if_neg hq)

lemma Touched.of_remove {t : FileTree} {q : Place} {left : List Place} {hne : q ≠ []}
    (hq : place <+: q) (r : Place) : Touched place log t (t.remove q left hne) r := by
  by_cases hgone : q <+: r ∧ ∀ s ∈ left, ¬ r <+: s
  · exact .removed (hq.trans hgone.1) (if_pos hgone)
  · exact .same (if_neg hgone)

/-- **A call on a literal name** that follows no link stays inside the place. -/
theorem call_inside {e : ArchiveError} {access : FileAccess} {create : Bool}
    {change : ℕ → FileTree → Place → Option FileTree} (hname : Literal name)
    (hbelow : place <+: dir ++ [cString name])
    (hchange : ∀ k t t' log, change k t (dir ++ [cString name]) = some t' →
      ∀ q, Touched place log t t' q) :
    Triple (Inside place) (call w e access false create dir name change)
      (fun q h => (Inside place h ∧ q = dir ++ [cString name]) ∧ ∃ k before after,
        FileEvent.changed before after ∈ h.log ∧ change k before q = some after)
      (Inside place) := by
  refine call_triple (fun h events hh hevents => ?_) fun h q t hh hresolve ht => ?_
  · change Confined place (events ++ h.log)
    induction events with
    | nil => exact hh
    | cons event events ih =>
      obtain ⟨q, hresolve, rfl⟩ := hevents event mem_cons_self
      have hq := resolve_literal hname hresolve
      exact ⟨⟨hq, hq ▸ hbelow⟩, ih fun event' h' => hevents event' (mem_cons_of_mem _ h')⟩
  · have hq := resolve_literal hname hresolve
    subst hq
    exact ⟨⟨⟨hchange _ _ _ _ ht, ⟨rfl, hbelow⟩, hh⟩, rfl⟩, _, _, _, mem_cons_self, ht⟩

lemma below_child (hdir : place <+: dir) : place <+: dir ++ [cString name] :=
  hdir.trans (prefix_append _ _)

lemma openDirectoryAt_inside (hname : Literal name)
    (hbelow : place <+: dir ++ [cString name]) :
    Keeps (Inside place) (openat w ArchiveError.openFailed dir name directoryFlags)
      (· = dir ++ [cString name]) := by
  refine (call_inside hname hbelow fun _ t t' _ h q => .same ?_).weaken (fun _ h => h)
    (fun _ _ h => h.1) fun _ h => h
  unfold opened at h
  split at h
  · simp [directoryFlags] at h
  · cases h
  · simp only [directoryFlags, Bool.false_eq_true, if_false, Option.some.injEq] at h
    rw [h]
  · simp [directoryFlags] at h

lemma createFileAt_inside (hname : Literal name)
    (hbelow : place <+: dir ++ [cString name]) (mode : ℕ) :
    Triple (Inside place) (createFileAt w dir name mode)
      (fun file h => (Inside place h ∧ Made h.log file) ∧ place <+: file) (Inside place) := by
  have hopened : ∀ {t t' : FileTree} {q : Place}, t.opened createFlags q = some t' →
      t.make? q (.file []) = some t' := by
    intro t t' q h
    unfold opened at h
    split at h
    · exact h
    · cases h
    · cases h
    · simp [createFlags] at h
  refine (call_inside hname hbelow fun _ _ _ _ h => .of_make hbelow (.inr rfl) (hopened h)).weaken
    (fun _ h => h) ?_ fun _ h => h
  rintro q h ⟨⟨hinside, rfl⟩, -, before, after, hmem, hchange⟩
  obtain ⟨hfree, hafter⟩ := FileTree.make?_eq (hopened hchange)
  exact ⟨⟨hinside, before, after, hmem, hfree, by rw [hafter, if_pos rfl]⟩, hbelow⟩

lemma makeDirAt_inside (hname : Literal name)
    (hbelow : place <+: dir ++ [cString name]) (mode : ℕ) :
    Stays (Inside place) (makeDirAt w dir name mode) :=
  ((call_inside hname hbelow fun _ _ _ _ h => .of_make hbelow (.inl rfl) h).weaken
    (fun _ h => h) (fun _ _ h => h.1.1) fun _ h => h).bind fun _ => Stays.pure

lemma openParentAt_inside : ∀ (dir : Place) (names : List Text), place <+: dir →
    (∀ n ∈ names, Plain (cString n)) →
    Keeps (Inside place) (openParentAt w dir names)
      (fun r => Literal r.2 ∧ place <+: r.1)
  | dir, [], hdir, _ => Keeps.pure ⟨.inl rfl, hdir⟩
  | dir, [name], hdir, hnames => Keeps.pure ⟨.inr (hnames name mem_cons_self), hdir⟩
  | dir, name :: second :: names, hdir, hnames => by
    refine (openDirectoryAt_inside (.inr (hnames name mem_cons_self))
      (below_child hdir)).bind fun next hnext => ?_
    subst hnext
    exact openParentAt_inside _ _ (below_child hdir) fun n hn => hnames n (mem_cons_of_mem _ hn)

/-- What a property of hosts needs to live through the writing of a file. -/
lemma copyFileBytes_keeps {P : FileHost → Prop} (hfail : ∀ h, P h → P (h.after w [] h.tree))
    (hok : ∀ h data, P h → P (h.after w [.changed h.tree (h.tree.append file data)]
      (h.tree.append file data))) (remaining : ℕ) (input : Stream) :
    Stays P (copyFileBytes w file remaining input) := by
  rw [copyFileBytes]
  split
  · exact Stays.pure
  · refine Stays.check.bind fun read _ => ?_
    exact (writeAll_keeps hfail hok _ _).bind fun _ _ => copyFileBytes_keeps hfail hok _ _
termination_by remaining
decreasing_by
  have : copyBufferLen = 65536 := rfl
  omega

lemma copyFileBytes_inside (hfile : place <+: file) (remaining : ℕ) (input : Stream) :
    Stays (fun h => Inside place h ∧ Made h.log file) (copyFileBytes w file remaining input) := by
  refine copyFileBytes_keeps (fun h hh => hh) (fun h data hh => ?_) remaining input
  obtain ⟨hinside, hmade⟩ := hh
  refine ⟨⟨.of_append hfile hmade, hinside⟩, ?_⟩
  obtain ⟨before, after, hmem, hmake⟩ := hmade
  exact ⟨before, after, mem_cons_of_mem _ hmem, hmake⟩

lemma extractEntries_inside (input : Stream) :
    Stays (Inside place) (extractEntries w place input) := by
  rw [extractEntries]
  split
  · exact Keeps.throw
  · next record rest hread =>
    split
    · exact Stays.pure
    · next hkind =>
      split
      · exact Keeps.throw
      · next hpath =>
        have hvalid := validatePath_of_readRecord hread hkind
        refine (openParentAt_inside place _ (prefix_refl place)
          fun n hn => plain_of_validatePath hvalid hpath hn).bind fun entry hentry => ?_
        obtain ⟨hname, hdir⟩ := hentry
        split
        · refine Triple.bind (createFileAt_inside hname (below_child hdir) record.mode)
            fun file => ?_
          rintro h ⟨hh, hfile⟩
          refine ((copyFileBytes_inside hfile record.size rest).weaken (fun _ h => h)
            (fun _ _ h => h.1.1) fun _ h => h.1).bind (fun _ => ?_) h hh
          exact extractEntries_inside (rest.drop record.size)
        · exact (makeDirAt_inside hname (below_child hdir) record.mode).bind
            fun _ _ => extractEntries_inside rest
termination_by input.bytes.length
decreasing_by
  · exact readRecord_shorter (by assumption)
  · exact readRecord_drop_shorter (by assumption) _

variable {parent : Place} {base : Text}

/-- **Extraction stays inside its destination**, which is the entry of the base name. -/
theorem extractRoot_inside (hbase : Literal base) (root : Record) (input : Stream) :
    Stays (Inside (parent ++ [cString base])) (extractRoot w parent base root input) := by
  have hself := prefix_refl (parent ++ [cString base])
  unfold extractRoot
  split
  · refine Triple.bind (createFileAt_inside hbase hself root.mode) fun file => ?_
    rintro h ⟨hh, hfile⟩
    refine Triple.onError (P := fun h => Inside _ h ∧ Made h.log file)
      (E := Inside (parent ++ [cString base])) ?_ ?_ h hh
    · refine Triple.bind ((copyFileBytes_inside hfile root.size input).weaken (fun _ h => h)
        (fun _ _ h => h.1.1) fun _ h => h.1) fun _ => ?_
      exact Stays.check.bind fun _ _ => Keeps.guard Stays.check
    · refine ((call_inside hbase hself fun _ t t' _ hrun => ?_).weaken (fun _ h => h)
        (fun _ _ h => h.1.1) fun _ h => h).bind fun _ => .pure fun _ h => h
      split at hrun
      · cases hrun
        exact .of_remove hself
      · cases hrun
  · refine (makeDirAt_inside hbase hself root.mode).bind fun _ _ => ?_
    refine Triple.onError (E := Inside (parent ++ [cString base])) ?_ ?_
    · refine (openDirectoryAt_inside hbase hself).bind fun dest hdest => ?_
      subst hdest
      exact (extractEntries_inside input).bind fun _ _ => Stays.check
    · refine ((call_inside hbase hself fun _ t t' _ hrun => ?_).weaken (fun _ h => h)
        (fun _ _ h => h.1.1) fun _ h => h).bind fun _ => .pure fun _ h => h
      split at hrun
      · cases hrun
        exact .of_remove hself
      · cases hrun
  · exact Keeps.throw

end Steps

-- ══ Taking a failure back

/-- Other processes make nothing at or below the place. -/
def Undisturbed (w : FileWorld) (place : Place) : Prop :=
  ∀ k, ∀ entry ∈ w.others k, ¬ place <+: entry.1

/-- Deletions are not refused and leave nothing behind. -/
def Deletes (w : FileWorld) : Prop := ∀ k, w.refuses k .unlink = false ∧ w.left k = []

section Failure

variable {w} {parent : Place} {base : Text}

def Absent (place : Place) (h : FileHost) : Prop := h.tree.node place = none

def Taken (place : Place) (h : FileHost) : Prop := ∃ bytes, h.tree.node place = some (.file bytes)

variable {place : Place}

lemma node_after (hothers : Undisturbed w place) (h : FileHost) (events : List FileEvent)
    (t : FileTree) :
    (h.after w events t).tree.node place = t.node place :=
  FileTree.node_grow fun entry hentry heq => hothers _ entry hentry (heq ▸ prefix_refl _)

lemma copyFileBytes_taken (hothers : Undisturbed w place) (remaining : ℕ) (input : Stream) :
    Stays (Taken place) (copyFileBytes w place remaining input) := by
  refine copyFileBytes_keeps (fun h hh => ?_) (fun h data hh => ?_) remaining input
  · obtain ⟨bytes, hnode⟩ := hh
    exact ⟨bytes, by rw [node_after hothers, hnode]⟩
  · obtain ⟨bytes, hnode⟩ := hh
    refine ⟨bytes ++ data, ?_⟩
    rw [node_after hothers]
    simp [FileTree.append, hnode, FileNode.append]

variable (hbase : Plain (cString base))
  (hothers : Undisturbed w (parent ++ [cString base]))
include hbase hothers

/-- A call that makes an entry makes it at the destination or leaves the destination absent. -/
lemma make_triple {e : ArchiveError} {access : FileAccess} (node : FileNode)
    {change : ℕ → FileTree → Place → Option FileTree}
    (hmake : ∀ k t t' q, change k t q = some t' → t.node q = none → t'.node q = some node) :
    Triple (Absent (parent ++ [cString base]))
      (call w e access false true parent base change)
      (fun q h => q = parent ++ [cString base] ∧ h.tree.node q = some node)
      (Absent (parent ++ [cString base])) := by
  refine call_triple (fun h events hh _ => ?_) fun h q t hh hresolve ht => ?_
  · exact (node_after hothers h events h.tree).trans hh
  · have hq := resolve_literal (.inr hbase) hresolve
    subst hq
    exact ⟨rfl, (node_after hothers h _ t).trans (hmake _ _ _ _ ht hh)⟩

lemma createFileAt_triple (mode : ℕ) : Triple (Absent (parent ++ [cString base]))
    (createFileAt w parent base mode)
    (fun q h => q = parent ++ [cString base] ∧ h.tree.node q = some (.file []))
    (Absent (parent ++ [cString base])) := by
  change Triple _ (call w ArchiveError.openFailed .open false true parent base
    fun _ t q => t.opened createFlags q) _ _
  refine make_triple hbase hothers (.file []) fun _ t t' q hrun hfree => ?_
  simp only [opened, hfree, createFlags, if_true] at hrun
  rw [(FileTree.make?_eq hrun).2, if_pos rfl]

lemma makeDirAt_triple (mode : ℕ) : Triple (Absent (parent ++ [cString base]))
    (makeDirAt w parent base mode) (fun _ _ => True)
    (Absent (parent ++ [cString base])) := by
  refine Triple.bind (make_triple hbase hothers .directory fun _ t t' q hrun _ => ?_)
    fun _ => .pure fun _ _ => trivial
  rw [(FileTree.make?_eq hrun).2, if_pos rfl]

variable (hclean : Deletes w)
include hclean

/-- A call that removes what it finds leaves nothing at the destination. -/
lemma remove_triple {P : FileHost → Prop} {e : ArchiveError}
    {change : ℕ → FileTree → Place → Option FileTree}
    (hremove : ∀ h, P h → ∃ t, change h.clock h.tree (parent ++ [cString base]) = some t ∧
      t.node (parent ++ [cString base]) = none) :
    Triple P (call w e .unlink false false parent base change)
      (fun _ => Absent (parent ++ [cString base]))
      (Absent (parent ++ [cString base])) := by
  intro h hh
  obtain ⟨t, hchange, hgone⟩ := hremove h hh
  by_cases hthere : h.tree.node (parent ++ [cString base]) = none
  · refine call_triple (P := fun h' => h' = h) (fun _ events hh' _ => ?_)
      (fun _ q t' hh' hresolve ht' => ?_) h rfl
    · rw [hh']
      exact (node_after hothers h events h.tree).trans hthere
    · rw [hh'] at hresolve
      exact absurd hresolve (FileTree.Free.missing (.inr ⟨hbase, hthere⟩) q)
  · rw [call_ok (hclean h.clock).1 (FileTree.resolve_found hbase hthere) hchange]
    exact (node_after hothers h _ t).trans hgone

/-- **A failed extraction leaves nothing at its destination.** -/
theorem extractRoot_failed (root : Record) (input : Stream) :
    Triple (Absent (parent ++ [cString base])) (extractRoot w parent base root input)
      (fun _ _ => True) (Absent (parent ++ [cString base])) := by
  unfold extractRoot
  split
  · refine (createFileAt_triple hbase hothers root.mode).bind fun file => ?_
    rintro h ⟨rfl, hfile⟩
    have htaken : Taken (parent ++ [cString base]) h := ⟨[], hfile⟩
    refine Triple.onError (E := Taken (parent ++ [cString base]))
      (Q := fun _ _ => True) ?_ ?_ h htaken
    · refine Keeps.errors (Q := fun _ => True) ?_
      refine (copyFileBytes_taken hothers root.size input).bind fun _ _ => ?_
      exact Stays.check.bind fun _ _ => Keeps.guard Stays.check
    · refine (remove_triple hbase hothers hclean ?_).bind fun _ => .pure fun _ h => h
      rintro h ⟨bytes, hnode⟩
      refine ⟨h.tree.remove _ [] (by simp), dif_pos ⟨by simp, by simp [hnode]⟩, ?_⟩
      exact if_pos ⟨prefix_refl _, by simp⟩
  · refine (makeDirAt_triple hbase hothers root.mode).bind fun _ => ?_
    refine Triple.onError (Triple.any _) ?_
    refine (remove_triple hbase hothers hclean fun h _ => ?_).bind fun _ => .pure fun _ h => h
    refine ⟨h.tree.remove _ (w.left h.clock) (by simp), dif_pos (by simp), ?_⟩
    exact if_pos ⟨prefix_refl _, by simp [(hclean h.clock).2]⟩
  · exact fun h hh => hh

end Failure

-- ══ The whole run

/-- The directory that the destination lies in, as the run opens it. -/
def parentOf (t : FileTree) (cwd : Place) (hostPath : Text) : Except PathError Place :=
  t.directoryAt cwd ((dirname hostPath).getD dot)

/-- The place of the destination. -/
def destination (dir : Place) (hostPath : Text) : Place :=
  dir ++ [cString (basename hostPath)]

variable {w} {t : FileTree} {cwd : Place} {hostPath : Text} {input : Stream}

/-- **Rule of an extraction.** It ends before it touches the host, or when the directory of the
destination is opened, or it goes on from there. -/
theorem extract_triple {Q : Unit → FileHost → Prop} {E : FileHost → Prop} (hstart : E (start t))
    (hopen : E ((start t).after w [] t)) (hroot : ∀ dir, parentOf t cwd hostPath = .ok dir →
      ∀ root rest, Triple (· = (start t).after w [] t)
        (extractRoot w dir (basename hostPath) root rest) Q E) :
    Triple (· = start t) (extract w cwd hostPath input) Q E := by
  have hE : ∀ h, h = start t → E h := by
    rintro _ rfl
    exact hstart
  refine Stays.check.before hE fun _ _ => Stays.check.before hE fun read _ => ?_
  refine Keeps.rejectIf.before hE fun _ _ => ?_
  refine Triple.bind ((openDirectory_triple (start t)).weaken (fun _ h => h) (fun _ _ h => h) ?_)
    fun dir => ?_
  · rintro _ rfl
    exact hopen
  · rintro h ⟨hdir, rfl⟩
    exact hroot dir hdir read.1 read.2 _ rfl

lemma no_sep_basename (path : Text) : sep ∉ cString (basename path) := by
  intro hmem
  have hbase := (takeWhile_sublist _).subset hmem
  simpa using mem_takeWhile_imp (mem_reverse.mp hbase)

lemma directory_of_parentOf {dir : Place} (h : parentOf t cwd hostPath = .ok dir) :
    t.node dir = some .directory := by
  obtain ⟨place, -, h⟩ := Check.bind_ok.mp h
  split at h
  · next hdir =>
    cases h
    exact hdir
  · cases h

/-- **Extraction into a new path.** Whatever stream is extracted, whatever the host refuses and
whatever other processes make in the meantime: every name is resolved to the entry of this name at
or below the destination, no link is followed and nothing is looked up elsewhere; the run makes only
files and directories, where nothing is, and writes only to files that it has made, all at or below
the destination. If the extraction fails, other processes make nothing there and deletions succeed,
then the destination does not exist afterwards. -/
theorem extract_contained (w : FileWorld) (t : FileTree) (cwd : Place) (hostPath : Text)
    (input : Stream)
    (hnew : ∀ dir, parentOf t cwd hostPath = .ok dir → t.Missing dir (basename hostPath)) :
    (∀ e, parentOf t cwd hostPath = .error e →
      (outcome (extract w cwd hostPath input) (start t)).2.log = []) ∧
    ∀ dir, parentOf t cwd hostPath = .ok dir →
      Confined (destination dir hostPath)
        (outcome (extract w cwd hostPath input) (start t)).2.log ∧
      (Undisturbed w (destination dir hostPath) → Deletes w →
        ∀ e, (outcome (extract w cwd hostPath input) (start t)).1 = .error e →
          (outcome (extract w cwd hostPath input) (start t)).2.tree.Missing dir
            (basename hostPath)) := by
  refine ⟨fun e he => ?_, fun dir hdir => ?_⟩
  · refine Triple.outcome (E := fun h => h.log = []) (extract_triple rfl rfl ?_) rfl
    intro dir hdir
    rw [he] at hdir
    cases hdir
  have hfree := (hnew dir hdir).free (directory_of_parentOf hdir) (no_sep_basename hostPath)
  refine ⟨?_, fun hothers hclean e he => ?_⟩
  · refine Triple.outcome (E := Inside (destination dir hostPath))
      (extract_triple trivial trivial fun dir' hdir' root rest => ?_) rfl
    rw [hdir] at hdir'
    cases hdir'
    refine (extractRoot_inside hfree.literal root rest).weaken ?_ (fun _ _ h => h.1) fun _ h => h
    rintro _ rfl
    trivial
  · rcases hfree with hnil | ⟨hbase, habsent⟩
    · exact FileTree.Free.missing (.inl hnil)
    have hopen : Absent (destination dir hostPath) ((start t).after w [] t) :=
      (node_after hothers _ _ t).trans habsent
    have hfailed : Triple (· = start t) (extract w cwd hostPath input) (fun _ _ => True)
        (Absent (destination dir hostPath)) := by
      refine extract_triple habsent hopen fun dir' hdir' root rest => ?_
      rw [hdir] at hdir'
      cases hdir'
      refine (extractRoot_failed hbase hothers hclean root rest).weaken ?_ (fun _ _ h => h)
        fun _ h => h
      rintro _ rfl
      exact hopen
    rcases outcome_cases (extract w cwd hostPath input) (start t) with ⟨a, hok, -⟩ | ⟨e', -, herr⟩
    · rw [he] at hok
      cases hok
    · exact FileTree.Free.missing (.inr ⟨hbase, hfailed.error rfl herr⟩)

def emptyTree : FileTree where
  node p := if p = [] then some .directory else none
  root := rfl
  parent p n h := absurd (if_neg (by simp)) h

/-- Another process puts a link to the root into the destination once it is there. -/
def linkingWorld : FileWorld where
  refuses _ _ := false
  taken _ := 0
  others k := if k = 1 then [([['o'], ['l']], .symlink ['/'])] else []
  left _ := []

def recordBytes (code : UInt8) (path : Bytes) (size : UInt8) : Bytes :=
  [code, UInt8.ofNat path.length, 0, 0xa4, 1, 0, 0, size, 0, 0, 0, 0, 0, 0, 0, 0] ++ path

/-- A directory, and in it a file behind the name of the link. -/
def linkArchive : Stream :=
  ⟨magic ++ recordBytes 0x44 [] 0 ++ recordBytes 0x46 [0x6c, 0x2f, 0x78] 2 ++ [1, 2], false⟩

lemma parentOf_emptyTree : parentOf emptyTree [] ['o'] = .ok [] := by
  have hpass : LinkTree.Passable emptyTree.links (callRules true false) [] := by
    rintro ⟨-, hnot⟩
    exact hnot rfl
  have hresolve : emptyTree.resolve true false [] dot = .ok [] := by
    change (LinkTree.walk emptyTree.links (callRules true false) _ [] [dot]).reached = _
    rw [LinkTree.walk_stay hpass (.inr rfl), LinkTree.walk_nil]
  change emptyTree.directoryAt [] dot = _
  rw [FileTree.directoryAt, hresolve]
  rfl

theorem extract_contained_link : parentOf emptyTree [] ['o'] = .ok [] ∧
    Confined [['o']] (outcome (extract linkingWorld [] ['o'] linkArchive) (start emptyTree)).2.log ∧
    ∀ e, (outcome (extract { linkingWorld with others := fun _ => [] } [] ['o'] linkArchive)
        (start emptyTree)).1 = .error e →
      (outcome (extract { linkingWorld with others := fun _ => [] } [] ['o'] linkArchive)
        (start emptyTree)).2.tree.Missing [] ['o'] := by
  have hnew : ∀ dir, parentOf emptyTree [] ['o'] = .ok dir →
      emptyTree.Missing dir (basename ['o']) := by
    intro dir hdir
    rw [parentOf_emptyTree] at hdir
    cases hdir
    exact FileTree.Free.missing (.inr ⟨by decide, rfl⟩)
  have hlinked := extract_contained linkingWorld emptyTree [] ['o'] linkArchive hnew
  have halone := extract_contained { linkingWorld with others := fun _ => [] } emptyTree [] ['o']
    linkArchive hnew
  exact ⟨parentOf_emptyTree, (hlinked.2 [] parentOf_emptyTree).1,
    (halone.2 [] parentOf_emptyTree).2 (fun _ _ h => nomatch h) fun _ => ⟨rfl, rfl⟩⟩

end SporeVM.NamedCopyArchive
