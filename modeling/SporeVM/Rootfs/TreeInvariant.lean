import Mathlib.Data.List.Infix
import SporeVM.Rootfs.Tree

/-!
# Well-formed merged trees

A merged tree is well formed when paths are normal, everything above an entry is a directory, and
the tables of links and contents say what the entries say.

Removals only restrict the entries, to a set of paths that is closed upwards, and give up one name
at a time in the tables. An entry may be put where its parents are directories and no file stands.
-/

namespace SporeVM.Tar

open Lib (Assoc)
open Lib.Check (bind_ok rejectIf_ok)
open Lib.PathText (Text sep Plain no_sep_of_mem_components)
open List hiding lt_irrefl

variable {tree : MergedTree}

def NormalPath (rel : Path) : Prop := rel ≠ [] ∧ ∀ part ∈ rel, Plain part

def Below (parent path : Path) : Prop := parent <+: path ∧ parent ≠ path

instance decidableBelow (parent path : Path) : Decidable (Below parent path) :=
  inferInstanceAs (Decidable (_ ∧ _))

def MergedTree.nameCount (tree : MergedTree) (i : ℕ) : ℕ := tree.entries.count (MergedEntry.names i)

def IsDirectory (tree : MergedTree) (rel : Path) : Prop :=
  ∃ entry, tree.entries.find rel = some entry ∧ entry.kind = .directory

def MergedEntry.SameMetadata (entry entry' : MergedEntry) : Prop :=
  entry.mode = entry'.mode ∧ entry.uid = entry'.uid ∧ entry.gid = entry'.gid ∧
    entry.xattrs = entry'.xattrs

structure WellFormed (tree : MergedTree) : Prop where
  normal : ∀ rel entry, tree.entries.find rel = some entry → NormalPath rel
  parents : ∀ rel entry, tree.entries.find rel = some entry →
    ∀ ancestor, ancestor ≠ [] → Below ancestor rel → IsDirectory tree ancestor
  linkCounts : ∀ i, tree.fileLinkCounts i =
    if tree.nameCount i = 0 then none else some (tree.nameCount i)
  sources : ∀ i, (tree.fileSources i).isSome ↔
    ∃ rel entry, tree.entries.find rel = some entry ∧ entry.kind = .file ∧ entry.inodeId = i
  shared : ∀ rel rel' entry entry', tree.entries.find rel = some entry →
    tree.entries.find rel' = some entry' → entry.kind = .file → entry'.kind = .file →
    entry.inodeId = entry'.inodeId → entry.SameMetadata entry'

-- ══ Paths

lemma isMergedDescendant_iff {parent path : Path} :
    isMergedDescendant parent path = true ↔ Below parent path := by
  simp [isMergedDescendant, Below]

lemma Below.extend {a b c : Path} (h : Below a b) (hbc : b <+: c) : Below a c := by
  refine ⟨h.1.trans hbc, ?_⟩
  rintro rfl
  exact h.2 (h.1.eq_of_length_le hbc.length_le)

lemma below_iff_prefix_parentPath {rel q : Path} (hrel : rel ≠ []) :
    Below q rel ↔ q <+: parentPath rel := by
  obtain ⟨init, last, rfl⟩ : ∃ init last, rel = init ++ [last] :=
    ⟨rel.dropLast, rel.getLast hrel, (dropLast_append_getLast hrel).symm⟩
  rw [parentPath, dropLast_concat, Below, prefix_concat_iff]
  constructor
  · rintro ⟨h | h, hne⟩
    · exact absurd h hne
    · exact h
  · intro h
    refine ⟨.inr h, ?_⟩
    rintro rfl
    have hlen := h.length_le
    rw [length_append, length_singleton] at hlen
    omega

lemma normalizeComponents_plain {raw : List Text} {parts rel : Path}
    (hok : normalizeComponents parts raw = .ok rel) (hparts : ∀ part ∈ parts, Plain part)
    (hraw : ∀ part ∈ raw, sep ∉ part) : ∀ part ∈ rel, Plain part := by
  induction raw generalizing parts with
  | nil =>
    cases hok
    exact hparts
  | cons part rest ih =>
    have hrest : ∀ part ∈ rest, sep ∉ part := fun p hp => hraw p (mem_cons_of_mem _ hp)
    unfold normalizeComponents at hok
    split_ifs at hok with hskip hdots hnil
    · exact ih hok hparts hrest
    · exact ih hok (fun p hp => hparts p (mem_of_mem_dropLast hp)) hrest
    · refine ih hok ?_ hrest
      intro p hp
      rcases mem_append.mp hp with hp | hp
      · exact hparts p hp
      · rw [mem_singleton] at hp
        subst hp
        exact ⟨fun h => hskip (.inl h), hraw p mem_cons_self, fun h => hskip (.inr h), hdots⟩

variable {rel : Path}

lemma safeTarPath_normal {raw : Text} (hok : safeTarPath raw = .ok rel) : NormalPath rel := by
  iterate 3 obtain ⟨_, _, hok⟩ := bind_ok.mp hok
  obtain ⟨parts, hparts, hok⟩ := bind_ok.mp hok
  obtain ⟨_, hne, hok⟩ := bind_ok.mp hok
  cases hok
  exact ⟨rejectIf_ok.mp hne, normalizeComponents_plain hparts (by simp)
    fun part hpart => no_sep_of_mem_components hpart⟩

-- ══ The tables of links and contents

structure Tables (tree : MergedTree) (n : ℕ → ℕ) : Prop where
  counts : ∀ i, tree.fileLinkCounts i = if n i = 0 then none else some (n i)
  sources : ∀ i, (tree.fileSources i).isSome ↔ n i ≠ 0

variable {entry : MergedEntry}

lemma names_iff {i : ℕ} : entry.names i = true ↔ entry.kind = .file ∧ entry.inodeId = i := by
  simp [MergedEntry.names]

lemma releaseMergedEntry_of_not_file (h : entry.kind ≠ .file) :
    releaseMergedEntry tree entry = tree := by
  unfold releaseMergedEntry
  rw [if_pos h]

@[simp] lemma releaseMergedEntry_entries (tree : MergedTree) (entry : MergedEntry) :
    (releaseMergedEntry tree entry).entries = tree.entries := by
  unfold releaseMergedEntry
  split
  · rfl
  · split
    · rfl
    · split <;> rfl

@[simp] lemma releaseMergedEntry_nextInodeId (tree : MergedTree) (entry : MergedEntry) :
    (releaseMergedEntry tree entry).nextInodeId = tree.nextInodeId := by
  unfold releaseMergedEntry
  split
  · rfl
  · split
    · rfl
    · split <;> rfl

/-- Releasing an entry takes one name from its inode, and the contents with the last one. -/
theorem Tables.release {n m : ℕ → ℕ} (h : Tables tree n)
    (hm : ∀ i, n i = m i + if entry.names i then 1 else 0) :
    Tables (releaseMergedEntry tree entry) m := by
  by_cases hfile : entry.kind = .file
  · have hself : n entry.inodeId = m entry.inodeId + 1 := by
      rw [hm, if_pos (names_iff.mpr ⟨hfile, rfl⟩)]
    have hother : ∀ i, i ≠ entry.inodeId → n i = m i := by
      intro i hi
      rw [hm, if_neg (fun hnames => hi (names_iff.mp hnames).2.symm), Nat.add_zero]
    have hcount : tree.fileLinkCounts entry.inodeId = some (m entry.inodeId + 1) := by
      rw [h.counts, hself, if_neg (Nat.succ_ne_zero _)]
    unfold releaseMergedEntry
    simp only [ne_eq, hfile, not_true_eq_false, if_false, hcount, Nat.add_sub_cancel]
    split
    · next hleft =>
      refine ⟨fun i => ?_, fun i => ?_⟩
      · by_cases hi : i = entry.inodeId
        · subst hi
          simp [hleft]
        · simp [Function.update_of_ne hi, h.counts, hother i hi]
      · by_cases hi : i = entry.inodeId
        · subst hi
          simp [h.sources, hself, hleft]
        · simp [h.sources, hother i hi]
    · next hlast =>
      refine ⟨fun i => ?_, fun i => ?_⟩
      · by_cases hi : i = entry.inodeId
        · subst hi
          simp [not_not.mp hlast]
        · simp [Function.update_of_ne hi, h.counts, hother i hi]
      · by_cases hi : i = entry.inodeId
        · subst hi
          simp [not_not.mp hlast]
        · simp [Function.update_of_ne hi, h.sources, hother i hi]
  · have hsame : n = m := by
      funext i
      rw [hm, if_neg (fun hnames => hfile (names_iff.mp hnames).1), Nat.add_zero]
    rw [releaseMergedEntry_of_not_file hfile, ← hsame]
    exact h

/-- A name counted for an inode whose contents are stored. -/
theorem countName_tables {n : ℕ → ℕ}
    (hcounts : ∀ i, tree.fileLinkCounts i = if n i = 0 then none else some (n i))
    (hsources : ∀ i, (tree.fileSources i).isSome ↔ n i ≠ 0 ∨ entry.names i = true) :
    Tables (countName tree entry) fun i => n i + if entry.names i then 1 else 0 := by
  unfold countName
  by_cases hfile : entry.kind = .file
  · rw [if_pos hfile]
    refine ⟨fun i => ?_, fun i => ?_⟩
    · by_cases hi : i = entry.inodeId
      · subst hi
        have hnames : entry.names entry.inodeId = true := names_iff.mpr ⟨hfile, rfl⟩
        have hget : (tree.fileLinkCounts entry.inodeId).getD 0 = n entry.inodeId := by
          rw [hcounts]
          split
          · next hzero => simp [hzero]
          · rfl
        simp [hnames, hget]
      · have hnames : entry.names i = false := by
          rw [Bool.eq_false_iff]
          exact fun h => hi (names_iff.mp h).2.symm
        simp [Function.update_of_ne hi, hcounts, hnames]
    · by_cases hnames : entry.names i = true <;> simp [hsources, hnames]
  · rw [if_neg hfile]
    have hnames : ∀ i, entry.names i = false := by
      intro i
      rw [Bool.eq_false_iff]
      exact fun h => hfile (names_iff.mp h).1
    refine ⟨fun i => ?_, fun i => ?_⟩
    · simp [hcounts, hnames]
    · simp [hsources, hnames]

-- ══ The invariant

/-- What a tree keeps from record to record: it is well formed, and the next inode id is unused. -/
structure Invariant (tree : MergedTree) : Prop extends WellFormed tree where
  fresh : ∀ rel entry, tree.entries.find rel = some entry → entry.kind = .file →
    entry.inodeId < tree.nextInodeId

lemma nameCount_ne_zero {i : ℕ} : tree.nameCount i ≠ 0 ↔
    ∃ rel entry, tree.entries.find rel = some entry ∧ entry.kind = .file ∧ entry.inodeId = i := by
  rw [MergedTree.nameCount, Assoc.count_ne_zero]
  simp only [names_iff]

lemma Invariant.tables (h : Invariant tree) : Tables tree tree.nameCount :=
  ⟨h.linkCounts, fun i => (h.sources i).trans nameCount_ne_zero.symm⟩

lemma Tables.sources_iff (h : Tables tree tree.nameCount) (i : ℕ) : (tree.fileSources i).isSome ↔
      ∃ rel entry, tree.entries.find rel = some entry ∧ entry.kind = .file ∧
        entry.inodeId = i :=
  (h.sources i).trans nameCount_ne_zero

lemma Invariant.init : Invariant MergedTree.init where
  normal rel entry hfind := by cases hfind
  parents rel entry hfind := by cases hfind
  linkCounts i := rfl
  sources i := by simp [MergedTree.init]
  shared rel rel' entry entry' hfind := by cases hfind
  fresh rel entry hfind := by cases hfind

lemma WellFormed.find_below_eq_none (h : WellFormed tree) (hrel : rel ≠ [])
    (hnot : ¬ IsDirectory tree rel) (q : Path) (hbelow : Below rel q) :
    tree.entries.find q = none := by
  cases hfind : tree.entries.find q with
  | none => rfl
  | some entry => exact absurd (h.parents q entry hfind rel hrel hbelow) hnot

-- ══ Removals

lemma removeMergedPath_entries (tree : MergedTree) (rel : Path) :
    (removeMergedPath tree rel).entries = tree.entries.erase rel := by
  unfold removeMergedPath
  split
  · next hnone => exact (Assoc.erase_of_find_none hnone).symm
  · rw [releaseMergedEntry_entries]

lemma removeMergedPath_nextInodeId (tree : MergedTree) (rel : Path) :
    (removeMergedPath tree rel).nextInodeId = tree.nextInodeId := by
  unfold removeMergedPath
  split
  · rfl
  · rw [releaseMergedEntry_nextInodeId]

lemma removeMergedPath_tables (h : Tables tree tree.nameCount) (rel : Path) :
    Tables (removeMergedPath tree rel) (removeMergedPath tree rel).nameCount := by
  have hcount : (removeMergedPath tree rel).nameCount =
      fun i => (tree.entries.erase rel).count (MergedEntry.names i) := by
    funext i
    rw [MergedTree.nameCount, removeMergedPath_entries]
  rw [hcount]
  cases hfind : tree.entries.find rel with
  | none =>
    rw [Assoc.erase_of_find_none hfind]
    unfold removeMergedPath
    rw [hfind]
    exact h
  | some entry =>
    have hstart : Tables { tree with entries := tree.entries.erase rel } tree.nameCount :=
      ⟨h.counts, h.sources⟩
    unfold removeMergedPath
    rw [hfind]
    exact hstart.release fun i => Assoc.count_erase_of_find hfind (MergedEntry.names i)

lemma removeMergedPaths_find (tree : MergedTree) (keys : List Path) (q : Path) :
    (removeMergedPaths tree keys).entries.find q =
      if q ∈ keys then none else tree.entries.find q := by
  unfold removeMergedPaths
  induction keys generalizing tree with
  | nil => simp
  | cons key keys ih =>
    rw [foldl_cons, ih, removeMergedPath_entries, Assoc.find_erase]
    by_cases hkey : q = key <;> simp [hkey]

lemma removeMergedPaths_nextInodeId (tree : MergedTree) (keys : List Path) :
    (removeMergedPaths tree keys).nextInodeId = tree.nextInodeId := by
  unfold removeMergedPaths
  induction keys generalizing tree with
  | nil => rfl
  | cons key keys ih => rw [foldl_cons, ih, removeMergedPath_nextInodeId]

lemma removeMergedPaths_tables (h : Tables tree tree.nameCount) (keys : List Path) :
    Tables (removeMergedPaths tree keys) (removeMergedPaths tree keys).nameCount := by
  induction keys generalizing tree with
  | nil => exact h
  | cons key keys ih =>
    exact ih (removeMergedPath_tables h key)

variable {tree : MergedTree}

/-- **Removals.** A removal that takes everything below a removed path along keeps the
invariant. -/
theorem Invariant.remove (h : Invariant tree) {keys : List Path}
    (hclosed : ∀ q ∈ keys, ∀ p entry, tree.entries.find p = some entry → q <+: p → p ∈ keys) :
    Invariant (removeMergedPaths tree keys) := by
  have hold : ∀ {q entry}, (removeMergedPaths tree keys).entries.find q = some entry →
      tree.entries.find q = some entry ∧ q ∉ keys := by
    intro q entry hfind
    rw [removeMergedPaths_find] at hfind
    split at hfind
    · cases hfind
    · next hnot => exact ⟨hfind, hnot⟩
  have htables := removeMergedPaths_tables h.tables keys
  refine ⟨⟨?_, ?_, htables.counts, htables.sources_iff, ?_⟩, ?_⟩
  · intro rel entry hfind
    exact h.normal rel entry (hold hfind).1
  · intro rel entry hfind ancestor hne hbelow
    obtain ⟨hfind, hnot⟩ := hold hfind
    obtain ⟨dir, hdir, hkind⟩ := h.parents rel entry hfind ancestor hne hbelow
    refine ⟨dir, ?_, hkind⟩
    rw [removeMergedPaths_find, if_neg]
    · exact hdir
    · intro hmem
      exact hnot (hclosed ancestor hmem rel entry hfind hbelow.1)
  · intro rel rel' entry entry' hfind hfind'
    exact h.shared rel rel' entry entry' (hold hfind).1 (hold hfind').1
  · intro rel entry hfind hkind
    rw [removeMergedPaths_nextInodeId]
    exact h.fresh rel entry (hold hfind).1 hkind

lemma mem_subtree_keys {rel q : Path} :
    q ∈ tree.entries.keys.filter (fun key => rel.isPrefixOf key) ↔
      (∃ entry, tree.entries.find q = some entry) ∧ rel <+: q := by
  simp [mem_filter, Assoc.mem_keys]

lemma mem_lowerChildren_keys {created : List Path} {rel q : Path} : q ∈ tree.entries.keys.filter
        (fun key => isMergedDescendant rel key && !createdAtOrBelow created key) ↔
      (∃ entry, tree.entries.find q = some entry) ∧ Below rel q ∧
        createdAtOrBelow created q = false := by
  simp [mem_filter, Assoc.mem_keys, isMergedDescendant_iff]

lemma removeMergedSubtree_find (tree : MergedTree) (rel q : Path) :
    (removeMergedSubtree tree rel).entries.find q =
      if rel <+: q then none else tree.entries.find q := by
  rw [removeMergedSubtree, removeMergedPaths_find]
  cases hfind : tree.entries.find q with
  | none => simp
  | some entry =>
    have hkeys := @mem_subtree_keys tree rel q
    rw [and_iff_right ⟨entry, hfind⟩] at hkeys
    simp only [hkeys]

lemma removeMergedLowerChildren_find (tree : MergedTree) (created : List Path) (rel q : Path) :
    (removeMergedLowerChildren tree created rel).entries.find q =
      if Below rel q ∧ createdAtOrBelow created q = false then none else tree.entries.find q := by
  rw [removeMergedLowerChildren, removeMergedPaths_find]
  cases hfind : tree.entries.find q with
  | none => simp
  | some entry =>
    have hkeys := @mem_lowerChildren_keys tree created rel q
    rw [and_iff_right ⟨entry, hfind⟩] at hkeys
    simp only [hkeys]

lemma createdAtOrBelow_iff {created : List Path} {q : Path} :
    createdAtOrBelow created q = true ↔ ∃ p ∈ created, q <+: p := by
  simp only [createdAtOrBelow, createdHasDescendant, Bool.or_eq_true, contains_iff_mem,
    any_eq_true, isMergedDescendant_iff]
  constructor
  · rintro (h | ⟨p, hp, hbelow⟩)
    · exact ⟨q, h, prefix_refl q⟩
    · exact ⟨p, hp, hbelow.1⟩
  · rintro ⟨p, hp, hpre⟩
    by_cases heq : q = p
    · exact .inl (heq ▸ hp)
    · exact .inr ⟨p, hp, hpre, heq⟩

lemma Invariant.removeMergedSubtree (h : Invariant tree) (rel : Path) :
    Invariant (removeMergedSubtree tree rel) := by
  refine h.remove fun q hq p entry hfind hpre => ?_
  exact mem_subtree_keys.mpr ⟨⟨entry, hfind⟩, (mem_subtree_keys.mp hq).2.trans hpre⟩

lemma Invariant.removeMergedLowerChildren (h : Invariant tree) (created : List Path) (rel : Path)
    : Invariant (removeMergedLowerChildren tree created rel) := by
  refine h.remove fun q hq p entry hfind hpre => ?_
  obtain ⟨_, hbelow, hnot⟩ := mem_lowerChildren_keys.mp hq
  refine mem_lowerChildren_keys.mpr ⟨⟨entry, hfind⟩, hbelow.extend hpre, ?_⟩
  -- what is put at or below `p` is put at or below `q`
  rw [Bool.eq_false_iff] at hnot ⊢
  intro hcreated
  obtain ⟨c, hc, hpc⟩ := createdAtOrBelow_iff.mp hcreated
  exact hnot (createdAtOrBelow_iff.mpr ⟨c, hc, hpre.trans hpc⟩)

-- ══ Puts

def NoFile (tree : MergedTree) (rel : Path) : Prop :=
  ∀ entry, tree.entries.find rel = some entry → entry.kind ≠ .file

lemma releaseExisting_eq (h : NoFile tree rel) : releaseExisting tree rel = tree := by
  unfold releaseExisting
  split
  · rfl
  · next entry hfind => exact releaseMergedEntry_of_not_file (h entry hfind)

@[simp] lemma countName_entries (tree : MergedTree) (entry : MergedEntry) :
    (countName tree entry).entries = tree.entries := by
  unfold countName
  split <;> rfl

@[simp] lemma countName_nextInodeId (tree : MergedTree) (entry : MergedEntry) :
    (countName tree entry).nextInodeId = tree.nextInodeId := by
  unfold countName
  split <;> rfl

lemma putMergedEntry_eq (h : NoFile tree rel) (entry : MergedEntry) :
    putMergedEntry tree rel entry =
      countName { tree with entries := tree.entries.put rel entry } entry := by
  unfold putMergedEntry
  rw [releaseExisting_eq h]

lemma putMergedEntry_find (h : NoFile tree rel) (entry : MergedEntry) (q : Path) :
    (putMergedEntry tree rel entry).entries.find q =
      if q = rel then some entry else tree.entries.find q := by
  rw [putMergedEntry_eq h, countName_entries, Assoc.find_put]

lemma putMergedEntry_kind {rel q : Path} (h : NoFile tree rel) (entry : MergedEntry)
    (hq : q ≠ rel) : ((putMergedEntry tree rel entry).entries.find q).map MergedEntry.kind =
      (tree.entries.find q).map MergedEntry.kind := by
  rw [putMergedEntry_find h, if_neg hq]

lemma putMergedEntry_nextInodeId (h : NoFile tree rel) (entry : MergedEntry) :
    (putMergedEntry tree rel entry).nextInodeId = tree.nextInodeId := by
  rw [putMergedEntry_eq h, countName_nextInodeId]

lemma nameCount_put (h : NoFile tree rel) (entry : MergedEntry) (i : ℕ) :
    (tree.entries.put rel entry).count (MergedEntry.names i) =
      tree.nameCount i + if entry.names i then 1 else 0 := by
  have herase : (tree.entries.erase rel).count (MergedEntry.names i) = tree.nameCount i := by
    cases hfind : tree.entries.find rel with
    | none => rw [Assoc.erase_of_find_none hfind, MergedTree.nameCount]
    | some old =>
      have hnot : ¬ old.names i = true := fun hnames => h old hfind (names_iff.mp hnames).1
      rw [MergedTree.nameCount, Assoc.count_erase_of_find hfind, if_neg hnot, Nat.add_zero]
  rw [Assoc.count_put, herase]

lemma putMergedEntry_tables (h : NoFile tree rel)
    (hcounts : ∀ i, tree.fileLinkCounts i = if tree.nameCount i =
      0 then none else some (tree.nameCount i))
    (hsources : ∀ i, (tree.fileSources i).isSome ↔ tree.nameCount i ≠ 0 ∨ entry.names i = true) :
    Tables (putMergedEntry tree rel entry) (putMergedEntry tree rel entry).nameCount := by
  have hcount : (putMergedEntry tree rel entry).nameCount =
      fun i => tree.nameCount i + if entry.names i then 1 else 0 := by
    funext i
    rw [putMergedEntry_eq h, MergedTree.nameCount, countName_entries, nameCount_put h]
  rw [hcount, putMergedEntry_eq h]
  exact countName_tables hcounts hsources

/-- The place of an entry to be put: its parents are directories, no file stands there, and what
lies below it may stay only if the entry is a directory. -/
structure Ready (tree : MergedTree) (rel : Path) (entry : MergedEntry) : Prop where
  normal : NormalPath rel
  parents : ∀ ancestor, ancestor ≠ [] → Below ancestor rel → IsDirectory tree ancestor
  noFile : NoFile tree rel
  children : entry.kind = .directory ∨ ∀ q, Below rel q → tree.entries.find q = none

variable (hready : Ready tree rel entry)

include hready

lemma Ready.put_normal
    (h : ∀ rel entry, tree.entries.find rel = some entry → NormalPath rel) :
    ∀ q e, (putMergedEntry tree rel entry).entries.find q = some e → NormalPath q := by
  intro q e hfind
  rw [putMergedEntry_find hready.noFile] at hfind
  split at hfind
  · next heq => exact heq ▸ hready.normal
  · exact h q e hfind

lemma Ready.put_parents
    (h : ∀ rel entry, tree.entries.find rel = some entry → ∀ ancestor, ancestor ≠ [] →
      Below ancestor rel → IsDirectory tree ancestor) :
    ∀ q e, (putMergedEntry tree rel entry).entries.find q = some e →
      ∀ ancestor, ancestor ≠ [] → Below ancestor q →
        IsDirectory (putMergedEntry tree rel entry) ancestor := by
  intro q e hfind ancestor hne hbelow
  have hdir : IsDirectory tree ancestor := by
    rw [putMergedEntry_find hready.noFile] at hfind
    split at hfind
    · next heq => exact hready.parents ancestor hne (heq ▸ hbelow)
    · exact h q e hfind ancestor hne hbelow
  by_cases heq : ancestor = rel
  · subst heq
    refine ⟨entry, by rw [putMergedEntry_find hready.noFile, if_pos rfl], ?_⟩
    rcases hready.children with hkind | hnone
    · exact hkind
    · -- nothing was left below the new entry
      rw [putMergedEntry_find hready.noFile, if_neg (Ne.symm hbelow.2), hnone q hbelow] at hfind
      cases hfind
  · obtain ⟨dir, hdir, hkind⟩ := hdir
    exact ⟨dir, by rw [putMergedEntry_find hready.noFile, if_neg heq]; exact hdir, hkind⟩

/-- **Puts.** An entry that is no file keeps the invariant in a place that is ready. -/
theorem Invariant.putMergedEntry (h : Invariant tree) (hkind : entry.kind ≠ .file) :
    Invariant (putMergedEntry tree rel entry) := by
  have hold : ∀ {q e}, (Tar.putMergedEntry tree rel entry).entries.find q = some e →
      e.kind = .file → tree.entries.find q = some e := by
    intro q e hfind hfile
    rw [putMergedEntry_find hready.noFile] at hfind
    split at hfind
    · cases hfind
      exact absurd hfile hkind
    · exact hfind
  have hnames : ∀ i, ¬ entry.names i = true := fun i hnames => hkind (names_iff.mp hnames).1
  have htables := putMergedEntry_tables hready.noFile h.linkCounts
    fun i => (h.tables.sources i).trans (or_iff_left (hnames i)).symm
  refine ⟨⟨hready.put_normal h.normal, hready.put_parents h.parents, htables.counts,
    htables.sources_iff, ?_⟩, ?_⟩
  · intro q q' e e' hfind hfind' hfile hfile'
    exact h.shared q q' e e' (hold hfind hfile) (hold hfind' hfile') hfile hfile'
  · intro q e hfind hfile
    rw [putMergedEntry_nextInodeId hready.noFile]
    exact h.fresh q e (hold hfind hfile) hfile

/-- A new file gets an inode that no entry names. -/
theorem Invariant.putNewFile (h : Invariant tree) (hkind : entry.kind = .file)
    (hinode : entry.inodeId = tree.nextInodeId) (source : FileSource) :
    Invariant (Tar.putMergedEntry (storeSource tree source) rel entry) := by
  have hready' : Ready (storeSource tree source) rel entry :=
    ⟨hready.normal, hready.parents, hready.noFile, hready.children⟩
  have hold : ∀ {q e}, (Tar.putMergedEntry (storeSource tree source) rel entry).entries.find q =
      some e → e = entry ∨ tree.entries.find q = some e := by
    intro q e hfind
    rw [putMergedEntry_find hready'.noFile] at hfind
    split at hfind
    · exact .inl (Option.some.inj hfind).symm
    · exact .inr hfind
  have hsources : ∀ i, ((storeSource tree source).fileSources i).isSome ↔
      tree.nameCount i ≠ 0 ∨ entry.names i = true := by
    intro i
    rw [names_iff, hinode, storeSource]
    by_cases hi : i = tree.nextInodeId
    · subst hi
      simp [hkind]
    · simp [Function.update_of_ne hi, h.tables.sources, Ne.symm hi]
  have htables := putMergedEntry_tables hready'.noFile h.linkCounts hsources
  refine ⟨⟨hready'.put_normal h.normal, hready'.put_parents h.parents, htables.counts,
    htables.sources_iff, ?_⟩, ?_⟩
  · intro q q' e e' hq hq' hfile hfile' hsame
    rcases hold hq with he | hfind <;> rcases hold hq' with he' | hfind'
    · rw [he, he']
      exact ⟨rfl, rfl, rfl, rfl⟩
    · -- an old entry does not have the new inode
      have := h.fresh q' e' hfind' hfile'
      rw [← hsame, he, hinode] at this
      exact absurd this (lt_irrefl _)
    · have := h.fresh q e hfind hfile
      rw [hsame, he', hinode] at this
      exact absurd this (lt_irrefl _)
    · exact h.shared q q' e e' hfind hfind' hfile hfile' hsame
  · intro q e hq hfile
    rw [putMergedEntry_nextInodeId hready'.noFile]
    rcases hold hq with he | hfind
    · rw [he, hinode]
      exact Nat.lt_succ_self _
    · exact Nat.lt_succ_of_lt (h.fresh q e hfind hfile)

omit hready

@[simp] lemma normalize_kind (i : ℕ) (owner : Ownership) (attrs : Option (List Attribute))
    (entry : MergedEntry) : (entry.normalize i owner attrs).kind = entry.kind := by
  unfold MergedEntry.normalize
  split <;> rfl

@[simp] lemma normalize_inodeId (i : ℕ) (owner : Ownership) (attrs : Option (List Attribute))
    (entry : MergedEntry) : (entry.normalize i owner attrs).inodeId = entry.inodeId := by
  unfold MergedEntry.normalize
  split <;> rfl

lemma linkMergedEntry_kind {rel q : Path} (h : NoFile tree rel) (target : MergedEntry)
    (owner : Ownership) (attrs : List Attribute) (hq : q ≠ rel) :
    ((linkMergedEntry tree rel target owner attrs).entries.find q).map MergedEntry.kind =
      (tree.entries.find q).map MergedEntry.kind := by
  rw [← putMergedEntry_kind h (linkEntry target owner attrs) hq, linkMergedEntry,
    normalizeMergedHardlinkMetadata, Assoc.find_mapValues, Option.map_map]
  congr 1
  funext entry
  exact normalize_kind _ _ _ entry

lemma normalize_sameMetadata {target entry : MergedEntry} {owner : Ownership}
    {attrs : List Attribute} (hnames : entry.names target.inodeId = true)
    (hmode : entry.mode = target.mode) (hxattrs : attrs = [] → entry.xattrs = target.xattrs) :
    (entry.normalize target.inodeId owner (if attrs = [] then none else some attrs)).SameMetadata
      (linkEntry target owner attrs) := by
  unfold MergedEntry.normalize MergedEntry.SameMetadata linkEntry
  rw [if_pos hnames]
  refine ⟨hmode, rfl, rfl, ?_⟩
  by_cases hattrs : attrs = []
  · simp [hattrs, hxattrs hattrs]
  · simp [hattrs]

lemma MergedEntry.SameMetadata.symm_trans {a b c : MergedEntry} (ha : a.SameMetadata c)
    (hb : b.SameMetadata c) : a.SameMetadata b :=
  ⟨ha.1.trans hb.1.symm, ha.2.1.trans hb.2.1.symm, ha.2.2.1.trans hb.2.2.1.symm,
    ha.2.2.2.trans hb.2.2.2.symm⟩

/-- **Links.** Another name for an inode, with the metadata of all its names brought in line. The
target has to stand somewhere else in the tree. -/
theorem Invariant.linkMergedEntry (h : Invariant tree) {rel linkRel : Path} {target : MergedEntry}
    {owner : Ownership} {attrs : List Attribute}
    (hready : Ready tree rel (linkEntry target owner attrs))
    (htarget : tree.entries.find linkRel = some target) (hkind : target.kind = .file) :
    Invariant (linkMergedEntry tree rel target owner attrs) := by
  have hnamed : tree.nameCount target.inodeId ≠ 0 :=
    nameCount_ne_zero.mpr ⟨linkRel, target, htarget, hkind, rfl⟩
  have hsources : ∀ i, (tree.fileSources i).isSome ↔
      tree.nameCount i ≠ 0 ∨ (linkEntry target owner attrs).names i = true := by
    intro i
    rw [h.tables.sources, names_iff]
    constructor
    · exact .inl
    · rintro (hi | ⟨_, rfl⟩)
      · exact hi
      · exact hnamed
  have htables := putMergedEntry_tables hready.noFile h.linkCounts hsources
  -- an entry of the result is an old one or the new one, normalised
  have hold : ∀ {q e}, (Tar.linkMergedEntry tree rel target owner attrs).entries.find q = some e →
      ∃ f, e = f.normalize target.inodeId owner (if attrs = [] then none else some attrs) ∧
        (Tar.putMergedEntry tree rel (linkEntry target owner attrs)).entries.find q = some f ∧
        (f = linkEntry target owner attrs ∨ tree.entries.find q = some f) := by
    intro q e hfind
    rw [Tar.linkMergedEntry, normalizeMergedHardlinkMetadata, Assoc.find_mapValues,
      Option.map_eq_some_iff] at hfind
    obtain ⟨f, hf, rfl⟩ := hfind
    refine ⟨f, rfl, hf, ?_⟩
    rw [putMergedEntry_find hready.noFile] at hf
    split at hf
    · exact .inl (Option.some.inj hf).symm
    · exact .inr hf
  have hnew : ∀ {q e}, (Tar.linkMergedEntry tree rel target owner attrs).entries.find q = some e →
      e.kind = .file → e.inodeId = target.inodeId →
      e.SameMetadata (linkEntry target owner attrs) := by
    intro q e hfind hfile hinode
    obtain ⟨f, rfl, _, rfl | hf⟩ := hold hfind
    · exact normalize_sameMetadata (names_iff.mpr ⟨rfl, rfl⟩) rfl
        fun hattrs => by simp [linkEntry, hattrs]
    · rw [normalize_kind] at hfile
      rw [normalize_inodeId] at hinode
      have hsame := h.shared q linkRel f target hf htarget hfile hkind hinode
      exact normalize_sameMetadata (names_iff.mpr ⟨hfile, hinode⟩) hsame.1 fun _ => hsame.2.2.2
  have hcount : (Tar.linkMergedEntry tree rel target owner attrs).nameCount =
      (Tar.putMergedEntry tree rel (linkEntry target owner attrs)).nameCount := by
    funext i
    refine Assoc.count_mapValues _ fun e => ?_
    simp [MergedEntry.names]
  have htables' : Tables (Tar.linkMergedEntry tree rel target owner attrs)
      (Tar.linkMergedEntry tree rel target owner attrs).nameCount := by
    rw [hcount]
    exact ⟨htables.counts, htables.sources⟩
  refine ⟨⟨?_, ?_, htables'.counts, htables'.sources_iff, ?_⟩, ?_⟩
  · intro q e hfind
    obtain ⟨f, _, hf, _⟩ := hold hfind
    exact hready.put_normal h.normal q f hf
  · intro q e hfind ancestor hne hbelow
    obtain ⟨f, _, hf, _⟩ := hold hfind
    obtain ⟨dir, hdir, hdirKind⟩ := hready.put_parents h.parents q f hf ancestor hne hbelow
    refine ⟨dir.normalize target.inodeId owner (if attrs = [] then none else some attrs), ?_, ?_⟩
    · rw [Tar.linkMergedEntry, normalizeMergedHardlinkMetadata, Assoc.find_mapValues, hdir]
      rfl
    · rw [normalize_kind, hdirKind]
  · intro q q' e e' hfind hfind' hfile hfile' hsame
    by_cases hinode : e.inodeId = target.inodeId
    · exact (hnew hfind hfile hinode).symm_trans (hnew hfind' hfile' (hsame ▸ hinode))
    · have hkeep : ∀ {q e}, (Tar.linkMergedEntry tree rel target owner attrs).entries.find q =
          some e → e.inodeId ≠ target.inodeId → tree.entries.find q = some e := by
        intro q e hfind hne
        obtain ⟨f, rfl, _, rfl | hf⟩ := hold hfind
        · exact absurd (normalize_inodeId _ _ _ _) hne
        · rw [normalize_inodeId] at hne
          rw [MergedEntry.normalize, if_neg (fun hnames => hne (names_iff.mp hnames).2)]
          exact hf
      exact h.shared q q' e e' (hkeep hfind hinode) (hkeep hfind' (hsame ▸ hinode)) hfile hfile'
        hsame
  · intro q e hfind hfile
    rw [show (Tar.linkMergedEntry tree rel target owner attrs).nextInodeId = tree.nextInodeId from
      putMergedEntry_nextInodeId hready.noFile _]
    obtain ⟨f, rfl, _, rfl | hf⟩ := hold hfind
    · rw [normalize_inodeId]
      exact h.fresh linkRel target htarget hkind
    · rw [normalize_kind] at hfile
      rw [normalize_inodeId]
      exact h.fresh q f hf hfile

end SporeVM.Tar
