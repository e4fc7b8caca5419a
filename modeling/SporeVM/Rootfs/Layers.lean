import SporeVM.Rootfs.TreeInvariant

/-!
# Layers keep the tree well formed

Whatever records the layers hold, a tree that they are applied to without an error stays well
formed. Every put opens its path first: its parents become directories, and no file is left in its
place.
-/

namespace SporeVM.Tar

open Lib (Assoc)
open Lib.Check (bind_ok rejectIf_ok)
open Lib.PathText (Text Plain)
open List

variable {tree : MergedTree} {h : HeaderState} {op : TreeOp}

-- ══ Opening a path

structure Grown (tree tree' : MergedTree) (upTo : Path) : Prop where
  keeps : ∀ q entry, tree.entries.find q = some entry → tree'.entries.find q = some entry
  adds : ∀ q entry, tree'.entries.find q = some entry →
    tree.entries.find q = some entry ∨ (entry = implicitDirectory ∧ q <+: upTo)

lemma Grown.refl (tree : MergedTree) (upTo : Path) : Grown tree tree upTo :=
  ⟨fun _ _ h => h, fun _ _ h => .inl h⟩

lemma Grown.trans {t₁ t₂ t₃ : MergedTree} {upTo upTo' : Path} (h : Grown t₁ t₂ upTo)
    (h' : Grown t₂ t₃ upTo') (hpre : upTo <+: upTo') : Grown t₁ t₃ upTo' where
  keeps q entry hfind := h'.keeps q entry (h.keeps q entry hfind)
  adds q entry hfind := by
    rcases h'.adds q entry hfind with hfind | hnew
    · rcases h.adds q entry hfind with hfind | ⟨heq, hq⟩
      · exact .inl hfind
      · exact .inr ⟨heq, hq.trans hpre⟩
    · exact .inr hnew

variable {tree' : MergedTree}

lemma Grown.isDirectory {upTo q : Path} (h : Grown tree tree' upTo) (hq : IsDirectory tree q) :
    IsDirectory tree' q := by
  obtain ⟨dir, hdir, hkind⟩ := hq
  exact ⟨dir, h.keeps q dir hdir, hkind⟩

lemma ensureDirectory_ok {current : Path} (hok : ensureDirectory tree current = .ok tree')
    (h : Invariant tree) (hnormal : NormalPath current)
    (hparents : ∀ q, q ≠ [] → Below q current → IsDirectory tree q) :
    Invariant tree' ∧ Grown tree tree' current ∧ IsDirectory tree' current := by
  unfold ensureDirectory at hok
  split at hok
  · next entry hfind =>
    split at hok
    · cases hok
    · next hkind =>
      cases hok
      exact ⟨h, Grown.refl _ _, entry, hfind, not_not.mp hkind⟩
  · next hnone =>
    cases hok
    have hnoFile : NoFile tree current := fun entry hfind => by simp [hnone] at hfind
    refine ⟨h.putMergedEntry ⟨hnormal, hparents, hnoFile, .inl rfl⟩ (by decide), ⟨?_, ?_⟩,
      implicitDirectory, by rw [putMergedEntry_find hnoFile, if_pos rfl], rfl⟩
    · intro q entry hfind
      rw [putMergedEntry_find hnoFile, if_neg]
      · exact hfind
      · rintro rfl
        simp [hnone] at hfind
    · intro q entry hfind
      rw [putMergedEntry_find hnoFile] at hfind
      split at hfind
      · next heq => exact .inr ⟨(Option.some.inj hfind).symm, heq ▸ prefix_refl _⟩
      · exact .inl hfind

lemma ensureMergedParentFrom_ok {accum parts : Path}
    (hok : ensureMergedParentFrom tree accum parts = .ok tree') (h : Invariant tree)
    (hnormal : ∀ part ∈ accum ++ parts, Plain part)
    (hwalked : ∀ q, q ≠ [] → q <+: accum → IsDirectory tree q) :
    Invariant tree' ∧ Grown tree tree' (accum ++ parts) ∧
      ∀ q, q ≠ [] → q <+: accum ++ parts → IsDirectory tree' q := by
  induction parts generalizing tree accum with
  | nil =>
    cases hok
    rw [append_nil]
    exact ⟨h, Grown.refl _ _, hwalked⟩
  | cons part rest ih =>
    obtain ⟨tree₁, hstep, hrest⟩ := bind_ok.mp hok
    have happend : accum ++ part :: rest = accum ++ [part] ++ rest := by simp
    have hcurrent : NormalPath (accum ++ [part]) := by
      refine ⟨by simp, fun p hp => hnormal p ?_⟩
      rw [happend]
      exact mem_append_left _ hp
    obtain ⟨h₁, hgrown₁, hdir₁⟩ := ensureDirectory_ok hstep h hcurrent fun q hne hbelow =>
      hwalked q hne (by
        simpa [parentPath] using (below_iff_prefix_parentPath hcurrent.1).mp hbelow)
    rw [happend] at hnormal ⊢
    obtain ⟨h₂, hgrown₂, hdir₂⟩ := ih hrest h₁ hnormal fun q hne hpre => by
      rcases prefix_concat_iff.mp hpre with rfl | hpre
      · exact hdir₁
      · exact hgrown₁.isDirectory (hwalked q hne hpre)
    exact ⟨h₂, hgrown₁.trans hgrown₂ (prefix_append _ _), hdir₂⟩

structure Opened (tree tree' : MergedTree) (rel : Path) (incoming : IncomingEntryKind) : Prop where
  invariant : Invariant tree'
  parents : ∀ q, q ≠ [] → Below q rel → IsDirectory tree' q
  keeps : ∀ q entry, ¬ rel <+: q → tree.entries.find q = some entry →
    tree'.entries.find q = some entry
  adds : ∀ q entry, tree'.entries.find q = some entry →
    tree.entries.find q = some entry ∨ (entry = implicitDirectory ∧ Below q rel)
  place : ∀ entry, tree'.entries.find rel = some entry →
    incoming = .directory ∧ entry.kind = .directory
  children : incoming = .nonDirectory → ∀ q, Below rel q → tree'.entries.find q = none

lemma prepareMergedPath_ok (h : Invariant tree) {rel : Path} (hrel : rel ≠ [])
    (incoming : IncomingEntryKind) : Invariant (prepareMergedPath tree rel incoming) ∧
      (∀ q, ¬ rel <+: q →
        (prepareMergedPath tree rel incoming).entries.find q = tree.entries.find q) ∧
      (∀ q entry, (prepareMergedPath tree rel incoming).entries.find q = some entry →
        tree.entries.find q = some entry) ∧
      (∀ entry, (prepareMergedPath tree rel incoming).entries.find rel = some entry →
        incoming = .directory ∧ entry.kind = .directory) ∧
      (incoming = .nonDirectory → ∀ q, Below rel q →
        (prepareMergedPath tree rel incoming).entries.find q = none) := by
  have hleaf := h.find_below_eq_none hrel
  unfold prepareMergedPath
  split
  · next hnone =>
    refine ⟨h, fun _ _ => rfl, fun _ _ hfind => hfind, ?_, fun _ => hleaf ?_⟩
    · intro entry hfind
      simp [hnone] at hfind
    · rintro ⟨entry, hfind, _⟩
      simp [hnone] at hfind
  · next entry hfind =>
    split
    · next hboth =>
      refine ⟨h, fun _ _ => rfl, fun _ _ hfind => hfind, ?_, fun hother => ?_⟩
      · intro e he
        rw [hfind] at he
        cases he
        exact hboth
      · rw [hboth.1] at hother
        cases hother
    · split
      · next hkind =>
        have hnot : ¬ IsDirectory tree rel := by
          rintro ⟨e, he, hdir⟩
          rw [hfind] at he
          cases he
          exact hkind hdir
        have hremoved : ∀ q, (removeMergedPath tree rel).entries.find q =
            if q = rel then none else tree.entries.find q := by
          intro q
          rw [removeMergedPath_entries, Assoc.find_erase]
        refine ⟨@Invariant.remove _ h [rel] ?_, ?_, ?_, ?_, ?_⟩
        · intro q hq p e he hpre
          rw [mem_singleton] at hq ⊢
          subst hq
          by_contra hne
          simp [hleaf hnot p ⟨hpre, Ne.symm hne⟩] at he
        · intro q hq
          rw [hremoved, if_neg]
          rintro rfl
          exact hq (prefix_refl q)
        · intro q e he
          rw [hremoved] at he
          split at he
          · cases he
          · exact he
        · intro e he
          simp [hremoved] at he
        · intro _ q hbelow
          rw [hremoved, if_neg (Ne.symm hbelow.2)]
          exact hleaf hnot q hbelow
      · next hboth hdir =>
        have hremoved := removeMergedSubtree_find tree rel
        refine ⟨h.removeMergedSubtree rel, ?_, ?_, ?_, ?_⟩
        · intro q hq
          rw [hremoved, if_neg hq]
        · intro q e he
          rw [hremoved] at he
          split at he
          · cases he
          · exact he
        · intro e he
          simp [hremoved] at he
        · intro _ q hbelow
          rw [hremoved, if_pos hbelow.1]

variable {incoming : IncomingEntryKind}

lemma openMergedPath_ok {rel : Path} (hok : openMergedPath tree rel incoming = .ok tree')
    (h : Invariant tree) (hrel : NormalPath rel) : Opened tree tree' rel incoming := by
  obtain ⟨_, _, hok⟩ := bind_ok.mp hok
  obtain ⟨tree₁, hparent, hok⟩ := bind_ok.mp hok
  cases hok
  obtain ⟨h₁, hgrown, hdirs⟩ := ensureMergedParentFrom_ok hparent h
    (fun part hpart => hrel.2 part (mem_of_mem_dropLast (by simpa [parentPath] using hpart)))
    (fun q hne hpre => absurd (prefix_nil.mp hpre) hne)
  obtain ⟨h₂, hkeeps, honly, hplace, hchildren⟩ := prepareMergedPath_ok h₁ hrel.1 incoming
  have hnotPre : ∀ {q}, Below q rel → ¬ rel <+: q := fun hbelow hpre =>
    hbelow.2 (hbelow.1.eq_of_length_le hpre.length_le)
  refine ⟨h₂, ?_, ?_, ?_, hplace, hchildren⟩
  · intro q hne hbelow
    obtain ⟨dir, hdir, hkind⟩ := hdirs q hne ((below_iff_prefix_parentPath hrel.1).mp hbelow)
    exact ⟨dir, (hkeeps q (hnotPre hbelow)).trans hdir, hkind⟩
  · intro q entry hq hfind
    exact (hkeeps q hq).trans (hgrown.keeps q entry hfind)
  · intro q entry hfind
    rcases hgrown.adds q entry (honly q entry hfind) with hold | ⟨hdir, hpre⟩
    · exact .inl hold
    · exact .inr ⟨hdir, (below_iff_prefix_parentPath hrel.1).mpr hpre⟩

lemma Opened.noFile {rel : Path} (h : Opened tree tree' rel incoming) : NoFile tree' rel := by
  intro entry hfind hfile
  rw [(h.place entry hfind).2] at hfile
  cases hfile

lemma Opened.ready {rel : Path} (h : Opened tree tree' rel incoming) (hrel : NormalPath rel)
    {entry : MergedEntry} (hkind : incoming = .directory → entry.kind = .directory) :
    Ready tree' rel entry  where
  normal := hrel
  parents := h.parents
  noFile := h.noFile
  children := by
    cases incoming with
    | directory => exact .inl (hkind rfl)
    | nonDirectory => exact .inr (h.children rfl)

-- ══ Records and layers

def TreeOp.rel : TreeOp → Path
  | .whiteout rel => rel
  | .file rel .. => rel
  | .directory rel .. => rel
  | .symlink rel .. => rel
  | .hardlink rel .. => rel

/-- What a put does to the layer: its path is recorded, the parents of the path are directories,
and all other entries were there before, with their kinds. -/
structure PutStep (s s' : LayerState) (rel : Path) : Prop where
  created : s'.created = recordCreatedPath s.created rel
  parents : ∀ q, q ≠ [] → Below q rel → IsDirectory s'.tree q
  adds : ∀ q entry, s'.tree.entries.find q = some entry → q = rel ∨ Below q rel ∨
    ∃ old, s.tree.entries.find q = some old ∧ old.kind = entry.kind

variable {s s' : LayerState}

lemma Opened.putStep {rel : Path} (h : Opened s.tree tree rel incoming)
    (hcreated : s'.created = recordCreatedPath s.created rel)
    (hkinds : ∀ q, q ≠ rel → (s'.tree.entries.find q).map MergedEntry.kind =
      (tree.entries.find q).map MergedEntry.kind) : PutStep s s' rel where
  created := hcreated
  parents q hne hbelow := by
    obtain ⟨dir, hdir, hkind⟩ := h.parents q hne hbelow
    have hsame := hkinds q hbelow.2
    rw [hdir, Option.map_some, Option.map_eq_some_iff] at hsame
    obtain ⟨dir', hdir', hkind'⟩ := hsame
    exact ⟨dir', hdir', hkind'.trans hkind⟩
  adds q entry hfind := by
    by_cases heq : q = rel
    · exact .inl heq
    · have hsame := hkinds q heq
      rw [hfind, Option.map_some, eq_comm, Option.map_eq_some_iff] at hsame
      obtain ⟨mid, hmid, hkind⟩ := hsame
      rcases h.adds q mid hmid with hold | ⟨_, hbelow⟩
      · exact .inr (.inr ⟨mid, hold, hkind⟩)
      · exact .inr (.inl hbelow)

variable {owner : Ownership}

lemma putMergedDirectory_ok {rel : Path} {mode : ℕ}
    (hok : putMergedDirectory s rel mode owner = .ok s') (h : Invariant s.tree)
    (hrel : NormalPath rel) : Invariant s'.tree ∧ PutStep s s' rel := by
  obtain ⟨tree, hopen, hok⟩ := bind_ok.mp hok
  cases hok
  have hopened := openMergedPath_ok hopen h hrel
  refine ⟨?_, hopened.putStep rfl fun q hq => putMergedEntry_kind hopened.noFile _ hq⟩
  dsimp only
  refine hopened.invariant.putMergedEntry (hopened.ready hrel ?_) ?_
  · exact fun _ => rfl
  · exact fun hfile => by cases hfile

lemma putMergedFile_ok {rel : Path} {source : FileSource} {mode : ℕ} {attrs : List Attribute}
    (hok : putMergedFile s rel source mode owner attrs = .ok s') (h : Invariant s.tree)
    (hrel : NormalPath rel) : Invariant s'.tree ∧ PutStep s s' rel := by
  obtain ⟨tree, hopen, hok⟩ := bind_ok.mp hok
  cases hok
  have hopened := openMergedPath_ok hopen h hrel
  have hnoFile : NoFile (storeSource tree source) rel := hopened.noFile
  refine ⟨?_, hopened.putStep rfl fun q hq => putMergedEntry_kind hnoFile _ hq⟩
  dsimp only
  refine hopened.invariant.putNewFile (hopened.ready hrel ?_) ?_ ?_ source
  · exact fun hdir => by cases hdir
  · rfl
  · rfl

lemma putMergedSymlink_ok {rel : Path} {rawLink : Text}
    (hok : putMergedSymlink s rel rawLink owner = .ok s') (h : Invariant s.tree)
    (hrel : NormalPath rel) : Invariant s'.tree ∧ PutStep s s' rel := by
  obtain ⟨_, _, hok⟩ := bind_ok.mp hok
  obtain ⟨tree, hopen, hok⟩ := bind_ok.mp hok
  cases hok
  have hopened := openMergedPath_ok hopen h hrel
  refine ⟨?_, hopened.putStep rfl fun q hq => putMergedEntry_kind hopened.noFile _ hq⟩
  dsimp only
  refine hopened.invariant.putMergedEntry (hopened.ready hrel ?_) ?_
  · exact fun hdir => by cases hdir
  · exact fun hfile => by cases hfile

lemma hardlinkTarget_ok {linkRel : Path} {target : MergedEntry}
    (hok : hardlinkTarget tree linkRel = .ok target) :
    tree.entries.find linkRel = some target ∧ target.kind = .file := by
  unfold hardlinkTarget at hok
  split at hok
  · cases hok
  · next entry hfind =>
    split at hok
    · cases hok
    · next hkind =>
      cases hok
      exact ⟨hfind, not_not.mp hkind⟩

lemma putMergedHardlink_ok {rel : Path} {rawLink : Text} {attrs : List Attribute}
    (hok : putMergedHardlink s rel rawLink owner attrs = .ok s') (h : Invariant s.tree)
    (hrel : NormalPath rel) : Invariant s'.tree ∧ PutStep s s' rel := by
  obtain ⟨linkRel, _, hok⟩ := bind_ok.mp hok
  obtain ⟨_, hself, hok⟩ := bind_ok.mp hok
  obtain ⟨_, hbelow, hok⟩ := bind_ok.mp hok
  obtain ⟨_, _, hok⟩ := bind_ok.mp hok
  obtain ⟨target, htarget, hok⟩ := bind_ok.mp hok
  obtain ⟨tree, hopen, hok⟩ := bind_ok.mp hok
  cases hok
  rw [rejectIf_ok] at hself hbelow
  rw [isMergedDescendant_iff] at hbelow
  obtain ⟨hfind, hkind⟩ := hardlinkTarget_ok htarget
  have hopened := openMergedPath_ok hopen h hrel
  -- opening the path leaves the target alone, which is neither at nor below it
  have hkept := hopened.keeps linkRel target (fun hpre => hbelow ⟨hpre, hself⟩) hfind
  refine ⟨hopened.invariant.linkMergedEntry (hopened.ready hrel ?_) hkept hkind,
    hopened.putStep rfl fun q hq => linkMergedEntry_kind hopened.noFile _ _ _ hq⟩
  exact fun hdir => by cases hdir

lemma Invariant.applyMergedWhiteout {rel : Path} (hok : applyMergedWhiteout s rel = .ok s')
    (h : Invariant s.tree) : Invariant s'.tree := by
  unfold Tar.applyMergedWhiteout at hok
  split at hok
  · obtain ⟨_, _, hok⟩ := bind_ok.mp hok
    cases hok
    exact h.removeMergedLowerChildren _ _
  · iterate 3 obtain ⟨_, _, hok⟩ := bind_ok.mp hok
    split at hok
    · cases hok
      unfold whiteoutCreated
      split
      · exact h
      · split
        · exact h.removeMergedLowerChildren _ _
        · exact h
    · cases hok
      exact h.removeMergedSubtree _

def TreeOp.putPath : TreeOp → Option Path
  | .whiteout _ => none
  | op => some op.rel

lemma applyOp_put {rel : Path} (hop : op.putPath = some rel) (hok : applyOp s op = .ok s')
    (h : Invariant s.tree) (hrel : NormalPath op.rel) : Invariant s'.tree ∧ PutStep s s' rel := by
  cases op with
  | whiteout rel => cases hop
  | file rel source mode owner attrs =>
    cases hop
    exact putMergedFile_ok hok h hrel
  | directory rel mode owner =>
    cases hop
    exact putMergedDirectory_ok hok h hrel
  | symlink rel rawLink owner =>
    cases hop
    exact putMergedSymlink_ok hok h hrel
  | hardlink rel rawLink owner attrs =>
    cases hop
    exact putMergedHardlink_ok hok h hrel

/-- **One record.** Whatever a record does to the tree keeps the invariant. -/
theorem Invariant.applyOp (h : Invariant s.tree) (hok : applyOp s op = .ok s')
    (hrel : NormalPath op.rel) : Invariant s'.tree := by
  cases hop : op.putPath with
  | none =>
    cases op with
    | whiteout rel => exact Invariant.applyMergedWhiteout hok h
    | file | directory | symlink | hardlink => cases hop
  | some rel => exact (applyOp_put hop hok h hrel).1

variable {layerPath : Text} {record : TarRecord}

lemma putOp_rel {limits : LayerLimits} {rel : Path} {payloadSize : ℕ} {out : LayerLimits × TreeOp}
    (hok : putOp h limits layerPath record rel owner payloadSize = .ok out) : out.2.rel = rel := by
  unfold putOp at hok
  split_ifs at hok
  · iterate 3 obtain ⟨_, _, hok⟩ := bind_ok.mp hok
    cases hok
    rfl
  · iterate 2 obtain ⟨_, _, hok⟩ := bind_ok.mp hok
    cases hok
    rfl
  iterate 2
    · obtain ⟨_, _, hok⟩ := bind_ok.mp hok
      cases hok
      rfl
  · obtain ⟨_, _, hok⟩ := bind_ok.mp hok
    cases hok

lemma pathOp_rel {limits : LayerLimits} {rel : Path} {payloadSize : ℕ}
    {out : LayerLimits × TreeOp} (hok : pathOp h limits layerPath record rel payloadSize = .ok out)
    : out.2.rel = rel := by
  obtain ⟨owner, _, hok⟩ := bind_ok.mp hok
  split_ifs at hok
  · obtain ⟨_, _, hok⟩ := bind_ok.mp hok
    cases hok
    rfl
  · exact putOp_rel hok

lemma entryOp_normal {h' : HeaderState}
    (hok : entryOp h layerPath record = .ok (h', some op)) : NormalPath op.rel := by
  obtain ⟨limits, _, hok⟩ := bind_ok.mp hok
  obtain ⟨_, _, hok⟩ := bind_ok.mp hok
  split at hok
  · split at hok <;> cases hok
  · cases hok
  · next rel hpath =>
    obtain ⟨out, hout, hok⟩ := bind_ok.mp hok
    cases hok
    rw [pathOp_rel hout]
    exact safeTarPath_normal hpath

lemma readRecord_normal {h' : HeaderState}
    (hok : readRecord h layerPath record = .ok (h', some op)) : NormalPath op.rel := by
  unfold readRecord at hok
  split_ifs at hok
  iterate 3
    · iterate 2 obtain ⟨_, _, hok⟩ := bind_ok.mp hok
      cases hok
  · iterate 3 obtain ⟨_, _, hok⟩ := bind_ok.mp hok
    cases hok
  · exact entryOp_normal hok

def layerOps (layerPath : Text) : HeaderState → List TarRecord → Except TarError (List TreeOp)
  | _, [] => .ok []
  | h, record :: records => do
    let next ← readRecord h layerPath record
    let ops ← layerOps layerPath next.1 records
    pure (next.2.toList ++ ops)

lemma layerOps_normal {records : List TarRecord} {ops : List TreeOp}
    (hok : layerOps layerPath h records = .ok ops) : ∀ op ∈ ops, NormalPath op.rel := by
  induction records generalizing h ops with
  | nil =>
    cases hok
    simp
  | cons record records ih =>
    obtain ⟨⟨h', op⟩, hread, hok⟩ := bind_ok.mp hok
    obtain ⟨rest, hrest, hok⟩ := bind_ok.mp hok
    cases hok
    intro op' hmem
    rcases mem_append.mp hmem with hmem | hmem
    · rw [Option.mem_toList] at hmem
      subst hmem
      exact readRecord_normal hread
    · exact ih hrest op' hmem

lemma applyRecords_ok {records : List TarRecord}
    (hok : applyRecords layerPath h s records = .ok s') :
    ∃ ops, layerOps layerPath h records = .ok ops ∧ ops.foldlM applyOp s = .ok s' := by
  induction records generalizing h s with
  | nil =>
    cases hok
    exact ⟨[], rfl, rfl⟩
  | cons record records ih =>
    obtain ⟨⟨h', op⟩, hread, hok⟩ := bind_ok.mp hok
    obtain ⟨s₁, hstep, hok⟩ := bind_ok.mp hok
    obtain ⟨ops, hops, hrun⟩ := ih hok
    refine ⟨op.toList ++ ops, ?_, ?_⟩
    · rw [layerOps, hread]
      show (layerOps layerPath h' records >>= _) = _
      rw [hops]
      rfl
    · cases op with
      | none =>
        cases hstep
        exact hrun
      | some op =>
        exact bind_ok.mpr ⟨s₁, hstep, hrun⟩

lemma Invariant.applyOps {ops : List TreeOp} (hok : ops.foldlM Tar.applyOp s = .ok s')
    (h : Invariant s.tree) (hnormal : ∀ op ∈ ops, NormalPath op.rel) : Invariant s'.tree := by
  induction ops generalizing s with
  | nil =>
    cases hok
    exact h
  | cons op ops ih =>
    obtain ⟨s₁, hstep, hok⟩ := bind_ok.mp hok
    exact ih hok (h.applyOp hstep (hnormal op mem_cons_self))
      fun op' hop' => hnormal op' (mem_cons_of_mem _ hop')

lemma Invariant.applyLayer (h : Invariant tree) {layer : Layer}
    (hok : applyTarRecordsToMergedTree tree layer = .ok tree') : Invariant tree' := by
  obtain ⟨s, hrun, hok⟩ := bind_ok.mp hok
  cases hok
  obtain ⟨ops, hops, hrun⟩ := applyRecords_ok hrun
  exact Invariant.applyOps hrun h (layerOps_normal hops)

lemma Invariant.applyLayers {layers : List Layer}
    (hok : layers.foldlM applyTarRecordsToMergedTree tree = .ok tree') (h : Invariant tree) :
    Invariant tree' := by
  induction layers generalizing tree with
  | nil =>
    cases hok
    exact h
  | cons layer layers ih =>
    obtain ⟨tree₁, hstep, hok⟩ := bind_ok.mp hok
    exact ih hok (h.applyLayer hstep)

/-- **Well-formed trees.** Any sequence of layers that is applied without an error, starting from
the empty tree, leaves a well-formed tree. -/
theorem layers_wellFormed {layers : List Layer} {tree : MergedTree}
    (hok : layers.foldlM applyTarRecordsToMergedTree .init = .ok tree) : WellFormed tree :=
  (Invariant.applyLayers hok Invariant.init).toWellFormed

def plainRecord (kind : Char) (name linkName : String) : TarRecord where
  kind := kind
  size := 0
  payloadOffset := 512
  name := name.toList
  linkName := linkName.toList
  mode := .ok 0o644
  uid := .ok 0
  gid := .ok 0
  text := .error .badTarHeader
  pax _ := .error .badPaxHeader

def linkedLayer : Layer where
  path := "layer.tar".toList
  records := [plainRecord '0' "a/b" "", plainRecord '1' "c" "a/b"]

theorem layers_wellFormed_linkedLayer : ∃ tree,
    [linkedLayer].foldlM applyTarRecordsToMergedTree .init = .ok tree ∧ WellFormed tree :=
  ⟨_, rfl, @layers_wellFormed [linkedLayer] _ rfl⟩

end SporeVM.Tar
