import SporeVM.Rootfs.Layers

/-!
# What whiteouts take away

A whiteout record hides a path of the layers below and everything under it, an opaque record hides
everything under its directory. The records of a layer may come in any order: a whiteout takes away
what the layers below have put, and never what its own layer has put.

The layer remembers the paths it has put. A whiteout removes exactly the hidden paths at and below
which nothing has been put (`applyMergedWhiteout_find`); after that, whatever stands in the hidden
region has been put by the layer, or lies above something that has, and later records keep that.
-/

namespace SporeVM.Tar

open Lib.Check (bind_ok)
open List

variable {q : Path} {created : List Path} {op : TreeOp}

def Hides (rel q : Path) : Prop :=
  if baseName rel = opaqueName then Below (parentPath rel) q else whiteoutTarget rel <+: q

instance decidableHides (rel q : Path) : Decidable (Hides rel q) := by
  unfold Hides
  infer_instance

def putPaths (ops : List TreeOp) : List Path := ops.filterMap TreeOp.putPath

-- ══ One whiteout

lemma createdAtOrBelow_above {p : Path} (hpre : q <+: p) (h : createdAtOrBelow created p = true) :
    createdAtOrBelow created q = true := by
  obtain ⟨c, hc, hpc⟩ := createdAtOrBelow_iff.mp h
  exact createdAtOrBelow_iff.mpr ⟨c, hc, hpre.trans hpc⟩

variable {rel : Path}

lemma removeCreatedSubtree_eq (h : createdAtOrBelow created rel = false) :
    removeCreatedSubtree created rel = created := by
  refine filter_eq_self.mpr fun key hkey => ?_
  rw [Bool.not_eq_true', Bool.eq_false_iff]
  intro hpre
  rw [Bool.eq_false_iff] at h
  exact h (createdAtOrBelow_iff.mpr ⟨key, hkey, isPrefixOf_iff_prefix.mp hpre⟩)

variable {s : LayerState}

lemma whiteoutCreated_find {target : Path} (h : Invariant s.tree) (htarget : target ≠ [])
    (hcreated : createdAtOrBelow s.created target = true) (q : Path) :
    (whiteoutCreated s target).tree.entries.find q =
      if target <+: q ∧ createdAtOrBelow s.created q = false then none
      else s.tree.entries.find q := by
  have hleaf : ¬ IsDirectory s.tree target →
      s.tree.entries.find q =
        if target <+: q ∧ createdAtOrBelow s.created q = false then none
        else s.tree.entries.find q := by
    intro hnot
    split
    · next hboth =>
      refine h.find_below_eq_none htarget hnot q ⟨hboth.1, ?_⟩
      rintro rfl
      rw [hcreated] at hboth
      cases hboth.2
    · rfl
  unfold whiteoutCreated
  split
  · next hnone =>
    refine hleaf ?_
    rintro ⟨entry, hfind, _⟩
    simp [hnone] at hfind
  · next entry hfind =>
    split
    · rw [removeMergedLowerChildren_find]
      have hiff : Below target q ∧ createdAtOrBelow s.created q = false ↔
          target <+: q ∧ createdAtOrBelow s.created q = false := by
        refine and_congr_left fun hq => ⟨fun hbelow => hbelow.1, fun hpre => ⟨hpre, ?_⟩⟩
        rintro rfl
        rw [hcreated] at hq
        cases hq
      simp only [hiff]
    · next hkind =>
      refine hleaf ?_
      rintro ⟨e, he, hdir⟩
      rw [hfind] at he
      cases he
      exact hkind hdir

lemma whiteoutCreated_created (s : LayerState) (target : Path) :
    (whiteoutCreated s target).created = s.created := by
  unfold whiteoutCreated
  split
  · rfl
  · split <;> rfl

variable {s' : LayerState}

/-- **One whiteout.** Exactly the hidden paths go at and below which the layer has put nothing, and
the layer remembers the same paths as before. -/
theorem applyMergedWhiteout_find (hok : applyMergedWhiteout s rel = .ok s')
    (h : Invariant s.tree) : s'.created = s.created ∧ ∀ q, s'.tree.entries.find q =
      if Hides rel q ∧ createdAtOrBelow s.created q = false then none
      else s.tree.entries.find q := by
  unfold applyMergedWhiteout at hok
  unfold Hides
  split at hok
  · next hopaque =>
    obtain ⟨_, _, hok⟩ := bind_ok.mp hok
    cases hok
    refine ⟨rfl, fun q => ?_⟩
    simp only [if_pos hopaque]
    exact removeMergedLowerChildren_find _ _ _ q
  · next hopaque =>
    simp only [if_neg hopaque]
    iterate 3 obtain ⟨_, _, hok⟩ := bind_ok.mp hok
    split at hok
    · next hcreated =>
      cases hok
      exact ⟨whiteoutCreated_created _ _,
        whiteoutCreated_find h (by simp [whiteoutTarget]) hcreated⟩
    · next hcreated =>
      cases hok
      rw [Bool.not_eq_true] at hcreated
      refine ⟨removeCreatedSubtree_eq hcreated, fun q => ?_⟩
      rw [removeMergedSubtree_find]
      have hiff : whiteoutTarget rel <+: q ∧ createdAtOrBelow s.created q = false ↔
          whiteoutTarget rel <+: q := by
        refine and_iff_left_of_imp fun hpre => ?_
        rw [Bool.eq_false_iff] at hcreated ⊢
        exact fun hq => hcreated (createdAtOrBelow_above hpre hq)
      simp only [hiff]

lemma applyMergedWhiteout_keeps (hok : applyMergedWhiteout s rel = .ok s')
    (h : Invariant s.tree) (hq : createdAtOrBelow s.created q = true) :
    s'.tree.entries.find q = s.tree.entries.find q := by
  rw [(applyMergedWhiteout_find hok h).2, if_neg]
  rintro ⟨_, hnot⟩
  rw [hq] at hnot
  cases hnot

-- ══ What the records of a layer preserve

def Covered (region : Path → Prop) (s : LayerState) : Prop :=
  ∀ q entry, s.tree.entries.find q = some entry → region q →
    createdAtOrBelow s.created q = true

def FilesPut (s : LayerState) : Prop :=
  ∀ c ∈ s.created, ∀ q entry, Below q c → s.tree.entries.find q = some entry →
    entry.kind ≠ .directory → q ∈ s.created

lemma mem_recordCreatedPath : q ∈ recordCreatedPath created rel ↔ q ∈ created ∨ q = rel := by
  unfold recordCreatedPath
  split
  · next hmem =>
    refine ⟨.inl, ?_⟩
    rintro (h | rfl)
    · exact h
    · exact hmem
  · simp

lemma applyOp_created (hok : applyOp s op = .ok s') (h : Invariant s.tree)
    (hrel : NormalPath op.rel) (q : Path) :
    q ∈ s'.created ↔ q ∈ s.created ∨ op.putPath = some q := by
  cases hop : op.putPath with
  | none =>
    cases op with
    | whiteout rel => simp [(applyMergedWhiteout_find hok h).1]
    | file | directory | symlink | hardlink => cases hop
  | some rel =>
    rw [(applyOp_put hop hok h hrel).2.created, mem_recordCreatedPath, Option.some.injEq,
      eq_comm (a := q)]

lemma applyOp_adds (hok : applyOp s op = .ok s') (h : Invariant s.tree) (hrel : NormalPath op.rel)
    {entry : MergedEntry} (hfind : s'.tree.entries.find q = some entry) :
    (∃ rel ∈ s'.created, op.putPath = some rel ∧ q <+: rel) ∨
      ∃ old, s.tree.entries.find q = some old ∧ old.kind = entry.kind := by
  cases hop : op.putPath with
  | none =>
    cases op with
    | whiteout rel =>
      rw [(applyMergedWhiteout_find hok h).2] at hfind
      split at hfind
      · cases hfind
      · exact .inr ⟨entry, hfind, rfl⟩
    | file | directory | symlink | hardlink => cases hop
  | some rel =>
    have hmem := (applyOp_created hok h hrel rel).mpr (.inr hop)
    rcases (applyOp_put hop hok h hrel).2.adds q entry hfind with rfl | hbelow | hold
    · exact .inl ⟨q, hmem, rfl, prefix_refl q⟩
    · exact .inl ⟨rel, hmem, rfl, hbelow.1⟩
    · exact .inr hold

lemma createdAtOrBelow_mono {created' : List Path} (hsub : created ⊆ created')
    (h : createdAtOrBelow created q = true) : createdAtOrBelow created' q = true := by
  obtain ⟨c, hc, hpre⟩ := createdAtOrBelow_iff.mp h
  exact createdAtOrBelow_iff.mpr ⟨c, hsub hc, hpre⟩

lemma Covered.applyOp {region : Path → Prop} (hcovered : Covered region s)
    (hok : applyOp s op = .ok s') (h : Invariant s.tree) (hrel : NormalPath op.rel) :
    Covered region s' := by
  intro q entry hfind hregion
  rcases applyOp_adds hok h hrel hfind with ⟨rel, hmem, _, hpre⟩ | ⟨old, hold, _⟩
  · exact createdAtOrBelow_iff.mpr ⟨rel, hmem, hpre⟩
  · exact createdAtOrBelow_mono (fun c hc => (applyOp_created hok h hrel c).mpr (.inl hc))
      (hcovered q old hold hregion)

lemma covered_of_whiteout (hok : applyMergedWhiteout s rel = .ok s')
    (h : Invariant s.tree) : Covered (Hides rel) s' := by
  obtain ⟨hcreated, hall⟩ := applyMergedWhiteout_find hok h
  intro q entry hfind hhides
  rw [hall] at hfind
  split at hfind
  · cases hfind
  · next hnot =>
    rw [hcreated, ← Bool.not_eq_false]
    exact fun hfalse => hnot ⟨hhides, hfalse⟩

lemma FilesPut.applyOp (hput : FilesPut s) (hok : applyOp s op = .ok s') (h : Invariant s.tree)
    (hrel : NormalPath op.rel) : FilesPut s' := by
  have hcreated := applyOp_created hok h hrel
  have hne : ∀ {q entry}, s'.tree.entries.find q = some entry → q ≠ [] := fun hfind =>
    ((h.applyOp hok hrel).normal _ _ hfind).1
  -- what is no directory does not lie above the new path
  have hfile : ∀ {q entry rel}, s'.tree.entries.find q = some entry → entry.kind ≠ .directory →
      op.putPath = some rel → ¬ Below q rel := by
    intro q entry rel hfind hkind hop hbelow
    obtain ⟨dir, hdir, hdirKind⟩ := (applyOp_put hop hok h hrel).2.parents q (hne hfind) hbelow
    rw [hfind] at hdir
    cases hdir
    exact hkind hdirKind
  intro c hc q entry hbelow hfind hkind
  rcases applyOp_adds hok h hrel hfind with ⟨rel, hmem, hop, hpre⟩ | ⟨old, hold, hsame⟩
  · by_cases heq : q = rel
    · exact heq ▸ hmem
    · exact absurd ⟨hpre, heq⟩ (hfile hfind hkind hop)
  · rcases (hcreated c).mp hc with hc | hop
    · exact (hcreated q).mpr (.inl (hput c hc q old hbelow hold (hsame ▸ hkind)))
    · exact absurd hbelow (hfile hfind hkind hop)

section Run

variable {ops : List TreeOp} {s s' : LayerState}

lemma applyOps_created (hok : ops.foldlM applyOp s = .ok s') (h : Invariant s.tree)
    (hnormal : ∀ op ∈ ops, NormalPath op.rel) (q : Path) :
    q ∈ s'.created ↔ q ∈ s.created ∨ q ∈ putPaths ops := by
  induction ops generalizing s with
  | nil =>
    cases hok
    simp [putPaths]
  | cons op ops ih =>
    obtain ⟨s₁, hstep, hok⟩ := bind_ok.mp hok
    have hrel := hnormal op mem_cons_self
    rw [ih hok (h.applyOp hstep hrel) fun op' hop' => hnormal op' (mem_cons_of_mem _ hop'),
      applyOp_created hstep h hrel, or_assoc]
    rw [putPaths, putPaths, filterMap_cons]
    cases op.putPath <;> simp [eq_comm]

lemma Covered.applyOps {region : Path → Prop} (hcovered : Covered region s)
    (hok : ops.foldlM Tar.applyOp s = .ok s') (h : Invariant s.tree)
    (hnormal : ∀ op ∈ ops, NormalPath op.rel) : Covered region s' := by
  induction ops generalizing s with
  | nil =>
    cases hok
    exact hcovered
  | cons op ops ih =>
    obtain ⟨s₁, hstep, hok⟩ := bind_ok.mp hok
    have hrel := hnormal op mem_cons_self
    exact ih (hcovered.applyOp hstep h hrel) hok (h.applyOp hstep hrel)
      fun op' hop' => hnormal op' (mem_cons_of_mem _ hop')

lemma FilesPut.applyOps (hput : FilesPut s) (hok : ops.foldlM Tar.applyOp s = .ok s')
    (h : Invariant s.tree) (hnormal : ∀ op ∈ ops, NormalPath op.rel) : FilesPut s' := by
  induction ops generalizing s with
  | nil =>
    cases hok
    exact hput
  | cons op ops ih =>
    obtain ⟨s₁, hstep, hok⟩ := bind_ok.mp hok
    have hrel := hnormal op mem_cons_self
    exact ih (hput.applyOp hstep h hrel) hok (h.applyOp hstep hrel)
      fun op' hop' => hnormal op' (mem_cons_of_mem _ hop')

lemma applyOps_append {before after : List TreeOp}
    (hok : (before ++ after).foldlM applyOp s = .ok s') :
    ∃ mid, before.foldlM applyOp s = .ok mid ∧ after.foldlM applyOp mid = .ok s' := by
  rw [foldlM_append] at hok
  exact bind_ok.mp hok

end Run

-- ══ Whole layers

def LayerState.start (tree : MergedTree) : LayerState := { tree, created := [] }

lemma applyOps_around {before after : List TreeOp}
    (hok : (before ++ .whiteout rel :: after).foldlM applyOp s = .ok s') :
    ∃ s₁ s₂, before.foldlM applyOp s = .ok s₁ ∧ applyMergedWhiteout s₁ rel = .ok s₂ ∧
      after.foldlM applyOp s₂ = .ok s' := by
  obtain ⟨s₁, hbefore, hok⟩ := applyOps_append hok
  obtain ⟨s₂, hstep, hafter⟩ := bind_ok.mp hok
  exact ⟨s₁, s₂, hbefore, hstep, hafter⟩

lemma covered_at_end {ops : List TreeOp} {lower : MergedTree}
    (hok : ops.foldlM applyOp (.start lower) = .ok s) (h : Invariant lower)
    (hnormal : ∀ op ∈ ops, NormalPath op.rel) (hmem : .whiteout rel ∈ ops) :
    Covered (Hides rel) s := by
  obtain ⟨before, after, rfl⟩ := append_of_mem hmem
  obtain ⟨s₁, s₂, hbefore, hstep, hafter⟩ := applyOps_around hok
  have h₁ : Invariant s₁.tree :=
    Invariant.applyOps hbefore h fun op hop => hnormal op (mem_append_left _ hop)
  refine (covered_of_whiteout hstep h₁).applyOps hafter (Invariant.applyMergedWhiteout hstep h₁) ?_
  intro op hop
  exact hnormal op (mem_append_right _ (mem_cons_of_mem _ hop))

def opaqueLayer : Layer where
  path := "opaque.tar".toList
  records := [plainRecord '0' "a/d" "", plainRecord '0' "a/.wh..wh..opq" ""]

end SporeVM.Tar
