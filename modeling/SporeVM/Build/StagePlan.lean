import SporeVM.Lib.Marking
import SporeVM.Build.Dockerfile

/-!
# The stages a build needs

`build/plan.zig` resolves what the stages of a file refer to before anything is fetched: the image a
stage is built from and the sources of its copies are earlier stages, by name or for a copy also by
number, or images from elsewhere. The stages that the target needs are planned in the order of the
file.

Allocation does not fail here. A stage that does not begin with a `FROM` cannot come from the
parser; reading it would be a trap, which stands as an error.
-/

namespace SporeVM.StagePlan

open Lib.PathText (Text)
open Lib.Check (rejectIf bind_ok seq_ok rejectIf_ok mapM_ok forM_ok)
open Dockerfile (Diagnostic Document Instruction asciiEql fail)
open Variables (Variable)
open List hiding le_antisymm lt_irrefl not_lt

inductive Base
  | scratch
  | stage (index : ℕ)
  | external (name : Text)
  deriving DecidableEq

inductive CopySource
  | context
  | stage (index : ℕ)
  | external (name : Text)
  deriving DecidableEq

structure PlannedCopy where
  instructionIndex : ℕ
  source : CopySource
  deriving DecidableEq

structure Stage where
  source : Dockerfile.Stage
  base : Base
  platform : Option Text
  copies : List PlannedCopy
  dependencies : List ℕ
  reachable : Bool := false
  deriving DecidableEq

structure Plan where
  stages : List Stage
  targetIndex : ℕ
  order : List ℕ
  deriving DecidableEq

structure Options where
  target : Option Text := none
  vars : List Variable := []

inductive ReferenceKind
  | image | copy
  deriving DecidableEq

-- ══ References

def maxUsize : ℕ := 2 ^ 64 - 1

def parseStageIndex (reference : Text) : Option ℕ :=
  if reference = [] ∨ reference.any (fun c => !c.isDigit) = true then none
  else
    let n := reference.foldl (fun n c => 10 * n + (c.toNat - '0'.toNat)) 0
    if n ≤ maxUsize then some n else none

def hasName (name : Text) (stage : Dockerfile.Stage) : Bool :=
  stage.name.any fun candidate => asciiEql candidate name

def findNamedStage (stages : List Dockerfile.Stage) (name : Text) : Option ℕ :=
  stages.findIdx? (hasName name)

def findStageReference (stages : List Dockerfile.Stage) (limit : ℕ) (reference : Text) : Option ℕ :=
  match (parseStageIndex reference).filter (· < limit) with
  | some index => some index
  | none => findNamedStage (stages.take limit) reference

def resolveStageReference (stages : List Dockerfile.Stage) (before : ℕ) (reference : Text)
    (kind : ReferenceKind) (line : ℕ) : Except Diagnostic (Option ℕ) :=
  match parseStageIndex reference with
  | some index =>
    if kind = .image then .ok none
    else if index < before then .ok (some index)
    else if index < stages.length then fail line "stage reference must name an earlier stage"
    else fail line "invalid stage index"
  | none =>
    match findNamedStage (stages.take before) reference with
    | some index => .ok (some index)
    | none =>
      if (findNamedStage (stages.drop before) reference).isSome then
        fail line "stage reference must name an earlier stage"
      else .ok none

def appendDependency (dependencies : List ℕ) (dependency : ℕ) : List ℕ :=
  if dependency ∈ dependencies then dependencies else dependencies ++ [dependency]

-- ══ Planning a stage

def expand (input : Text) (vars : List Variable) (escape : Char) (line : ℕ) :
    Except Diagnostic Text :=
  match Variables.expand input vars { escape } with
  | .ok text => .ok text
  | .error .variableExpansionTooLarge => fail line "expanded Dockerfile argument is too large"
  | .error _ => fail line "unsupported variable expansion"

def imageOf (stage : Dockerfile.Stage) : Except Diagnostic Dockerfile.From :=
  match stage.image.value with
  | .fromImage image => .ok image
  | _ => fail stage.image.line "access of inactive union field"

def planPlatform (vars : List Variable) (escape : Char) (line : ℕ) :
    Option Text → Except Diagnostic (Option Text)
  | none => .ok none
  | some raw => (expand raw vars escape line).map some

def Base.ofResolved (sourceName : Text) : Option ℕ → Base
  | some dependency => .stage dependency
  | none => .external sourceName

def planBase (stages : List Dockerfile.Stage) (stageIndex : ℕ) (sourceName : Text) (line : ℕ) :
    Except Diagnostic Base :=
  if asciiEql sourceName "scratch".toList = true then .ok .scratch
  else (resolveStageReference stages stageIndex sourceName .image line).map
    (Base.ofResolved sourceName)

def Base.dependencies : Base → List ℕ
  | stage dependency => appendDependency [] dependency
  | _ => []

structure Planned where
  copies : List PlannedCopy
  dependencies : List ℕ

def Planned.addCopy (planned : Planned) (instructionIndex : ℕ) (source : CopySource) : Planned :=
  { planned with copies := planned.copies ++ [⟨instructionIndex, source⟩] }

def Planned.addResolved (planned : Planned) (instructionIndex : ℕ) (reference : Text) :
    Option ℕ → Planned
  | some dependency =>
    { planned with dependencies := appendDependency planned.dependencies dependency }.addCopy
      instructionIndex (.stage dependency)
  | none => planned.addCopy instructionIndex (.external reference)

def planInstruction (stages : List Dockerfile.Stage) (stageIndex : ℕ) (planned : Planned)
    (entry : Instruction × ℕ) : Except Diagnostic Planned :=
  match entry.1.value with
  | .copy copy =>
    match copy.fromSource with
    | none => .ok (planned.addCopy entry.2 .context)
    | some reference =>
      (resolveStageReference stages stageIndex reference .copy entry.1.line).map
        (planned.addResolved entry.2 reference)
  | _ => .ok planned

def planStage (document : Document) (vars : List Variable) (entry : Dockerfile.Stage × ℕ) :
    Except Diagnostic Stage := do
  let line := entry.1.image.line
  let image ← imageOf entry.1
  let sourceName ← expand image.source vars document.directives.escape line
  let platform ← planPlatform vars document.directives.escape line image.platform
  let base ← planBase document.stages entry.2 sourceName line
  let planned ← entry.1.instructions.zipIdx.foldlM (planInstruction document.stages entry.2)
    ⟨[], base.dependencies⟩
  pure
    { source := entry.1
      base
      platform
      copies := planned.copies
      dependencies := planned.dependencies }

-- ══ The plan

def dependenciesOf (stages : List Stage) (index : ℕ) : List ℕ :=
  (stages[index]?.map Stage.dependencies).getD []

def markReachable (stages : List Stage) (index : ℕ) : ℕ → Bool :=
  Lib.mark (dependenciesOf stages) stages.length (fun _ => false) index

def checkName (stages : List Dockerfile.Stage) (entry : Dockerfile.Stage × ℕ) :
    Except Diagnostic Unit :=
  match entry.1.name with
  | none => .ok ()
  | some name =>
    rejectIf ((findNamedStage (stages.take entry.2) name).isSome = true)
      ⟨entry.1.image.line, "duplicate stage name"⟩

def findTarget (stages : List Dockerfile.Stage) : Option Text → Except Diagnostic ℕ
  | none => .ok (stages.length - 1)
  | some target =>
    match findStageReference stages stages.length target with
    | some index => .ok index
    | none => fail 0 ("unknown build target: " ++ String.ofList target)

def create (document : Document) (options : Options) : Except Diagnostic Plan := do
  rejectIf (document.stages = []) ⟨1, "Dockerfile requires at least one FROM instruction"⟩
  document.stages.zipIdx.forM (checkName document.stages)
  let targetIndex ← findTarget document.stages options.target
  let stages ← document.stages.zipIdx.mapM (planStage document options.vars)
  let reachable := markReachable stages targetIndex
  pure
    { stages := stages.mapIdx fun index stage => { stage with reachable := reachable index }
      targetIndex
      order := (range stages.length).filter reachable }

-- ══ What the stages of a file refer to

/-- The stage with this number has the name. -/
def Named (stages : List Dockerfile.Stage) (name : Text) (index : ℕ) : Prop :=
  ∃ stage, stages[index]? = some stage ∧ hasName name stage = true

/-- The stage that a build is for: the last one unless a target is given, and else the one with the
number or, if there is none, with the name that the target gives. -/
def Targets (stages : List Dockerfile.Stage) : Option Text → ℕ → Prop
  | none, index => index + 1 = stages.length
  | some target, index =>
    (parseStageIndex target = some index ∧ index < stages.length) ∨
      ((∀ n, parseStageIndex target = some n → stages.length ≤ n) ∧ Named stages target index)

/-- The stage with this number, for a copy, or with this name. -/
def Means (stages : List Dockerfile.Stage) (kind : ReferenceKind) (reference : Text) (index : ℕ) :
    Prop :=
  (kind = .copy ∧ parseStageIndex reference = some index) ∨
    (parseStageIndex reference = none ∧ Named stages reference index)

/-- The image of the stage is the stage with this number. -/
def BuiltFrom (document : Document) (vars : List Variable) (stage : Dockerfile.Stage)
    (index : ℕ) : Prop :=
  ∃ image name, stage.image.value = .fromImage image ∧
    Variables.expand image.source vars { escape := document.directives.escape } = .ok name ∧
    asciiEql name "scratch".toList = false ∧ Means document.stages .image name index

def CopiesFrom (document : Document) (instruction : Instruction) (index : ℕ) : Prop :=
  ∃ copy reference, instruction.value = .copy copy ∧ copy.fromSource = some reference ∧
    Means document.stages .copy reference index

/-- The stage is built from another stage or copies from it. -/
def RefersTo (document : Document) (vars : List Variable) (i j : ℕ) : Prop :=
  ∃ stage, document.stages[i]? = some stage ∧
    (BuiltFrom document vars stage j ∨
      ∃ instruction ∈ stage.instructions, CopiesFrom document instruction j)

-- ══ Names

variable {stage : Dockerfile.Stage}

section Names

variable {stages : List Dockerfile.Stage} {name : Text}

lemma findNamedStage_some {index : ℕ} (h : findNamedStage stages name = some index) :
    Named stages name index := by
  obtain ⟨hlt, hname, -⟩ := findIdx?_eq_some_iff_getElem.mp h
  exact ⟨_, List.getElem?_eq_getElem hlt, hname⟩

lemma findNamedStage_none (h : findNamedStage stages name = none) (index : ℕ) :
    ¬ Named stages name index := by
  rintro ⟨stage, hstage, hname⟩
  have hmiss := findIdx?_eq_none_iff.mp h stage (mem_of_getElem? hstage)
  rw [hname] at hmiss
  cases hmiss

def Distinct (stages : List Dockerfile.Stage) : Prop :=
  ∀ name i j, Named stages name i → Named stages name j → i = j

lemma hasName_name {own : Text} (h : stage.name = some own) :
    hasName name stage = true ↔ own.map Char.toLower = name.map Char.toLower := by
  rw [hasName, h]
  exact decide_eq_true_iff

lemma exists_name (h : hasName name stage = true) : ∃ own, stage.name = some own := by
  cases hown : stage.name with
  | none =>
    rw [hasName, hown] at h
    cases h
  | some own => exact ⟨own, rfl⟩

lemma distinct_of_checkNames (h : stages.zipIdx.forM (checkName stages) = .ok ()) :
    Distinct stages := by
  -- The check of a stage looks at the stages in front of it.
  have hbefore : ∀ name i j, Named stages name i → Named stages name j → ¬ i < j := by
    rintro name i j ⟨first, hfirst, hname⟩ ⟨second, hsecond, hname'⟩ hlt
    obtain ⟨own, hown⟩ := exists_name hname'
    have hcheck := forM_ok.mp h (second, j) (List.mk_mem_zipIdx_iff_getElem?.mpr hsecond)
    rw [checkName, hown] at hcheck
    have hnone : findNamedStage (stages.take j) own = none := by
      simpa using rejectIf_ok.mp hcheck
    refine findNamedStage_none hnone i ⟨first, ?_, ?_⟩
    · rw [List.getElem?_take_of_lt hlt]
      exact hfirst
    · obtain ⟨other, hother⟩ := exists_name hname
      rw [hasName_name hother] at hname ⊢
      rw [hname, (hasName_name hown).mp hname']
  intro name i j hi hj
  exact le_antisymm (not_lt.mp (hbefore name j i hj hi)) (not_lt.mp (hbefore name i j hi hj))

/-- A resolved reference is the stage it means, and that stands in front. -/
theorem resolveStageReference_ok {before line : ℕ} {kind : ReferenceKind} {reference : Text}
    {resolved : Option ℕ} (hdistinct : Distinct stages)
    (h : resolveStageReference stages before reference kind line = .ok resolved) (index : ℕ) :
    (resolved = some index ↔ Means stages kind reference index) ∧
      (resolved = some index → index < before) := by
  unfold resolveStageReference at h
  cases hnumber : parseStageIndex reference with
  | some number =>
    simp only [hnumber] at h
    by_cases hkind : kind = .image
    · rw [if_pos hkind] at h
      cases h
      simp [Means, hkind, hnumber]
    · have hcopy : kind = .copy := by
        cases kind
        · exact absurd rfl hkind
        · rfl
      by_cases hlt : number < before
      · rw [if_neg hkind, if_pos hlt] at h
        cases h
        constructor
        · simp [Means, hcopy, hnumber]
        · rintro ⟨⟩
          exact hlt
      · rw [if_neg hkind, if_neg hlt] at h
        split at h <;> cases h
  | none =>
    simp only [hnumber] at h
    have hmeans : Means stages kind reference index ↔ Named stages reference index := by
      simp [Means, hnumber]
    cases hfound : findNamedStage (stages.take before) reference with
    | some found =>
      simp only [hfound] at h
      cases h
      obtain ⟨stage, hstage, hname⟩ := findNamedStage_some hfound
      obtain ⟨hget, hlt⟩ : stages[found]? = some stage ∧ found < before := by
        rw [List.getElem?_take] at hstage
        split at hstage
        · next hlt => exact ⟨hstage, hlt⟩
        · cases hstage
      rw [hmeans]
      refine ⟨⟨?_, fun hnamed => ?_⟩, ?_⟩
      · rintro ⟨⟩
        exact ⟨stage, hget, hname⟩
      · rw [hdistinct reference found index ⟨stage, hget, hname⟩ hnamed]
      · rintro ⟨⟩
        exact hlt
    | none =>
      simp only [hfound] at h
      by_cases hlater : (findNamedStage (stages.drop before) reference).isSome = true
      · rw [if_pos hlater] at h
        cases h
      · rw [if_neg hlater] at h
        cases h
        have hmissing : ¬ Named stages reference index := by
          rintro ⟨stage, hstage, hname⟩
          by_cases hlt : index < before
          · refine findNamedStage_none hfound index ⟨stage, ?_, hname⟩
            rw [List.getElem?_take_of_lt hlt]
            exact hstage
          · refine findNamedStage_none (by simpa using hlater) (index - before) ⟨stage, ?_, hname⟩
            rw [List.getElem?_drop, Nat.add_sub_cancel' (not_lt.mp hlt)]
            exact hstage
        simp [hmeans, hmissing]

end Names

-- ══ The dependencies of a stage

@[simp] lemma mem_appendDependency {dependencies : List ℕ} {dependency index : ℕ} :
    index ∈ appendDependency dependencies dependency ↔
      index ∈ dependencies ∨ dependency = index := by
  unfold appendDependency
  split
  · next hmem =>
    refine ⟨.inl, fun h => h.elim id ?_⟩
    rintro rfl
    exact hmem
  · rw [mem_append, mem_singleton, eq_comm]

section Dependencies

variable {document : Document} {vars : List Variable} {stageIndex : ℕ}
  (hdistinct : Distinct document.stages)

include hdistinct

lemma planBase_ok {image : Dockerfile.From} {name : Text} {line : ℕ}
    {base : Base} (himage : stage.image.value = .fromImage image)
    (hname : Variables.expand image.source vars { escape := document.directives.escape } =
      .ok name)
    (h : planBase document.stages stageIndex name line = .ok base) (index : ℕ) :
    (index ∈ base.dependencies ↔ BuiltFrom document vars stage index) ∧
      (index ∈ base.dependencies → index < stageIndex) := by
  have hbuilt : BuiltFrom document vars stage index ↔
      asciiEql name "scratch".toList = false ∧ Means document.stages .image name index := by
    constructor
    · rintro ⟨image', name', himage', hname', hbuilt⟩
      cases himage.symm.trans himage'
      cases hname.symm.trans hname'
      exact hbuilt
    · exact fun hbuilt => ⟨image, name, himage, hname, hbuilt⟩
  rw [hbuilt]
  unfold planBase at h
  by_cases hscratch : asciiEql name "scratch".toList = true
  · rw [if_pos hscratch] at h
    cases h
    refine ⟨⟨fun hmem => (by cases hmem), fun hmeans => ?_⟩, fun hmem => (by cases hmem)⟩
    exact absurd hscratch (Bool.eq_false_iff.mp hmeans.1)
  · rw [if_neg hscratch] at h
    cases hresolve : resolveStageReference document.stages stageIndex name .image line with
    | error e =>
      rw [hresolve] at h
      cases h
    | ok resolved =>
      rw [hresolve] at h
      cases h
      have hspec := resolveStageReference_ok hdistinct hresolve index
      have hmem : index ∈ (Base.ofResolved name resolved).dependencies ↔ resolved = some index := by
        cases resolved <;> simp [Base.ofResolved, Base.dependencies]
      rw [hmem]
      refine ⟨hspec.1.trans ?_, hspec.2⟩
      exact (and_iff_right (Bool.eq_false_iff.mpr hscratch)).symm

lemma planInstruction_ok {entry : Instruction × ℕ} {planned planned' : Planned}
    (h : planInstruction document.stages stageIndex planned entry = .ok planned') (index : ℕ) :
    (index ∈ planned'.dependencies ↔
        index ∈ planned.dependencies ∨ CopiesFrom document entry.1 index) ∧
      (CopiesFrom document entry.1 index → index < stageIndex) := by
  unfold planInstruction at h
  cases hvalue : entry.1.value with
  | copy copy =>
    simp only [hvalue] at h
    have hcopies : CopiesFrom document entry.1 index ↔
        ∃ reference, copy.fromSource = some reference ∧
          Means document.stages .copy reference index := by
      simp [CopiesFrom, hvalue]
    rw [hcopies]
    cases hfrom : copy.fromSource with
    | none =>
      simp only [hfrom] at h
      cases h
      simp [Planned.addCopy]
    | some reference =>
      simp only [hfrom] at h
      cases hresolve : resolveStageReference document.stages stageIndex reference .copy
          entry.1.line with
      | error e =>
        rw [hresolve] at h
        cases h
      | ok resolved =>
        rw [hresolve] at h
        cases h
        have hspec := resolveStageReference_ok hdistinct hresolve index
        have hmem : index ∈ (planned.addResolved entry.2 reference resolved).dependencies ↔
            index ∈ planned.dependencies ∨ resolved = some index := by
          cases resolved <;> simp [Planned.addResolved, Planned.addCopy]
        simp only [Option.some.injEq, exists_eq_left', hmem]
        exact ⟨or_congr Iff.rfl hspec.1, fun hmeans => hspec.2 (hspec.1.mpr hmeans)⟩
  | fromImage | run | add | env | arg | workdir | cmd | entrypoint =>
    simp only [hvalue] at h
    cases h
    simp [CopiesFrom, hvalue]

/-- The instructions of a stage, one after the other. -/
theorem planInstructions_ok : ∀ (entries : List (Instruction × ℕ)) {planned planned' : Planned},
    entries.foldlM (planInstruction document.stages stageIndex) planned = .ok planned' →
      ∀ index, (index ∈ planned'.dependencies ↔ index ∈ planned.dependencies ∨
          ∃ entry ∈ entries, CopiesFrom document entry.1 index) ∧
        ((∃ entry ∈ entries, CopiesFrom document entry.1 index) → index < stageIndex)
  | [], planned, planned', h, index => by
    cases h
    simp
  | entry :: entries, planned, planned', h, index => by
    rw [foldlM_cons] at h
    obtain ⟨next, hentry, hrest⟩ := bind_ok.mp h
    obtain ⟨hnext, hlt⟩ := planInstruction_ok hdistinct hentry index
    obtain ⟨hmem, hlts⟩ := planInstructions_ok entries hrest index
    rw [hmem, hnext, or_assoc, exists_mem_cons_iff]
    exact ⟨Iff.rfl, fun hcopies => hcopies.elim hlt hlts⟩

/-- The dependencies of a planned stage are what the stage of the file refers to. -/
theorem planStage_ok {planned : Stage} (hstage : document.stages[stageIndex]? = some stage)
    (h : planStage document vars (stage, stageIndex) = .ok planned) (index : ℕ) :
    (index ∈ planned.dependencies ↔ RefersTo document vars stageIndex index) ∧
      (index ∈ planned.dependencies → index < stageIndex) := by
  obtain ⟨image, himage, h⟩ := bind_ok.mp h
  obtain ⟨name, hname, h⟩ := bind_ok.mp h
  obtain ⟨platform, -, h⟩ := bind_ok.mp h
  obtain ⟨base, hbase, h⟩ := bind_ok.mp h
  obtain ⟨copies, hcopies, h⟩ := bind_ok.mp h
  cases h
  have hvalue : stage.image.value = .fromImage image := by
    unfold imageOf at himage
    split at himage
    · next hvalue =>
      cases himage
      exact hvalue
    · cases himage
  have hexpand : Variables.expand image.source vars
      { escape := document.directives.escape } = .ok name := by
    unfold expand at hname
    split at hname
    · next hexpand =>
      cases hname
      exact hexpand
    · cases hname
    · cases hname
  obtain ⟨hbuilt, hbuiltLt⟩ := planBase_ok hdistinct hvalue hexpand hbase index
  obtain ⟨hmem, hcopiedLt⟩ := planInstructions_ok hdistinct _ hcopies index
  have hinstructions : (∃ entry ∈ stage.instructions.zipIdx, CopiesFrom document entry.1 index) ↔
      ∃ instruction ∈ stage.instructions, CopiesFrom document instruction index := by
    constructor
    · rintro ⟨entry, hentry, hcopy⟩
      exact ⟨entry.1, fst_mem_of_mem_zipIdx hentry, hcopy⟩
    · rintro ⟨instruction, hinstruction, hcopy⟩
      obtain ⟨i, hi⟩ := mem_iff_getElem?.mp hinstruction
      exact ⟨(instruction, i), List.mk_mem_zipIdx_iff_getElem?.mpr hi, hcopy⟩
  have hrefers : RefersTo document vars stageIndex index ↔
      BuiltFrom document vars stage index ∨
        ∃ instruction ∈ stage.instructions, CopiesFrom document instruction index := by
    simp [RefersTo, hstage]
  refine ⟨?_, fun h => ?_⟩
  · rw [hmem, hbuilt, hinstructions, hrefers]
  · exact (hmem.mp h).elim hbuiltLt hcopiedLt

end Dependencies

-- ══ The order

lemma Targets.lt {stages : List Dockerfile.Stage} {target : Option Text} {index : ℕ}
    (h : Targets stages target index) : index < stages.length := by
  cases target with
  | none => exact Nat.lt_of_succ_le (Nat.le_of_eq h)
  | some target =>
    rcases h with ⟨-, hlt⟩ | ⟨-, stage, hstage, -⟩
    · exact hlt
    · exact (List.getElem?_eq_some_iff.mp hstage).1

/-- The target that is found is the one that is named, and no other. -/
theorem findTarget_ok {stages : List Dockerfile.Stage} {target : Option Text} {index : ℕ}
    (hne : stages ≠ []) (hdistinct : Distinct stages) (h : findTarget stages target = .ok index)
    (i : ℕ) : Targets stages target i ↔ i = index := by
  cases target with
  | none =>
    cases h
    have := length_pos_iff.mpr hne
    simp only [Targets]
    omega
  | some target =>
    simp only [findTarget, findStageReference, take_length] at h
    cases hnumber : (parseStageIndex target).filter (· < stages.length) with
    | some number =>
      simp only [hnumber, Except.ok.injEq] at h
      obtain ⟨hparse, hlt⟩ := Option.filter_eq_some_iff.mp hnumber
      have hlt := of_decide_eq_true hlt
      simp only [Targets, hparse, Option.some.injEq, forall_eq', ← h]
      constructor
      · rintro (⟨rfl, -⟩ | ⟨hle, -⟩)
        · rfl
        · omega
      · rintro rfl
        exact .inl ⟨rfl, hlt⟩
    | none =>
      have hlarge : ∀ n, parseStageIndex target = some n → stages.length ≤ n := by
        intro n hn
        simpa [hn, Option.filter_eq_none_iff] using hnumber
      simp only [hnumber] at h
      cases hfound : findNamedStage stages target with
      | none => simp [hfound, fail] at h
      | some found =>
        simp only [hfound, Except.ok.injEq] at h
        have hnamed := h ▸ findNamedStage_some hfound
        constructor
        · rintro (⟨hparse, hlt⟩ | ⟨-, hi⟩)
          · exact absurd hlt (hlarge i hparse).not_gt
          · exact hdistinct target i index hi hnamed
        · rintro rfl
          exact .inr ⟨hlarge, hnamed⟩

/-- A planned stage comes from the stage of the file with its number. -/
theorem exists_source {document : Document} {vars : List Variable} {stages : List Stage}
    (h : document.stages.zipIdx.mapM (planStage document vars) = .ok stages) {i : ℕ}
    {planned : Stage} (hplanned : stages[i]? = some planned) :
    ∃ stage, document.stages[i]? = some stage ∧
      planStage document vars (stage, i) = .ok planned := by
  have hforall := mapM_ok.mp h
  obtain ⟨hlt, rfl⟩ := List.getElem?_eq_some_iff.mp hplanned
  have hsource : i < document.stages.zipIdx.length := by
    rw [hforall.length_eq]
    exact hlt
  have hplan := hforall.get hsource hlt
  rw [get_eq_getElem, getElem_zipIdx, Nat.zero_add] at hplan
  rw [length_zipIdx] at hsource
  exact ⟨_, List.getElem?_eq_getElem hsource, hplan⟩

lemma mem_dependenciesOf {document : Document} {vars : List Variable} {stages : List Stage}
    (hdistinct : Distinct document.stages)
    (h : document.stages.zipIdx.mapM (planStage document vars) = .ok stages) (i j : ℕ) :
    (j ∈ dependenciesOf stages i ↔ RefersTo document vars i j) ∧
      (j ∈ dependenciesOf stages i → j < i) := by
  cases hplanned : stages[i]? with
  | none =>
    have hlength := (mapM_ok.mp h).length_eq
    rw [length_zipIdx] at hlength
    have hmissing : document.stages[i]? = none := by
      rw [List.getElem?_eq_none_iff] at hplanned ⊢
      omega
    simp [dependenciesOf, hplanned, RefersTo, hmissing]
  | some planned =>
    obtain ⟨stage, hstage, hplan⟩ := exists_source h hplanned
    rw [dependenciesOf, hplanned]
    exact planStage_ok hdistinct hstage hplan j

def sampleStage (index : ℕ) (source : Text) (name : Option Text) (instructions : List Instruction) :
    Dockerfile.Stage :=
  ⟨index, ⟨1, 1⟩, ⟨1, ⟨1, 1⟩, [], Variables.backslash, .fromImage ⟨source, none, name⟩⟩, name,
    instructions⟩

def sampleDocument : Document where
  directives := {}
  globalArgs := []
  stages :=
    [sampleStage 0 "alpine".toList (some "Tools".toList) [],
      sampleStage 1 "debian".toList none [],
      sampleStage 2 "scratch".toList (some "app".toList)
        [⟨4, ⟨4, 4⟩, [], Variables.backslash,
          .copy { fromSource := some "tools".toList, sources := [], dest := [], heredoc := none }⟩],
      sampleStage 3 "app".toList none []]

def sampleOptions : Options := { target := some "APP".toList }

end SporeVM.StagePlan
