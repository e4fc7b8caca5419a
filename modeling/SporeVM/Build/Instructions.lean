import SporeVM.Build.Dockerfile
import SporeVM.Lib.Separated

/-!
# The instructions of a parsed file

Every instruction of a stage was read from one logical line, under the escape character of the
file. A logical line holds no line break, so the text that an instruction keeps tells its first
line from a here-document behind it.
-/

namespace SporeVM.Dockerfile

open Lib
open Lib.PathText (Text)
open List

-- ══ Texts without a line break

def OneLine (text : Text) : Prop := '\n' ∉ text

lemma OneLine.mono {text part : Text} (h : OneLine text) (hpart : part ⊆ text) : OneLine part :=
  fun hmem => h (hpart hmem)

lemma OneLine.append {a b : Text} (ha : OneLine a) (hb : OneLine b) : OneLine (a ++ b) := by
  simp only [OneLine, mem_append, not_or]
  exact ⟨ha, hb⟩

lemma trimEnd_subset (chars : List Char) (text : Text) : trimEnd chars text ⊆ text := by
  intro c hc
  have hmem := (dropWhile_sublist _).subset (mem_reverse.mp hc)
  exact mem_reverse.mp hmem

lemma oneLine_of_mem_splitOn (text : Text) : ∀ line ∈ text.splitOn '\n', OneLine line :=
  Lib.Separated.not_mem_of_mem_splitOn '\n' text

-- ══ Logical lines

lemma logicalLinesFrom_oneLine {escape : Char} :
    ∀ {physical : List Text} {lineNo : ℕ} {state : LineState} {heredoc : Option OpenHeredoc}
      {lines result : List LogicalLine},
      logicalLinesFrom escape lineNo physical state heredoc lines = .ok result →
      (∀ line ∈ physical, OneLine line) → OneLine state.current →
      (∀ h ∈ heredoc, OneLine h.text) → (∀ line ∈ lines, OneLine line.text) →
      ∀ line ∈ result, OneLine line.text := by
  intro physical
  induction physical with
  | nil =>
    intro lineNo state heredoc lines result h _ _ _ hlines
    cases heredoc with
    | none =>
      obtain ⟨-, h⟩ := Check.seq_ok.mp h
      cases h
      exact hlines
    | some heredoc => cases h
  | cons rawLine rest ih =>
    intro lineNo state heredoc lines result h hphysical hcurrent hheredoc hlines
    have hrest : ∀ line ∈ rest, OneLine line := fun line hline =>
      hphysical line (mem_cons_of_mem _ hline)
    cases heredoc with
    | some heredoc =>
      have htext := hheredoc heredoc rfl
      rw [logicalLinesFrom] at h
      dsimp only at h
      generalize (if heredoc.marker.chomp then trimStart ['\t'] (trimEnd ['\r'] rawLine)
        else trimEnd ['\r'] rawLine) = possibleTerminator at h
      split at h
      · refine ih h hrest not_mem_nil (by simp) fun line hline => ?_
        rcases mem_append.mp hline with hline | hline
        · exact hlines line hline
        · cases mem_singleton.mp hline
          exact htext
      · obtain ⟨-, h⟩ := Check.seq_ok.mp h
        exact ih h hrest hcurrent (fun h' hh' => by cases hh'; exact htext) hlines
    | none =>
      have hline : OneLine (trimEnd ['\r'] rawLine) :=
        (hphysical rawLine mem_cons_self).mono (trimEnd_subset _ _)
      rw [logicalLinesFrom] at h
      split at h
      · exact ih h hrest hcurrent hheredoc hlines
      · obtain ⟨-, h⟩ := Check.seq_ok.mp h
        have hcut : OneLine (state.current ++ (trimEnd blanks (trimEnd ['\r'] rawLine)).dropLast) :=
          hcurrent.append
            (hline.mono (Subset.trans (dropLast_subset _) (trimEnd_subset _ _)))
        have hwhole : OneLine (state.current ++ trimEnd ['\r'] rawLine) := hcurrent.append hline
        simp only [decide_eq_true_eq] at h
        split at h
        · exact ih h hrest hcut (by simp) hlines
        · split at h
          · obtain ⟨-, h⟩ := Check.seq_ok.mp h
            exact ih h hrest hwhole (fun h' hh' => by cases hh'; exact hwhole) hlines
          · refine ih h hrest not_mem_nil (by simp) fun line hline => ?_
            rcases mem_append.mp hline with hline | hline
            · exact hlines line hline
            · cases mem_singleton.mp hline
              exact hwhole

lemma logicalLines_oneLine {escape : Char} {bytes : Text} {lines : List LogicalLine}
    (h : logicalLines escape (bytes.splitOn '\n') = .ok lines) :
    ∀ line ∈ lines, OneLine line.text :=
  logicalLinesFrom_oneLine h (oneLine_of_mem_splitOn bytes) not_mem_nil (by simp) (by simp)

-- ══ Stages

lemma mem_of_mem_splitStages {instruction : Instruction} : ∀ {instructions : List Instruction},
    instruction ∈ (splitStages instructions).1 ∨
      (∃ stage ∈ (splitStages instructions).2, instruction ∈ stage.2) →
    instruction ∈ instructions
  | [], h => by
    rcases h with h | ⟨stage, hstage, -⟩
    · cases h
    · cases hstage
  | first :: rest, h => by
    have ih := @mem_of_mem_splitStages instruction rest
    simp only [splitStages] at h
    split at h
    · rcases h with h | ⟨stage, hstage, hmem⟩
      · cases h
      · rcases mem_cons.mp hstage with rfl | hstage
        · exact mem_cons_of_mem _ (ih (.inl hmem))
        · exact mem_cons_of_mem _ (ih (.inr ⟨stage, hstage, hmem⟩))
    · rcases h with h | ⟨stage, hstage, hmem⟩
      · rcases mem_cons.mp h with rfl | h
        · exact mem_cons_self
        · exact mem_cons_of_mem _ (ih (.inl h))
      · exact mem_cons_of_mem _ (ih (.inr ⟨stage, hstage, hmem⟩))

lemma mem_of_parseStages {instructions : List Instruction} {stages : List Stage} {stage : Stage}
    {instruction : Instruction} (h : parseStages instructions = .ok stages)
    (hstage : stage ∈ stages)
    (hmem : instruction ∈ stage.instructions) : instruction ∈ instructions := by
  unfold parseStages at h
  split at h
  · cases h
  · next split hsplit =>
    split at h
    · cases h
    · obtain ⟨-, h⟩ := Check.seq_ok.mp h
      cases h
      obtain ⟨i, hi, rfl⟩ := mem_mapIdx.mp hstage
      refine mem_of_mem_splitStages (.inr ⟨split[i], ?_, hmem⟩)
      rw [hsplit]
      exact getElem_mem hi

/-- An instruction of a parsed file comes from a logical line of the file. -/
theorem parse_instruction {json : Text → JsonStrings} {bytes : Text} {document : Document}
    {stage : Stage} {instruction : Instruction} (h : parse json bytes = .ok document)
    (hstage : stage ∈ document.stages) (hmem : instruction ∈ stage.instructions) :
    ∃ line : LogicalLine, OneLine line.text ∧
      parseLine json document.directives.escape line = .ok (some instruction) := by
  obtain ⟨-, h⟩ := Check.seq_ok.mp h
  obtain ⟨directives, -, h⟩ := Check.bind_ok.mp h
  obtain ⟨lines, hlines, h⟩ := Check.bind_ok.mp h
  obtain ⟨parsed, hparsed, h⟩ := Check.bind_ok.mp h
  obtain ⟨stages, hstages, h⟩ := Check.bind_ok.mp h
  cases h
  have hfound := mem_of_mem_drop (mem_of_parseStages hstages hstage hmem)
  obtain ⟨found, hfound, rfl⟩ := mem_filterMap.mp hfound
  obtain ⟨line, hline, hparse⟩ := Check.exists_of_mem_mapM hparsed hfound
  exact ⟨line, logicalLines_oneLine hlines line hline, hparse⟩

end SporeVM.Dockerfile
