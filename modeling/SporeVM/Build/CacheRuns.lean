import SporeVM.Build.Instructions

/-!
# Runs with cache mounts in one form

The text of a run that mounts caches stands in the key of its step without the options of those
caches. The text is read a second time for that, after the parser has accepted it.

The second reader finds a list of flags and the text behind them. Runs with the same flags, but
for the options of cache mounts and the blanks in front of a flag, get one text. It expects the
keyword in capitals, though, where the parser takes it in any case.
-/

namespace SporeVM.Build

open Lib
open Lib.PathText (Text)
open Lib.Check (rejectIf)
open Dockerfile
open List

-- ══ The instruction in the key of a run

def runMountTokenIsCache (raw : Text) : Bool :=
  (((raw.splitOn ',').filterMap (cutAt '=')).find? fun field =>
    asciiEql field.1 "type".toList).elim false fun field => asciiEql field.2 "cache".toList

/-- The flags of a run with every cache mount put in one form. What follows the flags is kept. The
fuel is the number of characters, of which every flag takes some. -/
def canonicalizeMounts : ℕ → Text → Text
  | 0, _ => []
  | fuel + 1, text =>
    let rest := text.dropWhile isBlank
    let token := rest.takeWhile fun c => !(isBlank c || c = '\n')
    if token ≠ [] ∧ mountFlag.isPrefixOf token then
      let mount := if runMountTokenIsCache (token.drop mountFlag.length)
        then "--mount=cache".toList else token
      ' ' :: mount ++ canonicalizeMounts fuel (rest.drop token.length)
    else text

/-- What the canonical form of a run can fail with. -/
inductive PlanError
  | badManifest
  deriving DecidableEq

def canonicalizeCacheRunInstruction (raw : Text) (hasCacheMounts : Bool) : Except PlanError Text :=
  if hasCacheMounts = false then .ok raw
  else do
    rejectIf (¬ "RUN".toList.isPrefixOf raw) .badManifest
    pure ("RUN".toList ++ canonicalizeMounts raw.length (raw.drop 3))

-- ══ The flags of a run

def flagChar (c : Char) : Bool := !(isBlank c || c = '\n')

structure IsMountFlag (token : Text) : Prop where
  named : mountFlag <+: token
  chars : ∀ c ∈ token, flagChar c = true

inductive HasFlags : Text → List Text → Text → Prop
  | done {tail : Text} (h : ¬ mountFlag <+: tail.dropWhile isBlank) : HasFlags tail [] tail
  | flag {blanks token rest tail : Text} {tokens : List Text}
      (hblanks : ∀ c ∈ blanks, isBlank c = true) (htoken : IsMountFlag token)
      (hrest : ∀ c ∈ rest.head?, flagChar c = false) (h : HasFlags rest tokens tail) :
      HasFlags (blanks ++ (token ++ rest)) (token :: tokens) tail

def isCacheFlag (token : Text) : Bool := runMountTokenIsCache (token.drop mountFlag.length)

def canonicalMount (token : Text) : Text :=
  if isCacheFlag token = true then "--mount=cache".toList else token

lemma IsMountFlag.ne_nil {token : Text} (h : IsMountFlag token) : token ≠ [] := by
  rintro rfl
  exact absurd (prefix_nil.mp h.named) (by decide)

lemma IsMountFlag.dropWhile_blank {blanks token rest : Text}
    (hblanks : ∀ c ∈ blanks, isBlank c = true) (htoken : IsMountFlag token) :
    (blanks ++ (token ++ rest)).dropWhile isBlank = token ++ rest := by
  rw [dropWhile_append_of_pos hblanks]
  obtain ⟨_, rfl⟩ := htoken.named
  rfl

lemma IsMountFlag.takeWhile {token rest : Text} (htoken : IsMountFlag token)
    (hrest : ∀ c ∈ rest.head?, flagChar c = false) :
    (token ++ rest).takeWhile flagChar = token := by
  rw [takeWhile_append_of_pos htoken.chars]
  cases rest with
  | nil => simp
  | cons c rest => simp [hrest c rfl]

/-- The flags in one form, and the text behind them as it is. -/
theorem canonicalizeMounts_flags {text tail : Text} {tokens : List Text}
    (h : HasFlags text tokens tail) : ∀ {fuel : ℕ}, text.length < fuel →
      canonicalizeMounts fuel text =
        (tokens.map fun token => ' ' :: canonicalMount token).flatten ++ tail := by
  induction h with
  | @done tail hdone =>
    intro fuel hfuel
    obtain ⟨fuel, rfl⟩ : ∃ n, fuel = n + 1 := ⟨fuel - 1, by omega⟩
    rw [canonicalizeMounts, if_neg]
    · rfl
    · rintro ⟨-, hflag⟩
      exact hdone ((List.isPrefixOf_iff_prefix.mp hflag).trans (List.takeWhile_prefix _))
  | @flag blanks token rest tail tokens hblanks htoken hrest _ ih =>
    intro fuel hfuel
    obtain ⟨fuel, rfl⟩ : ∃ n, fuel = n + 1 := ⟨fuel - 1, by omega⟩
    have htake : (token ++ rest).takeWhile (fun c => !(isBlank c || c = '\n')) = token :=
      htoken.takeWhile hrest
    have hne := htoken.ne_nil
    have hlen := length_pos_iff.mpr hne
    simp only [length_append] at hfuel
    rw [canonicalizeMounts, htoken.dropWhile_blank hblanks, htake,
      if_pos ⟨hne, isPrefixOf_iff_prefix.mpr htoken.named⟩, drop_left,
      ih (by omega), map_cons, flatten_cons, append_assoc]
    rfl

-- ══ Runs that differ in what is left out

def SameMount (a b : Text) : Prop := a = b ∨ isCacheFlag a = true ∧ isCacheFlag b = true

lemma SameMount.canonicalMount {a b : Text} (h : SameMount a b) :
    canonicalMount a = canonicalMount b := by
  rcases h with rfl | ⟨ha, hb⟩
  · rfl
  · rw [Build.canonicalMount, Build.canonicalMount, if_pos ha, if_pos hb]

lemma canonicalMounts_congr {as bs : List Text} (h : Forall₂ SameMount as bs) :
    (as.map fun token => ' ' :: canonicalMount token) =
      bs.map fun token => ' ' :: canonicalMount token := by
  induction h with
  | nil => rfl
  | cons hmount _ ih => rw [map_cons, map_cons, ih, hmount.canonicalMount]

/-- Two runs that differ only in the case of the keyword, in the blanks in front of their flags and
in the options of their cache mounts. -/
structure Alike (a b : Text) : Prop where
  split : ∃ keyword₁ keyword₂ text₁ text₂ tail : Text, ∃ tokens₁ tokens₂ : List Text,
    a = keyword₁ ++ text₁ ∧ b = keyword₂ ++ text₂ ∧
    asciiEql keyword₁ "RUN".toList = true ∧ asciiEql keyword₂ "RUN".toList = true ∧
    HasFlags text₁ tokens₁ tail ∧ HasFlags text₂ tokens₂ tail ∧
    Forall₂ SameMount tokens₁ tokens₂

lemma length_of_asciiEql {a b : Text} (h : asciiEql a b = true) : a.length = b.length := by
  have := congrArg length (of_decide_eq_true h)
  simpa using this

lemma canonicalize_of_flags {keyword text tail : Text} {tokens : List Text}
    (hkeyword : asciiEql keyword "RUN".toList = true) (hrun : "RUN".toList <+: keyword ++ text)
    (h : HasFlags text tokens tail) : canonicalizeCacheRunInstruction (keyword ++ text) true =
      .ok ("RUN".toList ++ ((tokens.map fun token => ' ' :: canonicalMount token).flatten ++
        tail)) := by
  have hlen : keyword.length = 3 := length_of_asciiEql hkeyword
  have hdrop : (keyword ++ text).drop 3 = text := by rw [← hlen, drop_left]
  have hfuel : text.length < (keyword ++ text).length := by
    rw [length_append]
    omega
  rw [canonicalizeCacheRunInstruction, if_neg (by decide), hdrop, canonicalizeMounts_flags h hfuel]
  have hpos : ¬ ¬ "RUN".toList.isPrefixOf (keyword ++ text) = true :=
    not_not_intro (List.isPrefixOf_iff_prefix.mpr hrun)
  rw [Check.rejectIf_bind, if_neg hpos]
  rfl

lemma Alike.canonicalize_eq {a b : Text} (h : Alike a b) (ha : "RUN".toList <+: a)
    (hb : "RUN".toList <+: b) :
    canonicalizeCacheRunInstruction a true = canonicalizeCacheRunInstruction b true := by
  obtain ⟨keyword₁, keyword₂, text₁, text₂, tail, tokens₁, tokens₂, rfl, rfl, hk₁, hk₂, hf₁, hf₂,
    hsame⟩ := h.split
  rw [canonicalize_of_flags hk₁ ha hf₁, canonicalize_of_flags hk₂ hb hf₂,
    canonicalMounts_congr hsame]

-- ══ Runs of parsed files

section Parsed

variable {json : Text → JsonStrings}

def IsCacheRun (json : Text → JsonStrings) (raw : Text) : Prop :=
  ∃ (bytes : Text) (document : Document) (stage : Stage)
    (instruction : Instruction) (run : Run),
    parse json bytes = .ok document ∧ stage ∈ document.stages ∧
    instruction ∈ stage.instructions ∧ instruction.value = .run run ∧ run.cacheMounts ≠ [] ∧
    instruction.raw = raw

def keyword : Value → Text
  | .fromImage _ => "FROM".toList
  | .run _ => "RUN".toList
  | .copy _ => "COPY".toList
  | .add _ => "ADD".toList
  | .env _ => "ENV".toList
  | .arg _ => "ARG".toList
  | .workdir _ => "WORKDIR".toList
  | .cmd _ => "CMD".toList
  | .entrypoint _ => "ENTRYPOINT".toList

def Gives (name : Text) (x : Except Diagnostic Value) : Prop := ∀ v, x = .ok v → keyword v = name

lemma Gives.bind {α : Type} {name : Text} {x : Except Diagnostic α}
    {f : α → Except Diagnostic Value} (h : ∀ a, Gives name (f a)) : Gives name (x >>= f) := by
  intro v hv
  obtain ⟨a, -, hv⟩ := Check.bind_ok.mp hv
  exact h a v hv

lemma Gives.pure (v : Value) : Gives (keyword v) (.ok v) := by
  intro v' hv
  cases hv
  rfl

lemma Gives.error (name : Text) (d : Diagnostic) : Gives name (.error d) := by
  intro v hv
  cases hv

lemma parseFrom_gives (rest : Text) (escape : Char) (line : ℕ) :
    Gives "FROM".toList (parseFrom rest escape line) := by
  refine .bind fun _ => .bind fun _ => .bind fun flag => ?_
  obtain ⟨platform, args⟩ := flag
  cases args with
  | nil => exact .error _ _
  | cons source args => exact .bind fun _ => .bind fun _ => .pure _

lemma parseRun_gives (rest : Text) (heredoc : Option Heredoc) (escape : Char) (line : ℕ) :
    Gives "RUN".toList (parseRun json rest heredoc escape line) := by
  refine .bind fun _ => .bind fun mounts => ?_
  cases heredoc with
  | some heredoc => exact .bind fun _ => .bind fun _ => .pure _
  | none => exact .bind fun _ => .pure _

lemma parseCopy_gives (rest : Text) (heredoc : Option Heredoc) (escape : Char) (line : ℕ) :
    Gives "COPY".toList (parseCopy rest heredoc escape line) := by
  refine .bind fun args => ?_
  cases heredoc with
  | some heredoc =>
    dsimp only [parseCopyHeredoc]
    split
    · exact .bind fun _ => .bind fun _ => .bind fun _ => .pure _
    · exact .error _ _
  | none =>
    exact .bind fun _ => .bind fun flags => .bind fun _ => .bind fun _ => .bind fun _ =>
      .bind fun _ => .pure _

lemma parseAdd_gives (rest : Text) (escape : Char) (line : ℕ) :
    Gives "ADD".toList (parseAdd rest escape line) := by
  refine .bind fun _ => .bind fun _ => .bind fun flags => .bind fun _ => ?_
  split
  · exact .bind fun _ => .bind fun _ => .bind fun _ => .bind fun _ => .pure _
  · exact .error _ _

lemma parseWorkdir_gives (rest : Text) (escape : Char) (line : ℕ) :
    Gives "WORKDIR".toList (parseWorkdir rest escape line) := by
  refine .bind fun args => ?_
  split
  · exact .bind fun _ => .pure _
  · exact .error _ _

def NamedBy (op : Text) (x : Except Diagnostic Value) : Prop :=
  ∀ v, x = .ok v → asciiEql op (keyword v) = true

lemma Gives.namedBy_ite {op name : Text} {x y : Except Diagnostic Value} (hx : Gives name x)
    (hy : NamedBy op y) : NamedBy op (if asciiEql op name = true then x else y) := by
  intro v hv
  by_cases hop : asciiEql op name = true
  · rw [if_pos hop] at hv
    rw [hx v hv]
    exact hop
  · rw [if_neg hop] at hv
    exact hy v hv

lemma parseInstruction_namedBy (line : ℕ) (op rest : Text) (heredoc : Option Heredoc)
    (escape : Char) : NamedBy op (parseInstruction json line op rest heredoc escape) := by
  refine (parseFrom_gives _ _ _).namedBy_ite ?_
  refine (parseRun_gives _ _ _ _).namedBy_ite ?_
  refine (parseCopy_gives _ _ _ _).namedBy_ite ?_
  refine (parseAdd_gives _ _ _).namedBy_ite ?_
  refine Gives.namedBy_ite (.bind fun _ => .pure (.env _)) ?_
  refine Gives.namedBy_ite (.bind fun _ => .pure (.arg _)) ?_
  refine (parseWorkdir_gives _ _ _).namedBy_ite ?_
  refine Gives.namedBy_ite (.bind fun _ => .bind fun _ => .pure (.cmd _)) ?_
  refine Gives.namedBy_ite (.bind fun _ => .bind fun _ => .pure (.entrypoint _)) ?_
  intro v hv
  cases hv

lemma firstWord_rawText (trimmed : Text) (heredoc : Option Heredoc) :
    firstWord (rawText trimmed heredoc) = firstWord trimmed := by
  cases heredoc with
  | none => rfl
  | some heredoc =>
    -- a line break ends the word
    rw [rawText, firstWord, firstWord, append_assoc, takeWhile_append]
    split
    · next hall =>
      rw [(List.takeWhile_prefix _).eq_of_length hall, cons_append]
      exact append_nil _
    · rfl

lemma IsCacheRun.firstWord {raw : Text} (h : IsCacheRun json raw) :
    asciiEql (firstWord raw) "RUN".toList = true := by
  obtain ⟨bytes, document, stage, instruction, run, hparse, hstage, hmem, hvalue, -, rfl⟩ := h
  obtain ⟨line, -, hline⟩ := parse_instruction hparse hstage hmem
  unfold parseLine at hline
  dsimp only at hline
  split at hline
  · cases hline
  · obtain ⟨value, hread, hline⟩ := Check.bind_ok.mp hline
    cases hline
    have hop := parseInstruction_namedBy _ _ _ _ _ value hread
    dsimp only at hvalue ⊢
    rw [firstWord_rawText]
    rw [hvalue] at hop
    exact hop

lemma IsCacheRun.canonicalize_ok {raw : Text} (h : IsCacheRun json raw) :
    (∃ text, canonicalizeCacheRunInstruction raw true = .ok text) ↔
      Dockerfile.firstWord raw = "RUN".toList := by
  have hword : Dockerfile.firstWord raw <+: raw := takeWhile_prefix _
  have hlen : (Dockerfile.firstWord raw).length = "RUN".toList.length :=
    length_of_asciiEql h.firstWord
  have hrun : "RUN".toList <+: raw ↔ Dockerfile.firstWord raw = "RUN".toList := by
    constructor
    · intro hrun
      exact IsPrefix.eq_of_length (prefix_of_prefix_length_le hword hrun hlen.le) hlen
    · intro heq
      exact heq ▸ hword
  rw [← hrun, ← isPrefixOf_iff_prefix, canonicalizeCacheRunInstruction, if_neg (by decide),
    Check.rejectIf_bind]
  constructor
  · rintro ⟨text, htext⟩
    by_contra hnot
    rw [if_pos hnot] at htext
    cases htext
  · intro hpos
    exact ⟨_, if_neg (not_not_intro hpos)⟩

/-- Two runs with cache mounts in files that the parser accepts get a text for the key, and one text
if they differ only in what is left out, exactly when both have their keyword in capitals. -/
theorem cache_runs_are_canonicalized {raw₁ raw₂ : Text} (h₁ : IsCacheRun json raw₁)
    (h₂ : IsCacheRun json raw₂) : ((∃ text, canonicalizeCacheRunInstruction raw₁ true = .ok text) ∧
      (∃ text, canonicalizeCacheRunInstruction raw₂ true = .ok text) ∧
      (Alike raw₁ raw₂ → canonicalizeCacheRunInstruction raw₁ true =
        canonicalizeCacheRunInstruction raw₂ true)) ↔
    Dockerfile.firstWord raw₁ = "RUN".toList ∧ Dockerfile.firstWord raw₂ = "RUN".toList := by
  rw [h₁.canonicalize_ok, h₂.canonicalize_ok]
  constructor
  · rintro ⟨hw₁, hw₂, -⟩
    exact ⟨hw₁, hw₂⟩
  · rintro ⟨hw₁, hw₂⟩
    refine ⟨hw₁, hw₂, fun halike => halike.canonicalize_eq ?_ ?_⟩
    · exact hw₁ ▸ takeWhile_prefix _
    · exact hw₂ ▸ takeWhile_prefix _

-- A file with one run, which has one cache mount and a command.

def sampleFile (run : Text) : Text := "FROM scratch\n".toList ++ run

def sampleFrom : Instruction :=
  { line := 1, span := ⟨1, 1⟩, raw := "FROM scratch".toList, escape := Variables.backslash,
    value := .fromImage ⟨"scratch".toList, none, none⟩ }

def sampleRun (raw : Text) (id : Option Text) : Instruction :=
  { line := 2, span := ⟨2, 2⟩, raw, escape := Variables.backslash,
    value := .run
      { cacheMounts := [⟨"/c".toList, id, none⟩], contextBindMounts := [],
        sshDeclaredAbsent := false, command := .shell "true".toList } }

lemma sample_isCacheRun {raw : Text} {id : Option Text}
    (hlen : (sampleFile raw).length ≤ maxDockerfileBytes)
    (hdirectives : parseDirectives ((sampleFile raw).splitOn '\n') = .ok {})
    (hlines : logicalLines Variables.backslash ((sampleFile raw).splitOn '\n') =
      .ok [⟨1, 1, "FROM scratch".toList, none⟩, ⟨2, 2, raw, none⟩])
    (hparsed : [⟨1, 1, "FROM scratch".toList, none⟩, ⟨2, 2, raw, none⟩].mapM
      (parseLine (fun _ => .malformed) Variables.backslash) =
      .ok [some sampleFrom, some (sampleRun raw id)]) : IsCacheRun (fun _ => .malformed) raw := by
  have hstages : parseStages [sampleFrom, sampleRun raw id] =
      .ok [⟨0, ⟨1, 2⟩, sampleFrom, none, [sampleRun raw id]⟩] := rfl
  have hparse : parse (fun _ => .malformed) (sampleFile raw) =
      .ok ⟨{}, [], [⟨0, ⟨1, 2⟩, sampleFrom, none, [sampleRun raw id]⟩]⟩ := by
    refine Check.rejectIf_bind_ok.mpr ⟨Nat.not_lt.mpr hlen, ?_⟩
    refine Check.bind_ok.mpr ⟨_, hdirectives, Check.bind_ok.mpr ⟨_, hlines, ?_⟩⟩
    exact Check.bind_ok.mpr ⟨_, hparsed, Check.bind_ok.mpr ⟨_, hstages, rfl⟩⟩
  exact ⟨_, _, _, sampleRun raw id, _, hparse, mem_singleton_self _,
    mem_singleton_self _, rfl, cons_ne_nil _ _, rfl⟩

def plainRun : Text := "RUN --mount=type=cache,target=/c true".toList

def namedRun : Text := "RUN  --mount=type=cache,target=/c,id=a true".toList

lemma sample_hasFlags {blanks token : Text} (hblanks : ∀ c ∈ blanks, isBlank c = true)
    (htoken : IsMountFlag token) :
    HasFlags (blanks ++ (token ++ " true".toList)) [token] " true".toList :=
  .flag hblanks htoken (fun c hc => by
      have hspace : c = ' ' := by simpa using hc.symm
      rw [hspace]
      decide)
    (.done fun h => absurd (List.isPrefixOf_iff_prefix.mpr h) (by decide +kernel))

lemma sample_isMountFlag {token : Text} (hnamed : mountFlag.isPrefixOf token = true)
    (hchars : token.all flagChar = true) : IsMountFlag token :=
  ⟨List.isPrefixOf_iff_prefix.mp hnamed, all_eq_true.mp hchars⟩

lemma plainRun_alike_namedRun : Alike plainRun namedRun where
  split := ⟨"RUN".toList, "RUN".toList, _, _, " true".toList,
    ["--mount=type=cache,target=/c".toList], ["--mount=type=cache,target=/c,id=a".toList],
    by decide +kernel, by decide +kernel, by decide, by decide,
    @sample_hasFlags " ".toList _ (all_eq_true.mp (by decide +kernel))
      (sample_isMountFlag (by decide +kernel) (by decide +kernel)),
    @sample_hasFlags "  ".toList _ (all_eq_true.mp (by decide +kernel))
      (sample_isMountFlag (by decide +kernel) (by decide +kernel)),
    .cons (.inr (by decide +kernel)) .nil⟩

theorem cache_runs_are_canonicalized_sample :
    canonicalizeCacheRunInstruction plainRun true = .ok "RUN --mount=cache true".toList ∧
      canonicalizeCacheRunInstruction plainRun true =
        canonicalizeCacheRunInstruction namedRun true := by
  have hplain : IsCacheRun (fun _ => .malformed) plainRun :=
    @sample_isCacheRun plainRun none (by decide +kernel) (by decide +kernel) (by decide +kernel)
      (by decide +kernel)
  have hnamed : IsCacheRun (fun _ => .malformed) namedRun :=
    @sample_isCacheRun namedRun (some "a".toList) (by decide +kernel) (by decide +kernel)
      (by decide +kernel) (by decide +kernel)
  refine ⟨by decide +kernel, ?_⟩
  exact ((cache_runs_are_canonicalized hplain hnamed).mpr
    ⟨by decide +kernel, by decide +kernel⟩).2.2 plainRun_alike_namedRun

def smallRun : Text := "run --mount=type=cache,target=/c true".toList

/-- A keyword in small letters, which the parser accepts and the planner does not. -/
theorem small_cache_run_is_refused : IsCacheRun (fun _ => .malformed) smallRun ∧
      canonicalizeCacheRunInstruction smallRun true = .error .badManifest := by
  refine ⟨@sample_isCacheRun smallRun none ?_ ?_ ?_ ?_, ?_⟩
  all_goals decide +kernel

end Parsed

end SporeVM.Build
