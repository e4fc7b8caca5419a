import Mathlib.Data.List.Induction
import SporeVM.Lib.EState
import SporeVM.Lib.PathText

/-!
# Patterns for paths

A pattern is compiled to a list of tokens, which are the states of an automaton. It reads a path
by code points, where a byte that starts none stands for itself. A text holds bytes, each as the
character of its number.

The same automaton answers whether some path below a directory can match: it has not died when it
has read the directory and a separator.
-/

namespace SporeVM.PathPattern

open Lib.PathText (Text sep dot)
open Lib.Check (rejectIf)
open List

-- ══ Code points

def sequenceLength (first : ℕ) : ℕ :=
  if 0xC0 ≤ first ∧ first < 0xE0 then 2
  else if 0xE0 ≤ first ∧ first < 0xF0 then 3
  else if 0xF0 ≤ first ∧ first < 0xF8 then 4
  else 1

def isContinuation (c : Char) : Bool := 0x80 ≤ c.toNat ∧ c.toNat < 0xC0

/-- The code point of a whole sequence, unless it is malformed, longer than it has to be, or out
of range. -/
def utf8Decode (first : Char) : Text → Option ℕ
  | [] => some first.toNat
  | [b] =>
    let value := first.toNat % 0x20 * 0x40 + b.toNat % 0x40
    if isContinuation b = true ∧ 0x80 ≤ value then some value else none
  | [b, c] =>
    let value := (first.toNat % 0x10 * 0x40 + b.toNat % 0x40) * 0x40 + c.toNat % 0x40
    if isContinuation b = true ∧ isContinuation c = true ∧ 0x800 ≤ value ∧
        ¬ (0xD800 ≤ value ∧ value ≤ 0xDFFF) then some value else none
  | [b, c, d] =>
    let value := ((first.toNat % 0x8 * 0x40 + b.toNat % 0x40) * 0x40 + c.toNat % 0x40) * 0x40 +
      d.toNat % 0x40
    if isContinuation b = true ∧ isContinuation c = true ∧ isContinuation d = true ∧
        0x10000 ≤ value ∧ value ≤ 0x10FFFF then some value else none
  | _ => none

structure Decoded where
  codepoint : ℕ
  len : ℕ

def decodeCodepoint (first : Char) (rest : Text) : Decoded :=
  let len := sequenceLength first.toNat
  match if rest.length + 1 < len then none else utf8Decode first (rest.take (len - 1)) with
  | some codepoint => ⟨codepoint, len⟩
  | none => ⟨0x110000 + first.toNat, 1⟩

def decode : Text → List ℕ
  | [] => []
  | first :: rest =>
    (decodeCodepoint first rest).codepoint ::
      decode (rest.drop ((decodeCodepoint first rest).len - 1))
termination_by text => text.length
decreasing_by
  simp only [length_drop, length_cons]
  omega

-- ══ Patterns

inductive Mode
  | copy
  | dockerignore
  deriving DecidableEq

def maxPatternBytes : ℕ := 4096

def maxPatternTokens : ℕ := maxPatternBytes + 1

structure Range where
  first : ℕ
  last : ℕ
  deriving DecidableEq

structure CharacterClass where
  negated : Bool
  ranges : List Range
  deriving DecidableEq

def CharacterClass.matches (cls : CharacterClass) (codepoint : ℕ) : Bool :=
  (cls.ranges.any fun range => range.first ≤ codepoint && codepoint ≤ range.last) != cls.negated

inductive Token
  | literal (codepoint : ℕ)
  | any
  | star
  | globstar
  | split (target : ℕ)
  | globstarUntilSlash
  | characterClass (cls : CharacterClass)
  deriving DecidableEq

structure Pattern where
  tokens : List Token
  literalDirectoryPrefix : Text := []
  deriving DecidableEq

inductive PatternError
  | patternTooLong
  | badPattern
  deriving DecidableEq

def appendToken (tokens : List Token) (token : Token) : Except PatternError (List Token) := do
  rejectIf (maxPatternTokens ≤ tokens.length) .patternTooLong
  pure (tokens ++ [token])

def decodeClassCodepoint : Text → Except PatternError (ℕ × Text)
  | [] => .error .badPattern
  | first :: rest =>
    if first = '-' ∨ first = ']' then .error .badPattern
    else
      let text := if first = '\\' then rest else first :: rest
      match text with
      | [] => .error .badPattern
      | first :: rest => do
        let decoded := decodeCodepoint first rest
        rejectIf (0x10FFFF < decoded.codepoint) .badPattern
        pure (decoded.codepoint, rest.drop (decoded.len - 1))

def parseRange (text : Text) : Except PatternError (Range × Text) := do
  let (first, text) ← decodeClassCodepoint text
  match text with
  | '-' :: text => do
    let (last, text) ← decodeClassCodepoint text
    rejectIf (last < first) .badPattern
    pure (⟨first, last⟩, text)
  | text => pure (⟨first, first⟩, text)

-- The fuel is the number of characters: every range takes one.
def parseRanges : ℕ → Text → List Range → Except PatternError (List Range × Text)
  | _, [], _ => .error .badPattern
  | 0, _, _ => .error .badPattern
  | fuel + 1, c :: cs, ranges =>
    if c = ']' then do
      rejectIf (ranges = []) .badPattern
      pure (ranges, cs)
    else do
      let (range, text) ← parseRange (c :: cs)
      parseRanges fuel text (ranges ++ [range])

def parseCharacterClass (text : Text) : Except PatternError (CharacterClass × Text) := do
  let negated : Bool := text.head? = some '^'
  let (ranges, rest) ← parseRanges text.length (if negated then text.tail else text) []
  pure (⟨negated, ranges⟩, rest)

def compileGlobstar (text : Text) (tokens : List Token) : Except PatternError (List Token × Text) :=
  match text with
  | '/' :: rest => do
    let tokens ← appendToken tokens (.split (tokens.length + 2))
    let tokens ← appendToken tokens .globstarUntilSlash
    pure (tokens, rest)
  | text => do
    let tokens ← appendToken tokens .globstar
    pure (tokens, text)

def compileLiteral (tokens : List Token) : Text → Except PatternError (List Token × Text)
  | [] => .error .badPattern
  | first :: rest => do
    let decoded := decodeCodepoint first rest
    let tokens ← appendToken tokens (.literal decoded.codepoint)
    pure (tokens, rest.drop (decoded.len - 1))

def compileOne (mode : Mode) (first : Char) (rest : Text) (tokens : List Token) :
    Except PatternError (List Token × Text) :=
  if first = '*' then
    if mode = .dockerignore ∧ rest.head? = some '*' then compileGlobstar rest.tail tokens
    else do
      let tokens ← appendToken tokens .star
      pure (tokens, rest.dropWhile (· = '*'))
  else if first = '?' then do
    let tokens ← appendToken tokens .any
    pure (tokens, rest)
  else if first = '[' then do
    let (cls, rest) ← parseCharacterClass rest
    let tokens ← appendToken tokens (.characterClass cls)
    pure (tokens, rest)
  else if first = '\\' then compileLiteral tokens rest
  else compileLiteral tokens (first :: rest)

-- The fuel is the number of characters: every piece takes one.
def compileFrom (mode : Mode) : ℕ → Text → List Token → Except PatternError (List Token)
  | _, [], tokens => .ok tokens
  | 0, _, _ => .error .patternTooLong
  | fuel + 1, first :: rest, tokens => do
    let (tokens, rest) ← compileOne mode first rest tokens
    compileFrom mode fuel rest tokens

/-- The literal text a pattern starts with, without its escapes, and whether a wildcard that comes
right behind a separator ends it. -/
def literalRun : Text → Bool → Except PatternError (Text × Bool)
  | [], _ => .ok ([], false)
  | c :: cs, behindSep =>
    if c = '*' ∨ c = '?' ∨ c = '[' then .ok ([], behindSep)
    else if c = '\\' then
      match cs with
      | [] => .error .badPattern
      | d :: ds => do
        let (literal, ends) ← literalRun ds (d = sep)
        pure (d :: literal, ends)
    else do
      let (literal, ends) ← literalRun cs (c = sep)
      pure (c :: literal, ends)

def literalDirectoryPrefix (raw : Text) : Except PatternError Text := do
  let (literal, ends) ← literalRun raw false
  let literal := (literal.reverse.dropWhile (· = sep)).reverse
  if ends = true then pure literal
  else pure ((literal.reverse.dropWhile (· ≠ sep)).tail.reverse)

def Pattern.compile (raw : Text) (mode : Mode) : Except PatternError Pattern := do
  rejectIf (maxPatternBytes < raw.length) .patternTooLong
  let tokens ← compileFrom mode raw.length raw []
  let literal ← if mode = .copy then PathPattern.literalDirectoryPrefix raw else .ok []
  pure ⟨tokens, literal⟩

def hasCopyMeta (raw : Text) : Bool := raw.any fun c => c ∈ ['*', '?', '[', '\\']

-- ══ The automaton

abbrev States := ℕ → Bool

def States.mark (states : States) (i : ℕ) : States := fun j => j = i || states j

def closeToken (states : States) (token : Token × ℕ) : States :=
  if states token.2 = true then
    match token.1 with
    | .star | .globstar => states.mark (token.2 + 1)
    | .split target => (states.mark (token.2 + 1)).mark target
    | _ => states
  else states

def epsilonClosure (tokens : List Token) (states : States) : States :=
  tokens.zipIdx.foldl closeToken states

def Token.destinations (token : Token) (i codepoint : ℕ) : List ℕ :=
  match token with
  | .literal c => if c = codepoint then [i + 1] else []
  | .any => if codepoint ≠ sep.toNat then [i + 1] else []
  | .characterClass cls => if cls.matches codepoint then [i + 1] else []
  | .star => if codepoint ≠ sep.toNat then [i] else []
  | .globstar => [i]
  | .globstarUntilSlash => if codepoint = sep.toNat then [i, i + 1] else [i]
  | .split _ => []

def advance (tokens : List Token) (active : States) (codepoint : ℕ) : Option States :=
  let next := tokens.zipIdx.flatMap fun token =>
    if active token.2 = true then token.1.destinations token.2 codepoint else []
  if next = [] then none else some (epsilonClosure tokens fun i => i ∈ next)

section Matching

variable (pattern : Pattern)

def Pattern.startStates : States := epsilonClosure pattern.tokens fun i => i = 0

def Pattern.readPath (path : Text) (appendSlash : Bool) : Option States :=
  (decode path ++ if appendSlash then [sep.toNat] else []).foldlM (advance pattern.tokens)
    pattern.startStates

def Pattern.matchPath (path : Text) (appendSlash requireAccept : Bool) : Bool :=
  if maxPatternTokens < pattern.tokens.length then false
  else
    match pattern.readPath path appendSlash with
    | none => false
    | some active =>
      if requireAccept then active pattern.tokens.length
      else (List.range (pattern.tokens.length + 1)).any active

def Pattern.matches (path : Text) : Bool := pattern.matchPath path false true

def parents (path : Text) : List Text :=
  ((List.range path.length).filter fun i => path[i]? = some sep ∧ i ≠ 0).map path.take

def Pattern.matchesOrParent (path : Text) : Bool :=
  if path = dot then false
  else pattern.matches path || (parents path).any pattern.matches

def Pattern.couldMatchDescendant (directory : Text) : Bool := pattern.matchPath directory true false

def Pattern.requiresLiteralDirectory (path : Text) : Bool :=
  pattern.literalDirectoryPrefix ≠ [] ∧ path.isPrefixOf pattern.literalDirectoryPrefix ∧
    (path.length = pattern.literalDirectoryPrefix.length ∨
      pattern.literalDirectoryPrefix[path.length]? = some sep)

end Matching

-- ══ Reading a path in parts

lemma utf8Decode_continuation {first : Char} {rest : Text} {codepoint : ℕ}
    (h : utf8Decode first rest = some codepoint) : ∀ c ∈ rest, isContinuation c = true := by
  unfold utf8Decode at h
  dsimp only at h
  split at h
  · exact fun c hc => absurd hc not_mem_nil
  · split at h
    · next hgood => simpa using hgood.1
    · cases h
  · split at h
    · next hgood => simpa using ⟨hgood.1, hgood.2.1⟩
    · cases h
  · split at h
    · next hgood => simpa using ⟨hgood.1, hgood.2.1, hgood.2.2.1⟩
    · cases h
  · cases h

lemma decodeCodepoint_append_sep (first : Char) (rest text : Text) :
    decodeCodepoint first (rest ++ sep :: text) = decodeCodepoint first rest := by
  have hread : (if (rest ++ sep :: text).length + 1 < sequenceLength first.toNat then none
      else utf8Decode first ((rest ++ sep :: text).take (sequenceLength first.toNat - 1))) =
      if rest.length + 1 < sequenceLength first.toNat then none
      else utf8Decode first (rest.take (sequenceLength first.toNat - 1)) := by
    generalize sequenceLength first.toNat = len
    by_cases hshort : rest.length + 1 < len
    · rw [if_pos hshort]
      split
      · rfl
      · cases hdecode : utf8Decode first ((rest ++ sep :: text).take (len - 1)) with
        | none => rfl
        | some codepoint =>
          have hmem : sep ∈ (rest ++ sep :: text).take (len - 1) := by
            rw [take_append, mem_append]
            obtain ⟨k, hk⟩ : ∃ k, len - 1 - rest.length = k + 1 :=
              ⟨len - 1 - rest.length - 1, by omega⟩
            rw [hk, take_succ_cons]
            exact .inr mem_cons_self
          exact absurd (utf8Decode_continuation hdecode sep hmem) (by decide)
    · have hlong : ¬ (rest ++ sep :: text).length + 1 < len := by
        rw [length_append]
        omega
      rw [if_neg hshort, if_neg hlong, take_append_of_le_length (by omega)]
  unfold decodeCodepoint
  dsimp only
  rw [hread]

lemma decodeCodepoint_len (first : Char) (rest : Text) :
    (decodeCodepoint first rest).len - 1 ≤ rest.length := by
  unfold decodeCodepoint
  dsimp only
  by_cases hshort : rest.length + 1 < sequenceLength first.toNat
  · rw [if_pos hshort]
    exact Nat.zero_le _
  · rw [if_neg hshort]
    split
    · dsimp only
      omega
    · exact Nat.zero_le _

/-- A separator is read on its own. -/
theorem decode_append_sep (a b : Text) :
    decode (a ++ sep :: b) = decode a ++ sep.toNat :: decode b := by
  induction hlen : a.length using Nat.strongRecOn generalizing a with
  | ind n ih =>
    cases a with
    | nil =>
      rw [nil_append, decode, decode]
      rfl
    | cons first rest =>
      have hdrop := decodeCodepoint_len first rest
      rw [cons_append, decode, decode, decodeCodepoint_append_sep, drop_append_of_le_length hdrop]
      have hrest := ih (rest.drop ((decodeCodepoint first rest).len - 1)).length
        (by rw [length_drop, ← hlen, length_cons]; omega) _ rfl
      rw [hrest, cons_append]

-- ══ Paths above and below

lemma mem_parents {path parent : Text} :
    parent ∈ parents path ↔ parent ≠ [] ∧ ∃ rest, path = parent ++ sep :: rest := by
  simp only [parents, mem_map, mem_filter, mem_range, decide_eq_true_eq]
  constructor
  · rintro ⟨i, ⟨hi, hsep, hne⟩, rfl⟩
    obtain ⟨hi', hget⟩ := List.getElem?_eq_some_iff.mp hsep
    refine ⟨?_, path.drop (i + 1), ?_⟩
    · intro hnil
      rcases take_eq_nil_iff.mp hnil with rfl | rfl
      · exact hne rfl
      · exact absurd hi (Nat.not_lt_zero _)
    · rw [← hget, ← drop_eq_getElem_cons hi', take_append_drop]
  · rintro ⟨hne, rest, rfl⟩
    refine ⟨parent.length, ⟨?_, ?_, ?_⟩, take_left⟩
    · rw [length_append, length_cons]
      omega
    · rw [List.getElem?_append_right le_rfl, Nat.sub_self]
      rfl
    · exact fun h => hne (length_eq_zero_iff.mp h)

section Below

variable {pattern : Pattern} {directory rest : Text}

/-- What matches a path or a directory above it. -/
theorem matchesOrParent_iff {path : Text} (hpath : path ≠ dot) :
    pattern.matchesOrParent path = true ↔ pattern.matches path = true ∨
      ∃ parent rest, parent ≠ [] ∧ path = parent ++ sep :: rest ∧
        pattern.matches parent = true := by
  rw [Pattern.matchesOrParent, if_neg hpath, Bool.or_eq_true, any_eq_true]
  refine or_congr_right ⟨?_, ?_⟩
  · rintro ⟨parent, hmem, hmatch⟩
    obtain ⟨hne, rest, hsplit⟩ := mem_parents.mp hmem
    exact ⟨parent, rest, hne, hsplit, hmatch⟩
  · rintro ⟨parent, rest, hne, hsplit, hmatch⟩
    exact ⟨parent, mem_parents.mpr ⟨hne, rest, hsplit⟩, hmatch⟩

lemma readPath_append_sep (hread : (pattern.readPath (directory ++ sep :: rest) false).isSome) :
    (pattern.readPath directory true).isSome := by
  unfold Pattern.readPath at hread ⊢
  rw [decode_append_sep] at hread
  simp only [Bool.false_eq_true, if_false, append_nil, if_true] at hread ⊢
  rw [← singleton_append, ← append_assoc, foldlM_append] at hread
  exact Option.isSome_of_isSome_bind hread

lemma closeToken_of_mem {states : States} {token : Token × ℕ} {i : ℕ} (h : states i = true) :
    closeToken states token i = true := by
  obtain ⟨token, k⟩ := token
  unfold closeToken
  split
  · cases token
    all_goals simp [States.mark, h]
  · exact h

lemma epsilonClosure_of_mem {tokens : List Token} {states : States} {i : ℕ}
    (h : states i = true) : epsilonClosure tokens states i = true := by
  unfold epsilonClosure
  induction tokens.zipIdx generalizing states with
  | nil => exact h
  | cons token tokens ih => exact ih (closeToken_of_mem h)

lemma Token.destinations_le {token : Token} {i codepoint j : ℕ}
    (h : j ∈ token.destinations i codepoint) : j ≤ i + 1 := by
  cases token
  all_goals
    simp only [Token.destinations] at h
    try split at h
  all_goals
    simp only [mem_cons, not_mem_nil, or_false] at h
    try omega

lemma advance_active {tokens : List Token} {active next : States} {codepoint : ℕ}
    (h : advance tokens active codepoint = some next) :
    (List.range (tokens.length + 1)).any next = true := by
  unfold advance at h
  dsimp only at h
  split at h
  · cases h
  · next hne =>
    cases h
    obtain ⟨i, hi⟩ := exists_mem_of_ne_nil _ hne
    obtain ⟨token, htoken, hdest⟩ := mem_flatMap.mp hi
    have hbound := snd_lt_of_mem_zipIdx htoken
    split at hdest
    · have hle := Token.destinations_le hdest
      refine any_eq_true.mpr ⟨i, mem_range.mpr (by omega), ?_⟩
      exact epsilonClosure_of_mem (decide_eq_true hi)
    · cases hdest

/-- A directory above a path that matches is not given up. -/
theorem couldMatchDescendant_of_matches (h : pattern.matches (directory ++ sep :: rest) = true) :
    pattern.couldMatchDescendant directory = true := by
  unfold Pattern.matches Pattern.matchPath at h
  unfold Pattern.couldMatchDescendant Pattern.matchPath
  split at h
  · cases h
  · next hlen =>
    rw [if_neg hlen]
    have hread : (pattern.readPath (directory ++ sep :: rest) false).isSome := by
      cases hread : pattern.readPath (directory ++ sep :: rest) false with
      | none =>
        rw [hread] at h
        cases h
      | some active => rfl
    obtain ⟨active, hactive⟩ := Option.isSome_iff_exists.mp (readPath_append_sep hread)
    rw [hactive]
    dsimp only
    rw [if_neg (by decide)]
    unfold Pattern.readPath at hactive
    rw [if_pos rfl, foldlM_append] at hactive
    obtain ⟨before, -, hlast⟩ := Option.bind_eq_some_iff.mp hactive
    simp only [foldlM_cons, foldlM_nil, Option.bind_eq_bind] at hlast
    obtain ⟨next, hnext, hsame⟩ := Option.bind_eq_some_iff.mp hlast
    cases hsame
    exact advance_active hnext

end Below

-- ══ Cleaned patterns

section Cleaning

open Lib.PathText

/-- One round of the loop of `cleanDockerignorePattern`. -/
def cleanComponent (raw : Text) (kept : List Text) (component : Text) : List Text :=
  if component = [] ∨ component = dot then kept
  else if component = dotDot then
    if kept ≠ [] ∧ kept.getLast? ≠ some dotDot then kept.dropLast
    else if raw.head? ≠ some sep then kept ++ [component]
    else kept
  else kept ++ [component]

def cleanDockerignorePattern (raw : Text) : Text :=
  let kept := (components raw).foldl (cleanComponent raw) []
  if kept = [] then dot else written kept

/-- Leading parents, none for a pattern that starts with a slash, and then names. -/
def Cleaned (raw : Text) (kept : List Text) : Prop :=
  ∃ parents names, kept = parents ++ names ∧
    (∀ parent ∈ parents, parent = dotDot ∧ raw.head? ≠ some sep) ∧ ∀ name ∈ names, Plain name

variable {raw : Text} {kept : List Text}

lemma not_pops (h : ∀ parent ∈ kept, parent = dotDot) :
    ¬(kept ≠ [] ∧ kept.getLast? ≠ some dotDot) := by
  rintro ⟨hne, hlast⟩
  rw [getLast?_eq_getLast_of_ne_nil hne] at hlast
  exact hlast (congrArg some (h _ (getLast_mem hne)))

lemma Cleaned.component (h : Cleaned raw kept) {component : Text} (hsep : sep ∉ component) :
    Cleaned raw (cleanComponent raw kept component) := by
  obtain ⟨parents, names, rfl, hparents, hnames⟩ := h
  unfold cleanComponent
  split
  · exact ⟨parents, names, rfl, hparents, hnames⟩
  next hname =>
  rw [not_or] at hname
  split
  · next hparent =>
    rcases eq_nil_or_concat names with rfl | ⟨before, name, rfl⟩
    · -- Only parents are kept, so a further one is kept too.
      rw [append_nil, if_neg (not_pops fun parent hmem => (hparents parent hmem).1)]
      split
      · next habsolute =>
        refine ⟨parents ++ [component], [], by simp, fun parent hmem => ?_, hnames⟩
        rcases mem_append.mp hmem with hmem | hmem
        · exact hparents parent hmem
        · exact ⟨(mem_singleton.mp hmem).trans hparent, habsolute⟩
      · exact ⟨parents, [], by simp, hparents, hnames⟩
    · have hplain := hnames name (by simp)
      rw [if_pos (by simp [hplain.ne_dotDot])]
      refine ⟨parents, before, by simp [← append_assoc], hparents, fun n hn => ?_⟩
      exact hnames n (by simp [hn])
  · next hparent =>
    refine ⟨parents, names ++ [component], by simp, hparents, fun n hn => ?_⟩
    rcases mem_append.mp hn with hn | hn
    · exact hnames n hn
    · rw [mem_singleton.mp hn]
      exact ⟨hname.1, hsep, hname.2, hparent⟩

lemma cleaned_foldl (raw : Text) :
    Cleaned raw ((components raw).foldl (cleanComponent raw) []) := by
  have hall : ∀ parts : List Text, (∀ part ∈ parts, sep ∉ part) → ∀ kept, Cleaned raw kept →
      Cleaned raw (parts.foldl (cleanComponent raw) kept) := by
    intro parts
    induction parts with
    | nil => exact fun _ _ h => h
    | cons part parts ih =>
      intro hparts kept h
      obtain ⟨hpart, hparts⟩ := forall_mem_cons.mp hparts
      exact ih hparts _ (h.component hpart)
  exact hall _ (fun _ => no_sep_of_mem_components) _ ⟨[], [], rfl, by simp, by simp⟩

/-- Components that are cleaned already are all kept. -/
theorem foldl_cleaned (h : Cleaned raw kept) {other : Text} (hother : other.head? ≠ some sep) :
    kept.foldl (cleanComponent other) [] = kept := by
  obtain ⟨parents, names, rfl, hparents, hnames⟩ := h
  induction names using reverseRecOn with
  | nil =>
    rw [append_nil]
    induction parents using reverseRecOn with
    | nil => rfl
    | append_singleton parents parent ih =>
      have hall : ∀ p ∈ parents, p = dotDot := fun p hp => (hparents p (by simp [hp])).1
      rw [foldl_append, ih fun p hp => hparents p (by simp [hp]), foldl_cons,
        (hparents parent (by simp)).1, cleanComponent, if_neg (by decide), if_pos rfl,
        if_neg (not_pops hall), if_pos hother, foldl_nil]
  | append_singleton names name ih =>
    have hname := hnames name (by simp)
    rw [← append_assoc, foldl_append, ih fun n hn => hnames n (by simp [hn])]
    simp [cleanComponent, hname.nonempty, hname.ne_dot, hname.ne_dotDot]

lemma Cleaned.part (h : Cleaned raw kept) {part : Text} (hpart : part ∈ kept) :
    part ≠ [] ∧ sep ∉ part := by
  obtain ⟨parents, names, rfl, hparents, hnames⟩ := h
  rcases mem_append.mp hpart with hpart | hpart
  · rw [(hparents part hpart).1]
    decide
  · exact ⟨(hnames part hpart).nonempty, (hnames part hpart).no_sep⟩

/-- **Cleaning patterns.** A cleaned pattern is `.`, or its components are leading parents, of which
a pattern that starts with a slash has none, and then names; and cleaning it again changes
nothing. -/
theorem cleanDockerignorePattern_idempotent (raw : Text) :
    cleanDockerignorePattern (cleanDockerignorePattern raw) = cleanDockerignorePattern raw ∧
      (cleanDockerignorePattern raw = dot ∨
        Cleaned raw (components (cleanDockerignorePattern raw))) := by
  have h := cleaned_foldl raw
  by_cases hnil : (components raw).foldl (cleanComponent raw) [] = []
  · have hdot : cleanDockerignorePattern raw = dot := by
      rw [cleanDockerignorePattern, if_pos hnil]
    exact ⟨by rw [hdot]; decide, .inl hdot⟩
  · have hwritten : cleanDockerignorePattern raw =
        written ((components raw).foldl (cleanComponent raw) []) := by
      rw [cleanDockerignorePattern, if_neg hnil]
    rw [hwritten]
    generalize (components raw).foldl (cleanComponent raw) [] = kept at h hnil
    have hparts := components_written hnil fun part hpart => (h.part hpart).2
    have hhead : (written kept).head? ≠ some sep := by
      match kept, hnil with
      | [part], _ => exact head_of_no_sep (h.part mem_cons_self).2
      | first :: second :: rest, _ =>
        have hfirst := h.part (mem_cons_self : first ∈ _)
        rw [written_cons, head?_append_of_ne_nil _ hfirst.1]
        exact head_of_no_sep hfirst.2
    refine ⟨?_, .inr (by rwa [hparts])⟩
    rw [cleanDockerignorePattern, hparts, foldl_cleaned h hhead, if_neg hnil]

end Cleaning

end SporeVM.PathPattern
