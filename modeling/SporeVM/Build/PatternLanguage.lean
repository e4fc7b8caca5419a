import SporeVM.Build.Patterns
import SporeVM.Lib.Residual

/-!
# The language of a pattern

What a pattern stands for is said piece by piece from its text. The matcher is an automaton whose
states are the places between its tokens; it closes them under the edges that read nothing in one
pass over the tokens, which is enough because those edges lead forward.
-/

namespace SporeVM.PathPattern

open Lib
open Lib.PathText (Text sep)
open Lib.Automaton (residual letter run upTo)
open List hiding not_lt
open Check (bind_ok rejectIf_ok rejectIf)

-- ══ What a pattern stands for

inductive Piece
  | literal (codepoint : ℕ)
  | any
  | run
  | characterClass (cls : CharacterClass)
  | directories
  | anything

def CharacterClass.Contains (cls : CharacterClass) (codepoint : ℕ) : Prop :=
  (∃ range ∈ cls.ranges, range.first ≤ codepoint ∧ codepoint ≤ range.last) ↔ cls.negated = false

def Piece.language : Piece → Language ℕ
  | .literal codepoint => letter (· = codepoint)
  | .any => letter (· ≠ sep.toNat)
  | .run => Automaton.run (· ≠ sep.toNat)
  | .characterClass cls => letter cls.Contains
  | .directories => 1 + upTo (· = sep.toNat)
  | .anything => Automaton.run fun _ => True

/-- A character of a class and the text behind it: a code point, whose text starts with `-`, `]` or
a backslash only behind a backslash. -/
inductive ReadsMember : Text → ℕ → Text → Prop
  | plain {first : Char} {rest : Text} (hplain : first ∉ ['-', ']', '\\'])
      (hvalid : (decodeCodepoint first rest).codepoint ≤ 0x10FFFF) :
      ReadsMember (first :: rest) (decodeCodepoint first rest).codepoint
        (rest.drop ((decodeCodepoint first rest).len - 1))
  | escaped {first : Char} {rest : Text}
      (hvalid : (decodeCodepoint first rest).codepoint ≤ 0x10FFFF) :
      ReadsMember ('\\' :: first :: rest) (decodeCodepoint first rest).codepoint
        (rest.drop ((decodeCodepoint first rest).len - 1))

/-- One character, or two that are in order with a `-` between them. -/
inductive ReadsRange : Text → Range → Text → Prop
  | single {text behind : Text} {c : ℕ} (h : ReadsMember text c behind)
      (hsingle : behind.head? ≠ some '-') : ReadsRange text ⟨c, c⟩ behind
  | between {text middle behind : Text} {first last : ℕ}
      (hfirst : ReadsMember text first ('-' :: middle)) (hlast : ReadsMember middle last behind)
      (hle : first ≤ last) : ReadsRange text ⟨first, last⟩ behind

inductive ReadsRanges : Text → List Range → Text → Prop
  | close {behind : Text} : ReadsRanges (']' :: behind) [] behind
  | range {text middle behind : Text} {range : Range} {ranges : List Range}
      (h : ReadsRange text range middle) (hrest : ReadsRanges middle ranges behind) :
      ReadsRanges text (range :: ranges) behind

/-- What follows a `[`: at least one range up to a `]`, negated by a leading `^`. -/
inductive ReadsClass : Text → CharacterClass → Text → Prop
  | plain {text behind : Text} {ranges : List Range} (hplain : text.head? ≠ some '^')
      (h : ReadsRanges text ranges behind) (hsome : ranges ≠ []) :
      ReadsClass text ⟨false, ranges⟩ behind
  | negated {text behind : Text} {ranges : List Range} (h : ReadsRanges text ranges behind)
      (hsome : ranges ≠ []) : ReadsClass ('^' :: text) ⟨true, ranges⟩ behind

/-- The first piece of a text and the text behind it. -/
inductive Reads (mode : Mode) : Text → Piece → Text → Prop
  | literal {first : Char} {rest : Text} (hplain : first ∉ ['*', '?', '[', '\\']) :
      Reads mode (first :: rest) (.literal (decodeCodepoint first rest).codepoint)
        (rest.drop ((decodeCodepoint first rest).len - 1))
  | escaped {first : Char} {rest : Text} :
      Reads mode ('\\' :: first :: rest) (.literal (decodeCodepoint first rest).codepoint)
        (rest.drop ((decodeCodepoint first rest).len - 1))
  | any {rest : Text} : Reads mode ('?' :: rest) .any rest
  | characterClass {rest behind : Text} {cls : CharacterClass}
      (hclass : ReadsClass rest cls behind) :
      Reads mode ('[' :: rest) (.characterClass cls) behind
  | run {rest : Text} (hsingle : ¬ (mode = .dockerignore ∧ rest.head? = some '*')) :
      Reads mode ('*' :: rest) .run rest
  | directories {rest : Text} (hmode : mode = .dockerignore) :
      Reads mode ('*' :: '*' :: '/' :: rest) .directories rest
  | anything {rest : Text} (hmode : mode = .dockerignore) (hother : rest.head? ≠ some '/') :
      Reads mode ('*' :: '*' :: rest) .anything rest

/-- The words that a text stands for: one of its first piece, and then one of the text behind it. -/
inductive InLanguage (mode : Mode) : Text → List ℕ → Prop
  | nil : InLanguage mode [] []
  | piece {text behind : Text} {piece : Piece} {front rest : List ℕ}
      (hreads : Reads mode text piece behind) (hfront : front ∈ piece.language)
      (hrest : InLanguage mode behind rest) : InLanguage mode text (front ++ rest)

variable {mode : Mode} {text behind : Text} {piece : Piece} {result : List Token × Text}

-- ══ Reading a class

section Classes

variable {c : ℕ} {range : Range} {ranges : List Range} {cls : CharacterClass}

lemma decodeClassCodepoint_iff :
    decodeClassCodepoint text = .ok (c, behind) ↔ ReadsMember text c behind := by
  constructor
  · intro h
    unfold decodeClassCodepoint at h
    split at h
    · cases h
    next first rest =>
    split_ifs at h with hspecial hescape
    · subst hescape
      dsimp only at h
      split at h
      · cases h
      obtain ⟨_, hvalid, h⟩ := bind_ok.mp h
      cases h
      exact .escaped (not_lt.mp (rejectIf_ok.mp hvalid))
    · obtain ⟨_, hvalid, h⟩ := bind_ok.mp h
      cases h
      exact .plain (by simp_all) (not_lt.mp (rejectIf_ok.mp hvalid))
  · intro h
    cases h with
    | plain hplain hvalid =>
      simp only [mem_cons, not_mem_nil, or_false, not_or] at hplain
      simp [decodeClassCodepoint, rejectIf, hplain, not_lt.mpr hvalid]
    | escaped hvalid => simp [decodeClassCodepoint, rejectIf, not_lt.mpr hvalid]

lemma parseRange_iff : parseRange text = .ok (range, behind) ↔ ReadsRange text range behind := by
  constructor
  · intro h
    obtain ⟨⟨first, middle⟩, hfirst, h⟩ := bind_ok.mp h
    rw [decodeClassCodepoint_iff] at hfirst
    dsimp only at h
    split at h
    · obtain ⟨⟨last, rest⟩, hlast, h⟩ := bind_ok.mp h
      obtain ⟨_, hle, h⟩ := bind_ok.mp h
      cases h
      rw [decodeClassCodepoint_iff] at hlast
      exact .between hfirst hlast (not_lt.mp (rejectIf_ok.mp hle))
    · next hsingle =>
      cases h
      refine .single hfirst fun hhead => ?_
      obtain ⟨rest, rfl⟩ := head?_eq_some_iff.mp hhead
      exact hsingle rest rfl
  · intro h
    cases h with
    | single h hsingle =>
      refine bind_ok.mpr ⟨_, decodeClassCodepoint_iff.mpr h, ?_⟩
      dsimp only
      split
      · exact absurd rfl hsingle
      · rfl
    | between hfirst hlast hle =>
      refine bind_ok.mpr ⟨_, decodeClassCodepoint_iff.mpr hfirst, ?_⟩
      refine bind_ok.mpr ⟨_, decodeClassCodepoint_iff.mpr hlast, ?_⟩
      exact bind_ok.mpr ⟨(), rejectIf_ok.mpr (not_lt.mpr hle), rfl⟩

lemma ReadsMember.length_lt (h : ReadsMember text c behind) : behind.length < text.length := by
  cases h <;> simp only [length_drop, length_cons] <;> omega

lemma ReadsRange.length_lt (h : ReadsRange text range behind) : behind.length < text.length := by
  cases h with
  | single h => exact h.length_lt
  | between hfirst hlast =>
    have hmiddle := hfirst.length_lt
    rw [length_cons] at hmiddle
    exact hlast.length_lt.trans (Nat.lt_of_succ_lt hmiddle)

lemma ReadsRange.head (h : ReadsRange text range behind) :
    ∃ first rest, text = first :: rest ∧ first ≠ ']' := by
  have hmember : ∀ {c behind}, ReadsMember text c behind →
      ∃ first rest, text = first :: rest ∧ first ≠ ']' := by
    rintro c behind (⟨hplain, -⟩ | -)
    · exact ⟨_, _, rfl, fun h => hplain (by simp [h])⟩
    · exact ⟨_, _, rfl, by decide⟩
  cases h with
  | single h => exact hmember h
  | between h => exact hmember h

lemma ReadsRanges.ne_nil (h : ReadsRanges text ranges behind) : text ≠ [] := by
  cases h with
  | close => exact cons_ne_nil _ _
  | range h =>
    obtain ⟨first, rest, rfl, -⟩ := h.head
    exact cons_ne_nil _ _

lemma parseRanges_iff {fuel : ℕ} (hfuel : text.length ≤ fuel) {before all : List Range} :
    parseRanges fuel text before = .ok (all, behind) ↔
      ∃ ranges, ReadsRanges text ranges behind ∧ all = before ++ ranges ∧ all ≠ [] := by
  have hnil : ∀ fuel before, parseRanges fuel [] before = .ok (all, behind) ↔
      ∃ ranges, ReadsRanges [] ranges behind ∧ all = before ++ ranges ∧ all ≠ [] := by
    intro fuel before
    constructor
    · cases fuel <;> exact nofun
    · rintro ⟨ranges, h, -⟩
      exact absurd rfl h.ne_nil
  induction fuel generalizing text before with
  | zero =>
    obtain rfl : text = [] := length_eq_zero_iff.mp (Nat.le_zero.mp hfuel)
    exact hnil 0 before
  | succ fuel ih =>
    cases text with
    | nil => exact hnil (fuel + 1) before
    | cons c cs =>
      by_cases hclose : c = ']'
      · subst hclose
        rw [parseRanges, if_pos rfl]
        constructor
        · intro h
          obtain ⟨_, hsome, h⟩ := bind_ok.mp h
          cases h
          exact ⟨[], .close, (append_nil _).symm, rejectIf_ok.mp hsome⟩
        · rintro ⟨ranges, h, rfl, hsome⟩
          cases h with
          | close =>
            rw [append_nil] at hsome ⊢
            exact bind_ok.mpr ⟨(), rejectIf_ok.mpr hsome, rfl⟩
          | range h =>
            obtain ⟨first, rest, heq, hne⟩ := h.head
            exact absurd (List.cons.inj heq).1.symm hne
      · rw [parseRanges, if_neg hclose]
        have hshort : ∀ {range middle}, ReadsRange (c :: cs) range middle →
            middle.length ≤ fuel := fun h => Nat.le_of_lt_succ (h.length_lt.trans_le hfuel)
        constructor
        · intro h
          obtain ⟨⟨range, middle⟩, hrange, h⟩ := bind_ok.mp h
          rw [parseRange_iff] at hrange
          obtain ⟨ranges, hrest, rfl, hsome⟩ := (ih (hshort hrange)).mp h
          exact ⟨range :: ranges, .range hrange hrest, append_assoc _ _ _, hsome⟩
        · rintro ⟨ranges, h, rfl, hsome⟩
          cases h with
          | close => exact absurd rfl hclose
          | range hrange hrest =>
            refine bind_ok.mpr ⟨_, parseRange_iff.mpr hrange, ?_⟩
            exact (ih (hshort hrange)).mpr ⟨_, hrest, (append_assoc _ [_] _).symm, hsome⟩

/-- The parser of classes reads their grammar. -/
theorem parseCharacterClass_iff :
    parseCharacterClass text = .ok (cls, behind) ↔ ReadsClass text cls behind := by
  constructor
  · intro h
    obtain ⟨⟨ranges, rest⟩, hranges, h⟩ := bind_ok.mp h
    cases h
    by_cases hhead : text.head? = some '^'
    · obtain ⟨rest, rfl⟩ := head?_eq_some_iff.mp hhead
      obtain ⟨_, h, rfl, hsome⟩ := (parseRanges_iff (by simp)).mp hranges
      exact .negated h hsome
    · simp only [hhead, decide_false, Bool.false_eq_true, if_false] at hranges ⊢
      obtain ⟨_, h, rfl, hsome⟩ := (parseRanges_iff le_rfl).mp hranges
      exact .plain hhead h hsome
  · intro h
    cases h with
    | @plain _ _ ranges hplain h hsome =>
      have hranges := (parseRanges_iff le_rfl).mpr ⟨_, h, (nil_append _).symm, hsome⟩
      refine bind_ok.mpr ⟨(ranges, behind), ?_, ?_⟩
      · simpa only [hplain, decide_false, Bool.false_eq_true, if_false] using hranges
      · simp only [hplain, decide_false]
        rfl
    | negated h hsome =>
      exact bind_ok.mpr ⟨_, (parseRanges_iff (by simp)).mpr ⟨_, h, rfl, hsome⟩, rfl⟩

end Classes

lemma Reads.unique {behind' : Text} {piece' : Piece} (h : Reads mode text piece behind)
    (h' : Reads mode text piece' behind') : piece = piece' ∧ behind = behind' := by
  cases h <;> cases h' <;> simp_all [← parseCharacterClass_iff]

def language (mode : Mode) (text : Text) : Language ℕ := { w | InLanguage mode text w }

@[simp] lemma language_nil (mode : Mode) : language mode [] = 1 := by
  ext w
  constructor
  · intro (h : InLanguage mode [] w)
    generalize htext : ([] : Text) = text at h
    cases h with
    | nil => rfl
    | piece hreads => cases hreads <;> cases htext
  · rintro rfl
    exact .nil

lemma Reads.language_eq (h : Reads mode text piece behind) :
    language mode text = piece.language * language mode behind := by
  ext w
  constructor
  · intro (hw : InLanguage mode text w)
    cases hw with
    | nil => cases h
    | piece hreads hfront hrest =>
      obtain ⟨rfl, rfl⟩ := h.unique hreads
      exact ⟨_, hfront, _, hrest, rfl⟩
  · rintro ⟨front, hfront, rest, hrest, rfl⟩
    exact .piece h hfront hrest

-- ══ The matcher and its automaton

def Token.skips (token : Token) (i : ℕ) : List ℕ :=
  match token with
  | .star | .globstar => [i + 1]
  | .split target => [i + 1, target]
  | _ => []

def Token.targets (token : Token) (i : ℕ) : Option ℕ → List ℕ
  | none => token.skips i
  | some codepoint => token.destinations i codepoint

/-- The automaton of a list of tokens: its states are the places in front of them and the one
behind the last. -/
def automaton (tokens : List Token) : εNFA ℕ ℕ where
  step i letter := { j | ∃ token, tokens[i]? = some token ∧ j ∈ token.targets i letter }
  start := {0}
  accept := {tokens.length}

def States.places (states : States) : Set ℕ := { i | states i = true }

section Running

variable {tokens : List Token}

def Forward (tokens : List Token) : Prop :=
  ∀ (i : ℕ) (token : Token), tokens[i]? = some token → ∀ j ∈ token.skips i, i < j

lemma closeToken_places (states : States) (token : Token) (i : ℕ) :
    (closeToken states (token, i)).places =
      states.places ∪ { j | i ∈ states.places ∧ j ∈ token.skips i } := by
  ext j
  simp only [closeToken, States.places, Set.mem_ofPred_eq, Set.mem_union]
  by_cases hi : states i = true
  · rw [if_pos hi]
    cases token <;> simp [Token.skips, States.mark, hi] <;> tauto
  · simp [hi]

lemma epsilonClosure_places (hforward : Forward tokens) (states : States) :
    (epsilonClosure tokens states).places = (automaton tokens).εClosure states.places := by
  have hpass := Automaton.εClosure_of_pass (M := automaton tokens) (n := tokens.length)
    (fun k => ((tokens.take k).zipIdx.foldl closeToken states).places) ?_ rfl ?_
  · rwa [take_length] at hpass
  · rintro i j ⟨token, htoken, hj⟩
    exact ⟨hforward i token htoken j hj, (List.getElem?_eq_some_iff.mp htoken).1⟩
  · intro i hi
    have hget : tokens[i]? = some tokens[i] := List.getElem?_eq_getElem hi
    rw [← take_concat_get' tokens i hi, zipIdx_append, foldl_append,
      length_take, Nat.min_eq_left hi.le]
    have hedge (j : ℕ) : j ∈ (automaton tokens).step i none ↔ j ∈ tokens[i].skips i := by
      simp [automaton, hget, Token.targets]
    simp only [hedge, ← closeToken_places]
    simp

lemma mem_stepSet {active : States} {codepoint j : ℕ} :
    j ∈ (automaton tokens).stepSet active.places codepoint ↔ j ∈ (automaton tokens).εClosure
      { k | ∃ i, active i = true ∧ k ∈ (automaton tokens).step i (some codepoint) } := by
  rw [εNFA.mem_stepSet_iff, εNFA.mem_εClosure_iff_exists]
  constructor
  · rintro ⟨i, hi, hj⟩
    obtain ⟨k, hk, hj⟩ := (εNFA.mem_εClosure_iff_exists _).mp hj
    exact ⟨k, ⟨i, hi, hk⟩, hj⟩
  · rintro ⟨k, ⟨i, hi, hk⟩, hj⟩
    exact ⟨i, hi, (εNFA.mem_εClosure_iff_exists _).mpr ⟨k, hk, hj⟩⟩

lemma advance_places (hforward : Forward tokens) (active : States) (codepoint : ℕ) :
    (automaton tokens).stepSet active.places codepoint =
      ((advance tokens active codepoint).map States.places).getD ∅ := by
  have hnext (j : ℕ) : (j ∈ tokens.zipIdx.flatMap fun token =>
      if active token.2 = true then token.1.destinations token.2 codepoint else []) ↔
      ∃ i, active i = true ∧ j ∈ (automaton tokens).step i (some codepoint) := by
    simp only [mem_flatMap, Prod.exists, List.mem_zipIdx_iff_getElem?, automaton,
      Token.targets, Set.mem_ofPred_eq]
    constructor
    · rintro ⟨token, i, htoken, hj⟩
      split at hj
      · next hi => exact ⟨i, hi, token, htoken, hj⟩
      · cases hj
    · rintro ⟨i, hi, token, htoken, hj⟩
      exact ⟨token, i, htoken, by rwa [if_pos hi]⟩
  ext j
  rw [mem_stepSet, advance]
  split
  · next hnone =>
    have hempty : { k | ∃ i, active i = true ∧ k ∈ (automaton tokens).step i (some codepoint) } =
        (∅ : Set ℕ) := by
      ext k
      rw [Set.mem_ofPred_eq, ← hnext, hnone]
      simp
    rw [hempty, εNFA.εClosure_empty]
    rfl
  · rw [Option.map_some, Option.getD_some, epsilonClosure_places hforward]
    simp only [States.places, decide_eq_true_eq, hnext]

lemma readPath_places (hforward : Forward tokens) (w : List ℕ) (active : States) :
    w.foldl (automaton tokens).stepSet active.places =
      ((w.foldlM (advance tokens) active).map States.places).getD ∅ := by
  have hdead (v : List ℕ) : v.foldl (automaton tokens).stepSet ∅ = ∅ := by
    induction v with
    | nil => rfl
    | cons c v ih => rw [foldl_cons, εNFA.stepSet_empty, ih]
  induction w generalizing active with
  | nil => rfl
  | cons c w ih =>
    rw [foldl_cons, foldlM_cons, advance_places hforward]
    cases advance tokens active c with
    | none => exact hdead w
    | some next => exact ih next

/-- The matcher runs the automaton of its tokens. -/
theorem matches_iff_accepts {pattern : Pattern} (hforward : Forward pattern.tokens)
    (hsmall : pattern.tokens.length ≤ maxPatternTokens) (path : Text) :
    pattern.matches path = true ↔ decode path ∈ residual (automaton pattern.tokens) 0 := by
  have hstart : pattern.startStates.places = (automaton pattern.tokens).εClosure {0} := by
    rw [Pattern.startStates, epsilonClosure_places hforward]
    congr 1
    ext i
    simp [States.places]
  have hrun : decode path ∈ residual (automaton pattern.tokens) 0 ↔ pattern.tokens.length ∈
      (decode path).foldl (automaton pattern.tokens).stepSet pattern.startStates.places := by
    rw [hstart]
    change (∃ t ∈ ({pattern.tokens.length} : Set ℕ), t ∈ _) ↔ _
    simp only [Set.mem_singleton_iff, exists_eq_left]
    rfl
  rw [hrun, readPath_places hforward, Pattern.matches, Pattern.matchPath,
    if_neg (Nat.not_lt.mpr hsmall), Pattern.readPath]
  simp only [Bool.false_eq_true, if_false, append_nil, if_true]
  cases (decode path).foldlM (advance pattern.tokens) pattern.startStates with
  | none => simp
  | some active => rfl

end Running

-- ══ The tokens of a piece

def Piece.tokens (piece : Piece) (place : ℕ) : List Token :=
  match piece with
  | .literal codepoint => [.literal codepoint]
  | .any => [.any]
  | .run => [.star]
  | .characterClass cls => [.characterClass cls]
  | .directories => [.split (place + 2), .globstarUntilSlash]
  | .anything => [.globstar]

lemma CharacterClass.matches_iff {cls : CharacterClass} {codepoint : ℕ} :
    cls.matches codepoint = true ↔ cls.Contains codepoint := by
  rw [CharacterClass.matches, CharacterClass.Contains]
  cases cls.negated <;> simp

section Pieces

variable {tokens : List Token} {token : Token} {i : ℕ} {p : ℕ → Prop}

lemma not_accept (h : tokens[i]? = some token) : i ∉ (automaton tokens).accept :=
  fun hacc => by simp [show i = tokens.length from hacc] at h

lemma step_eq (h : tokens[i]? = some token) (letter : Option ℕ) :
    (automaton tokens).step i letter = { j | j ∈ token.targets i letter } := by
  ext j
  simp [automaton, h]

lemma residual_letter (h : tokens[i]? = some token) (hskips : token.skips i = [])
    (hreads : ∀ c j, j ∈ token.destinations i c ↔ p c ∧ j = i + 1) :
    residual (automaton tokens) i = letter p * residual (automaton tokens) (i + 1) := by
  refine Automaton.residual_read (not_accept h) ?_ fun c => ?_
  · simp [step_eq h, Token.targets, hskips]
  · simp [step_eq h, Token.targets, hreads]

lemma residual_run (h : tokens[i]? = some token) (hskips : token.skips i = [i + 1])
    (hreads : ∀ c j, j ∈ token.destinations i c ↔ p c ∧ j = i) :
    residual (automaton tokens) i = Automaton.run p * residual (automaton tokens) (i + 1) := by
  refine Automaton.residual_loop (not_accept h) ?_ fun c => ?_
  · simp [step_eq h, Token.targets, hskips]
  · simp [step_eq h, Token.targets, hreads]

lemma residual_directories (h : tokens[i]? = some (.split (i + 2)))
    (h' : tokens[i + 1]? = some .globstarUntilSlash) : residual (automaton tokens) i =
      (1 + upTo (· = sep.toNat)) * residual (automaton tokens) (i + 2) := by
  have hthrough : residual (automaton tokens) (i + 1) =
      upTo (· = sep.toNat) * residual (automaton tokens) (i + 2) := by
    refine Automaton.residual_until (not_accept h') ?_ fun c => ?_
    · simp [step_eq h', Token.targets, Token.skips]
    · ext j
      by_cases hc : c = sep.toNat <;> simp [step_eq h', Token.targets, Token.destinations, hc]
  rw [add_mul, one_mul, ← hthrough]
  ext w
  rw [Automaton.mem_residual, step_eq h, Language.mem_add]
  simp [step_eq h, Token.targets, Token.skips, Token.destinations, not_accept h, or_comm]

/-- What is accepted in front of a piece is the piece, and then what is accepted behind it. -/
theorem residual_piece
    (h : ∀ k token, (piece.tokens i)[k]? = some token → tokens[i + k]? = some token) :
    residual (automaton tokens) i =
    piece.language * residual (automaton tokens) (i + (piece.tokens i).length) := by
  cases piece with
  | literal codepoint =>
    refine residual_letter (h 0 _ rfl) rfl fun c j => ?_
    simp [Token.destinations, eq_comm]
  | any =>
    refine residual_letter (h 0 _ rfl) rfl fun c j => ?_
    simp [Token.destinations]
  | run =>
    refine residual_run (h 0 _ rfl) rfl fun c j => ?_
    simp [Token.destinations]
  | characterClass cls =>
    refine residual_letter (h 0 _ rfl) rfl fun c j => ?_
    simp [Token.destinations, ← CharacterClass.matches_iff]
  | directories => exact residual_directories (h 0 _ rfl) (h 1 _ rfl)
  | anything =>
    refine residual_run (h 0 _ rfl) rfl fun c j => ?_
    simp [Token.destinations]

end Pieces

-- ══ Compiling

lemma appendToken_ok {tokens tokens' : List Token} {token : Token}
    (h : appendToken tokens token = .ok tokens') :
    tokens' = tokens ++ [token] ∧ tokens'.length ≤ maxPatternTokens := by
  obtain ⟨_, hsmall, hout⟩ := bind_ok.mp h
  cases hout
  have hsmall := rejectIf_ok.mp hsmall
  refine ⟨rfl, ?_⟩
  rw [length_append, length_singleton]
  omega

lemma language_stars (mode : Mode) (rest : Text)
    (hsingle : ¬ (mode = .dockerignore ∧ rest.head? = some '*')) : language mode ('*' :: rest) =
      Piece.run.language * language mode (rest.dropWhile (· = '*')) := by
  rw [(Reads.run hsingle).language_eq]
  induction rest with
  | nil => rfl
  | cons c cs ih =>
    by_cases hc : c = '*'
    · subst hc
      have hmode : ¬ mode = .dockerignore := fun h => hsingle ⟨h, rfl⟩
      rw [dropWhile_cons_of_pos (by simp), ← ih (fun h => hmode h.1),
        (Reads.run (fun h => hmode h.1)).language_eq, ← mul_assoc]
      exact congrArg (· * _) Automaton.run_mul_run
    · rw [dropWhile_cons_of_neg (by simpa using hc)]

def Compiled (mode : Mode) (text : Text) (tokens : List Token) (result : List Token × Text) :
    Prop :=
  ∃ piece : Piece, result.1 = tokens ++ piece.tokens tokens.length ∧
    result.1.length ≤ maxPatternTokens ∧
    language mode text = piece.language * language mode result.2

variable {tokens : List Token}

lemma Compiled.of_append {behind : Text} {token : Token}
    (h : (appendToken tokens token >>= fun tokens => pure (tokens, behind)) = .ok result)
    (htokens : piece.tokens tokens.length = [token])
    (hlanguage : language mode text = piece.language * language mode behind) :
    Compiled mode text tokens result := by
  obtain ⟨tokens', happend, hout⟩ := bind_ok.mp h
  cases hout
  obtain ⟨rfl, hsmall⟩ := appendToken_ok happend
  exact ⟨piece, by rw [htokens], hsmall, hlanguage⟩

lemma compileLiteral_ok {whole : Text}
    (h : compileLiteral tokens text = .ok result) (hreads : ∀ first rest, text = first :: rest →
      Reads mode whole (.literal (decodeCodepoint first rest).codepoint)
      (rest.drop ((decodeCodepoint first rest).len - 1))) : Compiled mode whole tokens result := by
  cases text with
  | nil => cases h
  | cons first rest =>
    exact .of_append h rfl (hreads first rest rfl).language_eq

lemma compileGlobstar_ok (h : compileGlobstar text tokens = .ok result) :
    Compiled .dockerignore ('*' :: '*' :: text) tokens result := by
  unfold compileGlobstar at h
  split at h
  · obtain ⟨tokens₁, hfirst, h⟩ := bind_ok.mp h
    obtain ⟨tokens₂, hsecond, hout⟩ := bind_ok.mp h
    cases hout
    obtain ⟨rfl, -⟩ := appendToken_ok hfirst
    obtain ⟨rfl, hsmall⟩ := appendToken_ok hsecond
    refine ⟨.directories, ?_, hsmall, (Reads.directories rfl).language_eq⟩
    rw [append_assoc]
    rfl
  · next hother =>
    refine .of_append h rfl (Reads.anything rfl fun hhead => ?_).language_eq
    obtain ⟨rest, rfl⟩ := head?_eq_some_iff.mp hhead
    exact hother rest rfl

lemma compileOne_ok {first : Char} {rest : Text}
    (h : compileOne mode first rest tokens = .ok result) :
    Compiled mode (first :: rest) tokens result := by
  unfold compileOne at h
  split_ifs at h with hstar hglob hany hclass hescape
  · subst hstar
    obtain ⟨rfl, hhead⟩ := hglob
    obtain ⟨text, rfl⟩ := head?_eq_some_iff.mp hhead
    exact compileGlobstar_ok h
  · subst hstar
    exact .of_append h rfl (language_stars mode rest hglob)
  · subst hany
    exact .of_append h rfl Reads.any.language_eq
  · subst hclass
    obtain ⟨⟨cls, behind⟩, hparse, h⟩ := bind_ok.mp h
    exact .of_append h rfl (Reads.characterClass (parseCharacterClass_iff.mp hparse)).language_eq
  · subst hescape
    refine compileLiteral_ok h ?_
    rintro first rest rfl
    exact .escaped
  · refine compileLiteral_ok h ?_
    rintro _ _ ⟨⟩
    exact .literal (by simp [hstar, hany, hclass, hescape])

lemma Forward.append_piece (h : Forward tokens) (piece : Piece) :
    Forward (tokens ++ piece.tokens tokens.length) := by
  intro i token htoken j hj
  by_cases hi : i < tokens.length
  · exact h i token (List.getElem?_append_left hi ▸ htoken) j hj
  · obtain ⟨k, rfl⟩ := Nat.exists_eq_add_of_le (Nat.not_lt.mp hi)
    rw [List.getElem?_append_right (Nat.le_add_right _ _), Nat.add_sub_cancel_left] at htoken
    rcases k with _ | _ | k <;> cases piece <;> simp [Piece.tokens] at htoken <;> subst htoken <;>
      simp [Token.skips] at hj <;> omega

lemma residual_end (tokens : List Token) : residual (automaton tokens) tokens.length = 1 := by
  ext w
  rw [Automaton.mem_residual, Language.mem_one]
  simp [automaton]

lemma compileFrom_ok {fuel : ℕ} {before tokens : List Token}
    (h : compileFrom mode fuel text before = .ok tokens) (hsmall : before.length ≤ maxPatternTokens)
    (hforward : Forward before) : before <+: tokens ∧ tokens.length ≤ maxPatternTokens ∧
      Forward tokens ∧ residual (automaton tokens) before.length = language mode text := by
  induction fuel generalizing text before with
  | zero =>
    cases text with
    | nil =>
      cases h
      exact ⟨prefix_rfl, hsmall, hforward, by rw [residual_end, language_nil]⟩
    | cons first rest => cases h
  | succ fuel ih =>
    cases text with
    | nil =>
      cases h
      exact ⟨prefix_rfl, hsmall, hforward, by rw [residual_end, language_nil]⟩
    | cons first rest =>
      obtain ⟨⟨next, behind⟩, hone, hrest⟩ := bind_ok.mp h
      obtain ⟨piece, rfl, hsmall, hlanguage⟩ := compileOne_ok hone
      obtain ⟨hahead, hsmall, hforward, hbehind⟩ := ih hrest hsmall (hforward.append_piece piece)
      refine ⟨(prefix_append _ _).trans hahead, hsmall, hforward, ?_⟩
      rw [residual_piece, hlanguage, ← hbehind, length_append]
      intro k token htoken
      obtain ⟨rest, rfl⟩ := hahead
      rw [append_assoc, List.getElem?_append_right (Nat.le_add_right _ _), Nat.add_sub_cancel_left]
      exact List.getElem?_append_left (List.getElem?_eq_some_iff.mp htoken).1 ▸ htoken

/-- A path matches a pattern if and only if its code points are in the language of the pattern. -/
theorem matches_iff_inLanguage {raw : Text} {mode : Mode} {pattern : Pattern}
    (hcompile : Pattern.compile raw mode = .ok pattern) (path : Text) :
    pattern.matches path = true ↔ InLanguage mode raw (decode path) := by
  obtain ⟨-, -, hcompile⟩ := bind_ok.mp hcompile
  obtain ⟨tokens, htokens, hcompile⟩ := bind_ok.mp hcompile
  obtain ⟨literal, rfl⟩ : ∃ literal, pattern = ⟨tokens, literal⟩ := by
    split at hcompile
    all_goals
      obtain ⟨literal, -, hout⟩ := bind_ok.mp hcompile
      exact ⟨literal, (Except.ok.inj hout).symm⟩
  obtain ⟨-, hsmall, hforward, hlanguage⟩ := compileFrom_ok htokens (Nat.zero_le _)
    fun i token h => by simp at h
  rw [matches_iff_accepts hforward hsmall]
  exact Set.ext_iff.mp hlanguage (decode path)

theorem matches_iff_inLanguage_stars :
    (⟨[.star, .characterClass ⟨true, [⟨97, 99⟩, ⟨45, 45⟩]⟩, .literal 98], []⟩ : Pattern).matches
        "aadb".toList = true ↔
      InLanguage .copy "**[^a-c\\-]b".toList (decode "aadb".toList) :=
  matches_iff_inLanguage (by decide +kernel) _

end SporeVM.PathPattern
