import SporeVM.Lib.EState
import SporeVM.Lib.PathText

/-!
# Variables in Dockerfile words

A word of a Dockerfile may hold quotes, escapes and variables with a default or an alternative.
`expand` resolves one word. The character that escapes the next one is set by the file.

A word is read from left to right. The functions below take what is left of the word and what has
been put out so far, and give both back.
-/

namespace SporeVM.Variables

open Lib
open Lib.PathText (Text)

structure Variable where
  key : Text
  value : Option Text
  deriving DecidableEq

def backslash : Char := Char.ofNat 92

def singleQuote : Char := Char.ofNat 39

def doubleQuote : Char := Char.ofNat 34

structure Options where
  escape : Char := backslash
  preserveQuotes : Bool := false

def maxExpandedWordBytes : ℕ := 1024 * 1024

def maxExpansionDepth : ℕ := 64

inductive ExpansionError
  | badVariableSubstitution | unsupportedVariableModifier | variableExpansionTooLarge
  deriving DecidableEq

def appendByte (out : Text) (value : Char) : Except ExpansionError Text :=
  if out.length = maxExpandedWordBytes then .error .variableExpansionTooLarge
  else .ok (out ++ [value])

def appendSlice (out value : Text) : Except ExpansionError Text :=
  if value.length > maxExpandedWordBytes - out.length then .error .variableExpansionTooLarge
  else .ok (out ++ value)

structure Lookup where
  set : Bool := false
  value : Option Text := none

def lookup (vars : List Variable) (key : Text) : Lookup :=
  match vars.find? (fun v => v.key = key) with
  | some v => { set := v.value.isSome, value := v.value }
  | none => {}

def nameChar (c : Char) : Bool := c.isAlphanum || c = '_'

def specialParameter (c : Char) : Bool := c ∈ ['@', '*', '#', '?', '-', '$', '!']

def isAscii (c : Char) : Bool := c.toNat < 128

def simpleName : Text → Text
  | [] => []
  | c :: cs =>
    if c.isDigit = true then (c :: cs).takeWhile Char.isDigit
    else if specialParameter c = true then [c]
    else (c :: cs).takeWhile nameChar

def singleQuoted : Text → Text → Except ExpansionError (Text × Text)
  | [], _ => .error .badVariableSubstitution
  | c :: cs, out =>
    if c = singleQuote then .ok (out, cs)
    else do
      let out ← appendByte out c
      singleQuoted cs out

def chooseOperand (operator : Char) (found : Lookup) (nullIsUnset : Bool) (word out : Text) :
    Except ExpansionError Text :=
  let value := found.value.getD []
  let usable := found.set && (!nullIsUnset || value ≠ [])
  if operator = '-' then appendSlice out (if usable then value else word)
  else if usable then appendSlice out word
  else .ok out

section Parser

variable (vars : List Variable) (options : Options)

-- The fuel is a bound on the characters that are left: every call has consumed one.
mutual

def process (depth : ℕ) (stop : Option Char) : ℕ → Text → Text → Except ExpansionError (Text × Text)
  | 0, _, _ => .error .badVariableSubstitution
  | _ + 1, [], out =>
    if stop = none then .ok (out, []) else .error .badVariableSubstitution
  | fuel + 1, c :: cs, out =>
    if stop = some c then .ok (out, cs)
    else if c = singleQuote ∧ options.preserveQuotes = false then do
      let (out, rest) ← singleQuoted cs out
      process depth stop fuel rest out
    else if c = doubleQuote ∧ options.preserveQuotes = false then do
      let (out, rest) ← doubleQuoted depth fuel cs out
      process depth stop fuel rest out
    else if c = '$' then do
      let (out, rest) ← dollar depth fuel cs out
      process depth stop fuel rest out
    else if c = options.escape ∧ c ≠ singleQuote ∧ c ≠ doubleQuote then
      match cs with
      | [] => if stop = none then .ok (out, []) else .error .badVariableSubstitution
      | escaped :: rest =>
        if escaped = '\n' then process depth stop fuel rest out
        else do
          let out ← appendByte out escaped
          process depth stop fuel rest out
    else do
      let out ← appendByte out c
      process depth stop fuel cs out

def doubleQuoted (depth : ℕ) : ℕ → Text → Text → Except ExpansionError (Text × Text)
  | 0, _, _ => .error .badVariableSubstitution
  | _ + 1, [], _ => .error .badVariableSubstitution
  | fuel + 1, c :: cs, out =>
    if c = doubleQuote then .ok (out, cs)
    else if c = '$' then do
      let (out, rest) ← dollar depth fuel cs out
      doubleQuoted depth fuel rest out
    else if c = options.escape then
      match cs with
      | [] => .error .badVariableSubstitution
      | escaped :: rest =>
        if escaped = doubleQuote ∨ escaped = '$' ∨ escaped = options.escape then do
          let out ← appendByte out escaped
          doubleQuoted depth fuel rest out
        else do
          -- an escape of anything else is kept, and what follows is read on its own
          let out ← appendByte out options.escape
          doubleQuoted depth fuel (escaped :: rest) out
    else do
      let out ← appendByte out c
      doubleQuoted depth fuel cs out

def dollar (depth : ℕ) : ℕ → Text → Text → Except ExpansionError (Text × Text)
  | 0, _, _ => .error .badVariableSubstitution
  | _ + 1, [], out => do
    let out ← appendByte out '$'
    pure (out, [])
  | fuel + 1, c :: cs, out =>
    if c ≠ '{' then
      if isAscii c = false then .error .badVariableSubstitution
      else
        let name := simpleName (c :: cs)
        if name = [] then do
          let out ← appendByte out '$'
          pure (out, c :: cs)
        else do
          let out ← appendSlice out ((lookup vars name).value.getD [])
          pure (out, (c :: cs).drop name.length)
    else
      let name := cs.takeWhile nameChar
      match cs.dropWhile nameChar with
      | [] => .error .badVariableSubstitution
      | d :: rest =>
        if name = [] then .error .badVariableSubstitution
        else
          let found := lookup vars name
          if d = '}' then do
            let out ← appendSlice out (found.value.getD [])
            pure (out, rest)
          else
            let nullIsUnset := d = ':'
            match (if nullIsUnset then rest else d :: rest) with
            | [] => .error .badVariableSubstitution
            | operator :: rest =>
              if operator ≠ '-' ∧ operator ≠ '+' then .error .unsupportedVariableModifier
              else if depth = maxExpansionDepth then .error .badVariableSubstitution
              else do
                let (word, rest) ← process (depth + 1) (some '}') fuel rest []
                let out ← chooseOperand operator found nullIsUnset word out
                pure (out, rest)

end

end Parser

def expand (input : Text) (vars : List Variable) (options : Options) : Except ExpansionError Text :=
  (process vars options 0 none (input.length + 1) input []).map Prod.fst

def validate (input : Text) (options : Options) : Except ExpansionError Unit :=
  (expand input [] options).map fun _ => ()

example : expand "$\x7bMISSING:-$WORD\x7d/x".toList [⟨"WORD".toList, some "fallback".toList⟩] {} =
    .ok "fallback/x".toList := by decide +kernel

-- ══ A validated word expands

/-- When the first computation succeeds, so does the second with a related result, or the result is
too large. -/
def Follows {α β : Type} (R : α → β → Prop) (x : Except ExpansionError α)
    (y : Except ExpansionError β) : Prop :=
  ∀ a, x = .ok a → (∃ b, y = .ok b ∧ R a b) ∨ y = .error .variableExpansionTooLarge

def SameRest (a b : Text × Text) : Prop := a.2 = b.2

namespace Follows

variable {α β γ δ : Type} {R : α → β → Prop} {S : γ → δ → Prop} {x : Except ExpansionError α}
  {y : Except ExpansionError β}

lemma ok {a : α} {b : β} (h : R a b) : Follows R (.ok a) (.ok b) :=
  fun _ ha => .inl ⟨b, rfl, Except.ok.inj ha ▸ h⟩

lemma error {e : ExpansionError} : Follows R (.error e) y := fun _ h => by cases h

lemma ite {p : Prop} [Decidable p] {x' : Except ExpansionError α} {y' : Except ExpansionError β}
    (h : Follows R x y) (h' : Follows R x' y') :
    Follows R (if p then x else x') (if p then y else y') := by
  split
  · exact h
  · exact h'

lemma bind (h : Follows R x y) {f : α → Except ExpansionError γ}
    {g : β → Except ExpansionError δ} (hnext : ∀ a b, R a b → Follows S (f a) (g b)) :
    Follows S (x >>= f) (y >>= g) := by
  intro c hc
  obtain ⟨a, hx, hf⟩ := Check.bind_ok.mp hc
  rcases h a hx with ⟨b, rfl, hR⟩ | rfl
  · exact hnext a b hR c hf
  · exact .inr rfl

end Follows

lemma appendSlice_follows (out out' value value' : Text) :
    Follows (fun _ _ => True) (appendSlice out value) (appendSlice out' value') := by
  intro _ _
  unfold appendSlice
  split
  · exact .inr rfl
  · exact .inl ⟨_, rfl, trivial⟩

lemma appendByte_follows (out out' : Text) (value : Char) :
    Follows (fun _ _ => True) (appendByte out value) (appendByte out' value) := by
  intro _ _
  unfold appendByte
  split
  · exact .inr rfl
  · exact .inl ⟨_, rfl, trivial⟩

lemma chooseOperand_follows (operator : Char) (found found' : Lookup) (nullIsUnset : Bool)
    (word word' out out' : Text) : Follows (fun _ _ => True)
      (chooseOperand operator found nullIsUnset word out)
      (chooseOperand operator found' nullIsUnset word' out') := by
  intro _ _
  simp only [chooseOperand, appendSlice]
  split_ifs <;> simp

lemma singleQuoted_follows (text out out' : Text) :
    Follows SameRest (singleQuoted text out) (singleQuoted text out') := by
  induction text generalizing out out' with
  | nil => exact .error
  | cons c cs ih =>
    rw [singleQuoted, singleQuoted]
    split
    · exact .ok rfl
    · exact (appendByte_follows out out' c).bind fun _ _ _ => ih _ _

section Reading

variable (vars vars' : List Variable) (options : Options)

structure ReadersFollow (fuel : ℕ) : Prop where
  process : ∀ depth stop text out out', Follows SameRest
    (process vars options depth stop fuel text out)
    (process vars' options depth stop fuel text out')
  doubleQuoted : ∀ depth text out out', Follows SameRest
    (doubleQuoted vars options depth fuel text out)
    (doubleQuoted vars' options depth fuel text out')
  dollar : ∀ depth text out out', Follows SameRest
    (dollar vars options depth fuel text out) (dollar vars' options depth fuel text out')

variable {vars vars' options} {fuel : ℕ} (h : ReadersFollow vars vars' options fuel)

include h

lemma ReadersFollow.process_succ (depth : ℕ)
    (stop : Option Char) (text out out' : Text) : Follows SameRest
      (Variables.process vars options depth stop (fuel + 1) text out)
      (Variables.process vars' options depth stop (fuel + 1) text out') := by
  have hrest : ∀ a b : Text × Text, SameRest a b →
      Follows SameRest (Variables.process vars options depth stop fuel a.2 a.1)
        (Variables.process vars' options depth stop fuel b.2 b.1) :=
    fun a b hab => hab ▸ h.process depth stop a.2 a.1 b.1
  have hend : Follows SameRest
      (if stop = none then .ok (out, []) else .error .badVariableSubstitution)
      (if stop = none then .ok (out', []) else .error .badVariableSubstitution) :=
    .ite (.ok rfl) .error
  have happend (value : Char) (rest : Text) : Follows SameRest
      (appendByte out value >>= Variables.process vars options depth stop fuel rest)
      (appendByte out' value >>= Variables.process vars' options depth stop fuel rest) :=
    (appendByte_follows out out' value).bind fun _ _ _ => h.process depth stop rest _ _
  rcases text with _ | ⟨c, cs⟩
  · exact hend
  · refine .ite (.ok rfl) <| .ite ((singleQuoted_follows cs out out').bind hrest) <|
      .ite ((h.doubleQuoted depth cs out out').bind hrest) <|
      .ite ((h.dollar depth cs out out').bind hrest) <| .ite ?_ (happend c cs)
    rcases cs with _ | ⟨escaped, rest⟩
    · exact hend
    · exact .ite (h.process depth stop rest out out') (happend escaped rest)

lemma ReadersFollow.doubleQuoted_succ (depth : ℕ) (text out out' : Text) : Follows SameRest
      (Variables.doubleQuoted vars options depth (fuel + 1) text out)
      (Variables.doubleQuoted vars' options depth (fuel + 1) text out') := by
  have hrest : ∀ a b : Text × Text, SameRest a b →
      Follows SameRest (Variables.doubleQuoted vars options depth fuel a.2 a.1)
        (Variables.doubleQuoted vars' options depth fuel b.2 b.1) :=
    fun a b hab => hab ▸ h.doubleQuoted depth a.2 a.1 b.1
  have happend (value : Char) (rest : Text) : Follows SameRest
      (appendByte out value >>= Variables.doubleQuoted vars options depth fuel rest)
      (appendByte out' value >>= Variables.doubleQuoted vars' options depth fuel rest) :=
    (appendByte_follows out out' value).bind fun _ _ _ => h.doubleQuoted depth rest _ _
  rcases text with _ | ⟨c, cs⟩
  · exact .error
  · refine .ite (.ok rfl) <| .ite ((h.dollar depth cs out out').bind hrest) <|
      .ite ?_ (happend c cs)
    rcases cs with _ | ⟨escaped, rest⟩
    · exact .error
    · exact .ite (happend escaped rest) (happend options.escape (escaped :: rest))

lemma ReadersFollow.dollar_succ (depth : ℕ) (text out out' : Text) : Follows SameRest
      (Variables.dollar vars options depth (fuel + 1) text out)
      (Variables.dollar vars' options depth (fuel + 1) text out') := by
  have hslice (value value' rest : Text) : Follows SameRest
      (appendSlice out value >>= fun out => pure (out, rest))
      (appendSlice out' value' >>= fun out => pure (out, rest)) :=
    (appendSlice_follows out out' value value').bind fun _ _ _ => .ok rfl
  have hbyte (rest : Text) : Follows SameRest
      (appendByte out '$' >>= fun out => pure (out, rest))
      (appendByte out' '$' >>= fun out => pure (out, rest)) :=
    (appendByte_follows out out' '$').bind fun _ _ _ => .ok rfl
  rcases text with _ | ⟨c, cs⟩
  · exact hbyte []
  · refine .ite (.ite .error (.ite (hbyte _) (hslice _ _ _))) ?_
    rcases cs.dropWhile nameChar with _ | ⟨d, rest⟩
    · exact .error
    · refine .ite .error (.ite (hslice _ _ rest) ?_)
      dsimp only
      rcases (if d = ':' then rest else d :: rest) with _ | ⟨operator, rest⟩
      · exact .error
      · refine .ite .error <| .ite .error <| (h.process (depth + 1) (some '}') rest [] []).bind ?_
        intro a b hab
        exact (chooseOperand_follows _ _ _ _ a.1 b.1 out out').bind fun _ _ _ => .ok hab

omit h

lemma readersFollow (fuel : ℕ) : ReadersFollow vars vars' options fuel := by
  induction fuel with
  | zero =>
    refine ⟨fun _ _ _ _ _ => ?_, fun _ _ _ _ => ?_, fun _ _ _ _ => ?_⟩
    · exact .error
    · exact .error
    · exact .error
  | succ fuel ih => exact ⟨ih.process_succ, ih.doubleQuoted_succ, ih.dollar_succ⟩

end Reading

/-- A word that `validate` accepts expands under every list of variables, unless the result exceeds
the limit: no syntax error shows up only when the variables are there. -/
theorem expand_of_validate (input : Text) (options : Options) (vars : List Variable)
    (hvalid : validate input options = .ok ()) : (∃ word, expand input vars options = .ok word) ∨
      expand input vars options = .error .variableExpansionTooLarge := by
  have hreads : ∃ found, process [] options 0 none (input.length + 1) input [] = .ok found := by
    rw [validate, expand] at hvalid
    cases hread : process [] options 0 none (input.length + 1) input [] with
    | error e => rw [hread] at hvalid; cases hvalid
    | ok found => exact ⟨found, rfl⟩
  obtain ⟨found, hfound⟩ := hreads
  have hfollows : ReadersFollow [] vars options (input.length + 1) := readersFollow _
  rcases hfollows.process 0 none input [] [] found hfound with ⟨result, hresult, -⟩ | hlarge
  · exact .inl ⟨result.1, by rw [expand, hresult]; rfl⟩
  · exact .inr (by rw [expand, hlarge]; rfl)

theorem expand_of_validate_default :
    (∃ word, expand "$\x7bX:-a\x7d".toList [⟨"X".toList, some "b".toList⟩] {} = .ok word) ∨
      expand "$\x7bX:-a\x7d".toList [⟨"X".toList, some "b".toList⟩] {} =
        .error .variableExpansionTooLarge :=
  expand_of_validate _ {} _ (by decide +kernel)

end SporeVM.Variables
