import Mathlib.Tactic.Common
import Mathlib.Data.List.Basic
import Mathlib.Data.List.TakeWhile

/-!
# JSON

The values of JSON, a reader of JSON texts and a writer. The reader takes exactly the texts of the
grammar, with escapes, surrogate pairs and any white space; the writer puts every element of a
container on a line of its own, two spaces further in.

Texts are lists of characters here. `ofBytes` reads the UTF-8 bytes of one.
-/

namespace Lib

open List hiding pure_def
open Option (bind_eq_bind bind_some pure_def)

inductive Json
  | null
  | bool (b : Bool)
  /-- A number is kept as it is written. -/
  | number (lexeme : List Char)
  | string (value : List Char)
  | array (elements : List Json)
  | object (members : List (List Char × Json))

variable {j : Json}

variable {c : Char}

namespace Json

-- ══ Reading

def isSpace (c : Char) : Bool := c == ' ' || c == '\t' || c == '\n' || c == '\r'

def skipSpace (text : List Char) : List Char := text.dropWhile isSpace

def hexValue (c : Char) : Option ℕ :=
  if '0' ≤ c ∧ c ≤ '9' then some (c.toNat - '0'.toNat)
  else if 'a' ≤ c ∧ c ≤ 'f' then some (c.toNat - 'a'.toNat + 10)
  else if 'A' ≤ c ∧ c ≤ 'F' then some (c.toNat - 'A'.toNat + 10)
  else none

def hexQuad : List Char → Option (ℕ × List Char)
  | a :: b :: c :: d :: rest => do
    let a ← hexValue a
    let b ← hexValue b
    let c ← hexValue c
    let d ← hexValue d
    pure (((a * 16 + b) * 16 + c) * 16 + d, rest)
  | _ => none

def lowSurrogate (high : ℕ) : List Char → Option (Char × List Char)
  | '\\' :: 'u' :: rest => do
    let (low, rest) ← hexQuad rest
    if 0xdc00 ≤ low ∧ low ≤ 0xdfff then
      pure (Char.ofNat (0x10000 + (high - 0xd800) * 0x400 + (low - 0xdc00)), rest)
    else none
  | _ => none

def unicodeEscape (text : List Char) : Option (Char × List Char) := do
  let (code, rest) ← hexQuad text
  if 0xd800 ≤ code ∧ code ≤ 0xdbff then lowSurrogate code rest
  else if 0xdc00 ≤ code ∧ code ≤ 0xdfff then none
  else pure (Char.ofNat code, rest)

def simpleEscape (c : Char) : Option Char :=
  if c = '"' ∨ c = '\\' ∨ c = '/' then some c
  else if c = 'b' then some (Char.ofNat 8)
  else if c = 'f' then some (Char.ofNat 12)
  else if c = 'n' then some '\n'
  else if c = 'r' then some '\r'
  else if c = 't' then some '\t'
  else none

def stringChar (c : Char) (rest : List Char) : Option (Char × List Char) :=
  if c = '\\' then
    match rest with
    | [] => none
    | 'u' :: rest => unicodeEscape rest
    | e :: rest => (simpleEscape e).map fun c => (c, rest)
  else if c.toNat < 0x20 then none
  else some (c, rest)

def stringBody : ℕ → List Char → Option (List Char × List Char)
  | 0, _ => none
  | _ + 1, [] => none
  | fuel + 1, c :: rest =>
    if c = '"' then some ([], rest)
    else do
      let (c, rest) ← stringChar c rest
      let (cs, rest) ← stringBody fuel rest
      pure (c :: cs, rest)

def isScalarChar (c : Char) : Bool := c.isAlphanum || c == '+' || c == '-' || c == '.'

def isDigits (text : List Char) : Bool := !text.isEmpty && text.all Char.isDigit

def isExponent : List Char → Bool
  | [] => true
  | e :: sign :: digits =>
    (e == 'e' || e == 'E') &&
      (((sign == '+' || sign == '-') && isDigits digits) || isDigits (sign :: digits))
  | [_] => false

def isFraction : List Char → Bool
  | '.' :: rest => !(rest.takeWhile Char.isDigit).isEmpty && isExponent
    (rest.dropWhile Char.isDigit)
  | rest => isExponent rest

def isUnsigned : List Char → Bool
  | '0' :: rest => isFraction rest
  | c :: rest => c.isDigit && isFraction (rest.dropWhile Char.isDigit)
  | [] => false

def isNumber : List Char → Bool
  | '-' :: rest => isUnsigned rest
  | text => isUnsigned text

def literal (lexeme : List Char) : Option Json :=
  if lexeme = ['n', 'u', 'l', 'l'] then some null
  else if lexeme = ['t', 'r', 'u', 'e'] then some (bool true)
  else if lexeme = ['f', 'a', 'l', 's', 'e'] then some (bool false)
  else if isNumber lexeme then some (number lexeme)
  else none

def scalar (text : List Char) : Option (Json × List Char) :=
  (literal (text.takeWhile isScalarChar)).map fun j => (j, text.dropWhile isScalarChar)

def quoted : List Char → Option (List Char × List Char)
  | '"' :: rest => stringBody rest.length rest
  | _ => none

def colon (text : List Char) : Option (List Char) :=
  match skipSpace text with
  | ':' :: rest => some (skipSpace rest)
  | _ => none

mutual

def value : ℕ → List Char → Option (Json × List Char)
  | 0, _ => none
  | fuel + 1, text =>
    match text with
    | [] => none
    | c :: rest =>
      if c = '"' then (quoted text).map fun (s, rest) => (string s, rest)
      else if c = '[' then
        match skipSpace rest with
        | ']' :: rest => some (array [], rest)
        | rest => (elements fuel rest).map fun (js, rest) => (array js, rest)
      else if c = '{' then
        match skipSpace rest with
        | '}' :: rest => some (object [], rest)
        | rest => (members fuel rest).map fun (ms, rest) => (object ms, rest)
      else scalar text

def elements : ℕ → List Char → Option (List Json × List Char)
  | 0, _ => none
  | fuel + 1, text => do
    let (j, rest) ← value fuel text
    match skipSpace rest with
    | ']' :: rest => pure ([j], rest)
    | ',' :: rest =>
      let (js, rest) ← elements fuel (skipSpace rest)
      pure (j :: js, rest)
    | _ => none

def members : ℕ → List Char → Option (List (List Char × Json) × List Char)
  | 0, _ => none
  | fuel + 1, text => do
    let (key, rest) ← quoted text
    let rest ← colon rest
    let (j, rest) ← value fuel rest
    match skipSpace rest with
    | '}' :: rest => pure ([(key, j)], rest)
    | ',' :: rest =>
      let (ms, rest) ← members fuel (skipSpace rest)
      pure ((key, j) :: ms, rest)
    | _ => none

end

def read (text : List Char) : Option Json := do
  let (j, rest) ← value (text.length + 1) (skipSpace text)
  if skipSpace rest = [] then pure j else none

-- ══ Writing

def hexDigit (n : ℕ) : Char :=
  if n < 10 then Char.ofNat ('0'.toNat + n) else Char.ofNat ('a'.toNat + (n - 10))

def escapeChar (c : Char) : List Char :=
  if c = '\\' then ['\\', '\\']
  else if c = '"' then ['\\', '"']
  else if c = Char.ofNat 8 then ['\\', 'b']
  else if c = Char.ofNat 12 then ['\\', 'f']
  else if c = '\n' then ['\\', 'n']
  else if c = '\r' then ['\\', 'r']
  else if c = '\t' then ['\\', 't']
  else if c.toNat < 0x20 then
    ['\\', 'u', '0', '0', hexDigit (c.toNat / 16), hexDigit (c.toNat % 16)]
  else [c]

def renderString (value : List Char) : List Char := '"' :: (value.flatMap escapeChar ++ ['"'])

def newline (level : ℕ) : List Char := '\n' :: replicate (2 * level) ' '

mutual

def render (level : ℕ) : Json → List Char
  | null => ['n', 'u', 'l', 'l']
  | bool true => ['t', 'r', 'u', 'e']
  | bool false => ['f', 'a', 'l', 's', 'e']
  | number lexeme => lexeme
  | string value => renderString value
  | array [] => ['[', ']']
  | array (j :: js) =>
    '[' :: (newline (level + 1) ++ render (level + 1) j ++ renderElements level js)
  | object [] => ['{', '}']
  | object ((key, j) :: ms) =>
    '{' :: (newline (level + 1) ++ renderString key ++ [':', ' '] ++ render (level + 1) j ++
      renderMembers level ms)

def renderElements (level : ℕ) : List Json → List Char
  | [] => newline level ++ [']']
  | j :: js => ',' :: (newline (level + 1) ++ render (level + 1) j ++ renderElements level js)

def renderMembers (level : ℕ) : List (List Char × Json) → List Char
  | [] => newline level ++ ['}']
  | (key, j) :: ms =>
    ',' :: (newline (level + 1) ++ renderString key ++ [':', ' '] ++ render (level + 1) j ++
      renderMembers level ms)

end

-- ══ Strings read back

lemma hexValue_hexDigit {n : ℕ} (h : n < 16) : hexValue (hexDigit n) = some n := by
  have hall : ∀ n < 16, hexValue (hexDigit n) = some n := by decide
  exact hall n h

lemma unicodeEscape_control (h : c.toNat < 0x20) (rest : List Char) :
    unicodeEscape ('0' :: '0' :: hexDigit (c.toNat / 16) :: hexDigit (c.toNat % 16) :: rest) =
      some (c, rest) := by
  have hzero : hexValue '0' = some 0 := rfl
  have hhigh := @hexValue_hexDigit (c.toNat / 16) (by omega)
  have hlow := @hexValue_hexDigit (c.toNat % 16) (by omega)
  have hcode : ((0 * 16 + 0) * 16 + c.toNat / 16) * 16 + c.toNat % 16 = c.toNat := by omega
  simp only [unicodeEscape, hexQuad, hzero, hhigh, hlow, bind_eq_bind, bind_some, pure_def, hcode]
  rw [if_neg (by omega), if_neg (by omega), Char.ofNat_toNat]

lemma escapeChar_spec (c : Char) : ∃ first more, escapeChar c = first :: more ∧ first ≠ '"' ∧
    ∀ rest, stringChar first (more ++ rest) = some (c, rest) := by
  unfold escapeChar
  iterate 7
    split
    · next h =>
      subst h
      exact ⟨_, _, rfl, by decide, fun _ => rfl⟩
  split
  · next h => exact ⟨_, _, rfl, by decide, fun rest => unicodeEscape_control h rest⟩
  · next hback hquote _ _ _ _ _ hcontrol =>
    refine ⟨c, [], rfl, hquote, fun rest => ?_⟩
    unfold stringChar
    rw [if_neg hback, if_neg hcontrol, List.nil_append]

lemma stringBody_escaped (cs rest : List Char) (fuel : ℕ) (hfuel : cs.length < fuel) :
    stringBody fuel (cs.flatMap escapeChar ++ '"' :: rest) = some (cs, rest) := by
  induction cs generalizing fuel with
  | nil =>
    cases fuel with
    | zero => simp at hfuel
    | succ fuel => simp [stringBody]
  | cons c cs ih =>
    cases fuel with
    | zero => simp at hfuel
    | succ fuel =>
      obtain ⟨first, more, hescape, hquote, hread⟩ := escapeChar_spec c
      have hrest := ih fuel (by simpa using hfuel)
      rw [flatMap_cons, hescape, cons_append, cons_append, append_assoc,
        stringBody, if_neg hquote, hread]
      simp only [bind_eq_bind, bind_some, hrest, pure_def]

lemma length_le_flatMap_escapeChar (cs : List Char) :
    cs.length ≤ (cs.flatMap escapeChar).length := by
  induction cs with
  | nil => simp
  | cons c cs ih =>
    obtain ⟨first, more, hescape, -, -⟩ := escapeChar_spec c
    rw [flatMap_cons, hescape, length_append, length_cons, length_cons]
    omega

lemma quoted_renderString (value rest : List Char) :
    quoted (renderString value ++ rest) = some (value, rest) := by
  have hlen := length_le_flatMap_escapeChar value
  rw [renderString, cons_append, append_assoc, singleton_append, quoted]
  refine stringBody_escaped value rest _ ?_
  rw [length_append, length_cons]
  omega

-- ══ Values read back

mutual

def WellFormed : Json → Prop
  | number lexeme => isNumber lexeme = true ∧ lexeme.all isScalarChar = true
  | array js => WellFormedElements js
  | object ms => WellFormedMembers ms
  | _ => True

def WellFormedElements : List Json → Prop
  | [] => True
  | j :: js => WellFormed j ∧ WellFormedElements js

def WellFormedMembers : List (List Char × Json) → Prop
  | [] => True
  | (_, j) :: ms => WellFormed j ∧ WellFormedMembers ms

end

mutual

def size : Json → ℕ
  | array js => 1 + sizeElements js
  | object ms => 1 + sizeMembers ms
  | _ => 1

def sizeElements : List Json → ℕ
  | [] => 1
  | j :: js => 1 + size j + sizeElements js

def sizeMembers : List (List Char × Json) → ℕ
  | [] => 1
  | (_, j) :: ms => 1 + size j + sizeMembers ms

end

def Stops (rest : List Char) : Prop := ∀ c ∈ rest.head?, isScalarChar c = false

lemma skipSpace_newline (level : ℕ) (rest : List Char) :
    skipSpace (newline level ++ rest) = skipSpace rest := by
  have hspaces : ∀ n, skipSpace (replicate n ' ' ++ rest) = skipSpace rest := by
    intro n
    induction n with
    | zero => rfl
    | succ n ih => exact ih
  exact hspaces (2 * level)

lemma skipSpace_cons (h : isSpace c = false) (rest : List Char) :
    skipSpace (c :: rest) = c :: rest := by
  rw [skipSpace, dropWhile_cons_of_neg (by simp [h])]

lemma scalar_append {lexeme rest : List Char} (h : lexeme.all isScalarChar = true)
    (hrest : Stops rest) : scalar (lexeme ++ rest) = (literal lexeme).map fun j => (j, rest) := by
  have hall := all_eq_true.mp h
  rw [scalar, takeWhile_append_of_pos hall, dropWhile_append_of_pos hall]
  cases rest with
  | nil => simp
  | cons c rest =>
    have hc : isScalarChar c = false := hrest c rfl
    simp [hc]

lemma literal_number {lexeme : List Char} (h : isNumber lexeme = true) :
    literal lexeme = some (number lexeme) := by
  have hname : ∀ name : List Char, isNumber name = false → lexeme ≠ name := by
    rintro name hname rfl
    rw [hname] at h
    cases h
  rw [literal, if_neg (hname _ rfl), if_neg (hname _ rfl), if_neg (hname _ rfl), if_pos h]

lemma render_head (h : WellFormed j) (level : ℕ) :
    ∃ c text, render level j = c :: text ∧ isSpace c = false ∧ c ≠ ']' ∧ c ≠ '}' := by
  cases j with
  | null => exact ⟨_, _, rfl, by decide, by decide, by decide⟩
  | bool b => cases b <;> exact ⟨_, _, rfl, by decide, by decide, by decide⟩
  | number lexeme =>
    obtain ⟨hnumber, hall⟩ := h
    cases lexeme with
    | nil => cases hnumber
    | cons c text =>
      have hc : isScalarChar c = true := all_eq_true.mp hall c (by simp)
      refine ⟨c, text, rfl, ?_, ?_, ?_⟩
      · by_contra hspace
        rw [Bool.not_eq_false] at hspace
        unfold isSpace at hspace
        simp only [Bool.or_eq_true, beq_iff_eq] at hspace
        obtain ((rfl | rfl) | rfl) | rfl := hspace <;> revert hc <;> decide
      · rintro rfl
        revert hc
        decide
      · rintro rfl
        revert hc
        decide
  | string value => exact ⟨_, _, rfl, by decide, by decide, by decide⟩
  | array js => cases js <;> exact ⟨_, _, rfl, by decide, by decide, by decide⟩
  | object ms =>
    cases ms with
    | nil => exact ⟨_, _, rfl, by decide, by decide, by decide⟩
    | cons m ms => exact ⟨_, _, rfl, by decide, by decide, by decide⟩

lemma skipSpace_render (h : WellFormed j) (level : ℕ) (rest : List Char) :
    skipSpace (render level j ++ rest) = render level j ++ rest := by
  obtain ⟨c, text, hrender, hspace, -, -⟩ := render_head h level
  rw [hrender, cons_append, skipSpace_cons hspace]

lemma skipSpace_renderString (key rest : List Char) :
    skipSpace (renderString key ++ rest) = renderString key ++ rest := by
  rw [renderString, cons_append, skipSpace_cons rfl]

lemma stops_renderElements (level : ℕ) (js : List Json) (rest : List Char) :
    Stops (renderElements level js ++ rest) := by
  intro c hc
  cases js <;> (cases hc; decide)

lemma stops_renderMembers (level : ℕ) (ms : List (List Char × Json)) (rest : List Char) :
    Stops (renderMembers level ms ++ rest) := by
  intro c hc
  cases ms <;> (cases hc; decide)

lemma value_scalar {rest : List Char} {fuel : ℕ} (hc : isScalarChar c = true) :
    value (fuel + 1) (c :: rest) = scalar (c :: rest) := by
  have hne : ∀ d, isScalarChar d = false → c ≠ d := by
    rintro d hd rfl
    rw [hd] at hc
    cases hc
  rw [value, if_neg (hne _ rfl), if_neg (hne _ rfl), if_neg (hne _ rfl)]

lemma colon_render (h : WellFormed j) (level : ℕ) (rest : List Char) :
    colon ([':', ' '] ++ (render level j ++ rest)) = some (render level j ++ rest) := by
  have hspace : skipSpace (' ' :: (render level j ++ rest)) = render level j ++ rest :=
    skipSpace_render h level rest
  rw [colon, cons_append, singleton_append, skipSpace_cons rfl]
  simp only [hspace]

mutual

/-- **A written value is read back**, with what follows it left over. -/
theorem value_render : ∀ (j : Json) (level fuel : ℕ) (rest : List Char), WellFormed j →
    size j ≤ fuel → Stops rest → value fuel (render level j ++ rest) = some (j, rest)
  | j, level, 0, rest, _, hfuel, _ => by
    cases j <;> simp [size] at hfuel
  | null, level, fuel + 1, rest, _, _, hrest => by
    rw [render, cons_append, value_scalar rfl]
    exact @scalar_append ['n', 'u', 'l', 'l'] rest rfl hrest
  | bool true, level, fuel + 1, rest, _, _, hrest => by
    rw [render, cons_append, value_scalar rfl]
    exact @scalar_append ['t', 'r', 'u', 'e'] rest rfl hrest
  | bool false, level, fuel + 1, rest, _, _, hrest => by
    rw [render, cons_append, value_scalar rfl]
    exact @scalar_append ['f', 'a', 'l', 's', 'e'] rest rfl hrest
  | number lexeme, level, fuel + 1, rest, hwf, _, hrest => by
    obtain ⟨hnumber, hall⟩ := hwf
    have hscalar := scalar_append hall hrest
    rw [literal_number hnumber] at hscalar
    cases lexeme with
    | nil => cases hnumber
    | cons c text =>
      rw [render, cons_append, value_scalar (all_eq_true.mp hall c (by simp))]
      exact hscalar
  | string s, level, fuel + 1, rest, _, _, _ => by
    have hquoted := quoted_renderString s rest
    rw [render, renderString, cons_append] at *
    rw [value, if_pos rfl, hquoted]
    rfl
  | array [], level, fuel + 1, rest, _, _, _ => rfl
  | array (j :: js), level, fuel + 1, rest, hwf, hfuel, _ => by
    have hfuel : sizeElements (j :: js) ≤ fuel := by
      rw [size] at hfuel
      omega
    have helements := elements_render j js level fuel rest hwf hfuel
    obtain ⟨c, text, hrender, hspace, hbracket, -⟩ := render_head hwf.1 (level + 1)
    rw [render, cons_append, value, if_neg (by decide), if_pos rfl, append_assoc,
      append_assoc, skipSpace_newline, skipSpace_render hwf.1]
    rw [hrender, cons_append] at helements ⊢
    split
    · next heq =>
      cases heq
      exact absurd rfl hbracket
    · next heq =>
      rw [helements]
      rfl
  | object [], level, fuel + 1, rest, _, _, _ => rfl
  | object ((key, j) :: ms), level, fuel + 1, rest, hwf, hfuel, _ => by
    have hfuel : sizeMembers ((key, j) :: ms) ≤ fuel := by
      rw [size] at hfuel
      omega
    have hmembers := members_render key j ms level fuel rest hwf hfuel
    rw [render, cons_append, value, if_neg (by decide), if_neg (by decide), if_pos rfl,
      append_assoc, append_assoc, append_assoc, append_assoc, skipSpace_newline,
      renderString, cons_append, skipSpace_cons rfl]
    rw [renderString, cons_append] at hmembers
    split
    · next heq => cases heq
    · next heq =>
      rw [hmembers]
      rfl

theorem elements_render : ∀ (j : Json) (js : List Json) (level fuel : ℕ) (rest : List Char),
    WellFormedElements (j :: js) → sizeElements (j :: js) ≤ fuel →
    elements fuel (render (level + 1) j ++ (renderElements level js ++ rest)) = some (j :: js, rest)
  | j, js, level, 0, rest, _, hfuel => by simp [sizeElements] at hfuel
  | j, [], level, fuel + 1, rest, hwf, hfuel => by
    rw [sizeElements, sizeElements] at hfuel
    have hvalue := value_render j (level + 1) fuel (renderElements level [] ++ rest)
      hwf.1 (by omega)
      (stops_renderElements _ _ _)
    rw [elements, hvalue]
    simp only [renderElements, bind_eq_bind, bind_some, append_assoc, skipSpace_newline]
    rfl
  | j, k :: js, level, fuel + 1, rest, hwf, hfuel => by
    rw [sizeElements] at hfuel
    have hvalue := value_render j (level + 1) fuel (renderElements level (k :: js) ++ rest) hwf.1
      (by omega) (stops_renderElements _ _ _)
    have hrest := elements_render k js level fuel rest hwf.2 (by omega)
    rw [elements, hvalue]
    simp only [renderElements, bind_eq_bind, bind_some, cons_append,
      append_assoc, skipSpace_cons (show isSpace ',' = false from rfl), skipSpace_newline,
      skipSpace_render hwf.2.1, hrest, pure_def]

theorem members_render : ∀ (key : List Char) (j : Json) (ms : List (List Char × Json))
    (level fuel : ℕ) (rest : List Char), WellFormedMembers ((key, j) :: ms) →
    sizeMembers ((key, j) :: ms) ≤ fuel →
    members fuel (renderString key ++ ([':', ' '] ++ (render (level + 1) j ++
      (renderMembers level ms ++ rest)))) = some ((key, j) :: ms, rest)
  | key, j, ms, level, 0, rest, _, hfuel => by simp [sizeMembers] at hfuel
  | key, j, [], level, fuel + 1, rest, hwf, hfuel => by
    rw [sizeMembers, sizeMembers] at hfuel
    have hvalue := value_render j (level + 1) fuel (renderMembers level [] ++ rest) hwf.1 (by omega)
      (stops_renderMembers _ _ _)
    rw [members, quoted_renderString]
    simp only [bind_eq_bind, bind_some, colon_render hwf.1, hvalue]
    simp only [renderMembers, append_assoc, skipSpace_newline]
    rfl
  | key, j, (key', k) :: ms, level, fuel + 1, rest, hwf, hfuel => by
    rw [sizeMembers] at hfuel
    have hvalue := value_render j (level + 1) fuel (renderMembers level ((key', k) :: ms) ++ rest)
      hwf.1 (by omega) (stops_renderMembers _ _ _)
    have hrest := members_render key' k ms level fuel rest hwf.2 (by omega)
    have hcomma : skipSpace (renderMembers level ((key', k) :: ms) ++ rest) =
        ',' :: (newline (level + 1) ++ (renderString key' ++ ([':', ' '] ++
          (render (level + 1) k ++ (renderMembers level ms ++ rest))))) := by
      rw [renderMembers, cons_append, skipSpace_cons rfl]
      simp only [append_assoc]
    rw [members, quoted_renderString]
    simp only [bind_eq_bind, bind_some, colon_render hwf.1, hvalue, hcomma,
      skipSpace_newline, skipSpace_renderString, hrest]
    rfl

end

mutual

theorem size_le_length : ∀ (j : Json) (level : ℕ), WellFormed j → size j ≤ (render level j).length
  | null, _, _ => by simp [size, render]
  | bool true, _, _ => by simp [size, render]
  | bool false, _, _ => by simp [size, render]
  | number [], _, hwf => by cases hwf.1
  | number (c :: text), _, _ => by simp [size, render]
  | string s, _, _ => by simp [size, render, renderString]
  | array [], _, _ => by simp [size, sizeElements, render]
  | array (j :: js), level, hwf => by
    have hj := size_le_length j (level + 1) hwf.1
    have hjs := sizeElements_le_length js level hwf.2
    simp only [size, sizeElements, render, length_cons, length_append, newline]
    omega
  | object [], _, _ => by simp [size, sizeMembers, render]
  | object ((key, j) :: ms), level, hwf => by
    have hj := size_le_length j (level + 1) hwf.1
    have hms := sizeMembers_le_length ms level hwf.2
    simp only [size, sizeMembers, render, length_cons, length_append, newline]
    omega

theorem sizeElements_le_length : ∀ (js : List Json) (level : ℕ), WellFormedElements js →
    sizeElements js ≤ (renderElements level js).length
  | [], _, _ => by simp [sizeElements, renderElements, newline]
  | j :: js, level, hwf => by
    have hj := size_le_length j (level + 1) hwf.1
    have hjs := sizeElements_le_length js level hwf.2
    simp only [sizeElements, renderElements, length_cons, length_append, newline]
    omega

theorem sizeMembers_le_length : ∀ (ms : List (List Char × Json)) (level : ℕ),
    WellFormedMembers ms → sizeMembers ms ≤ (renderMembers level ms).length
  | [], _, _ => by simp [sizeMembers, renderMembers, newline]
  | (key, j) :: ms, level, hwf => by
    have hj := size_le_length j (level + 1) hwf.1
    have hms := sizeMembers_le_length ms level hwf.2
    simp only [sizeMembers, renderMembers, length_cons, length_append, newline]
    omega

end

/-- **What is written is read back.** -/
theorem read_render (h : WellFormed j) (level : ℕ) : read (render level j) = some j := by
  have hsize := size_le_length j level h
  have hskip := skipSpace_render h level []
  have hvalue := value_render j level ((render level j).length + 1) [] h (by omega)
    (by simp [Stops])
  rw [append_nil] at hskip hvalue
  rw [read, hskip, hvalue]
  rfl

-- ══ Natural numbers and members

def nat (n : ℕ) : Json := number (Nat.toDigits 10 n)

def natOf : Json → Option ℕ
  | number lexeme => if isDigits lexeme then some (Nat.ofDigitChars 10 lexeme 0) else none
  | _ => none

def stringOf : Json → Option (List Char)
  | string value => some value
  | _ => none

def arrayOf {α : Type} (f : Json → Option α) : Json → Option (List α)
  | array js => js.mapM f
  | _ => none

def member (ms : List (List Char × Json)) (name : String) : Option Json :=
  match ms.filter fun m => m.1 = name.toList with
  | [m] => some m.2
  | _ => none

lemma isDigit_toDigits {n : ℕ} (h : c ∈ Nat.toDigits 10 n) : c.isDigit = true :=
  Nat.isDigit_of_mem_toDigits (by decide) (by decide) h

lemma isDigits_toDigits (n : ℕ) : isDigits (Nat.toDigits 10 n) = true := by
  rw [isDigits, Bool.and_eq_true]
  constructor
  · have hne := @Nat.toDigits_ne_nil n 10
    cases hd : Nat.toDigits 10 n with
    | nil => exact absurd hd hne
    | cons c cs => rfl
  · exact all_eq_true.mpr fun c hc => isDigit_toDigits hc

lemma toDigits_head {n : ℕ} (h : 0 < n) : ∃ c cs, Nat.toDigits 10 n = c :: cs ∧ c ≠ '0' := by
  induction n using Nat.strongRecOn with
  | ind n ih =>
    rcases Nat.lt_or_ge n 10 with hlt | hge
    · have hdigit : ∀ n < 10, 0 < n → n.digitChar ≠ '0' := by decide
      exact ⟨n.digitChar, [], Nat.toDigits_of_lt_base hlt, hdigit n hlt h⟩
    · obtain ⟨c, cs, hcs, hne⟩ := ih (n / 10) (by omega) (by omega)
      refine ⟨c, cs ++ [(n % 10).digitChar], ?_, hne⟩
      rw [Nat.toDigits_of_base_le (by decide) hge, hcs, cons_append]

lemma isNumber_toDigits (n : ℕ) : isNumber (Nat.toDigits 10 n) = true := by
  rcases Nat.eq_zero_or_pos n with rfl | hpos
  · decide
  · obtain ⟨c, cs, hcs, hne⟩ := toDigits_head hpos
    have hdigit : ∀ d ∈ c :: cs, d.isDigit = true := by
      intro d hd
      rw [← hcs] at hd
      exact isDigit_toDigits hd
    have hrest : cs.dropWhile Char.isDigit = [] :=
      dropWhile_eq_nil_iff.mpr fun d hd => hdigit d (mem_cons_of_mem _ hd)
    have hminus : c ≠ '-' := by
      rintro rfl
      have := hdigit '-' (by simp)
      cases this
    rw [hcs]
    unfold isNumber
    split
    · next heq =>
      cases heq
      exact absurd rfl hminus
    · unfold isUnsigned
      split
      · next heq =>
        cases heq
        exact absurd rfl hne
      · next heq =>
        cases heq
        rw [hdigit c (by simp), hrest]
        rfl
      · next heq => cases heq

lemma wellFormed_nat (n : ℕ) : WellFormed (nat n) := by
  refine ⟨isNumber_toDigits n, all_eq_true.mpr fun c hc => ?_⟩
  have hdigit := isDigit_toDigits hc
  simp [isScalarChar, Char.isAlphanum, hdigit]

@[simp] lemma natOf_nat (n : ℕ) : natOf (nat n) = some n := by
  rw [nat, natOf, if_pos (isDigits_toDigits n), Nat.ofDigitChars_ten_toDigits]

lemma arrayOf_map {α β : Type} {f : Json → Option β} {g : α → Json} {e : α → β} {xs : List α}
    (h : ∀ x ∈ xs, f (g x) = some (e x)) : arrayOf f (array (xs.map g)) = some (xs.map e) := by
  rw [arrayOf]
  induction xs with
  | nil => rfl
  | cons x xs ih =>
    have hrest := ih fun y hy => h y (mem_cons_of_mem _ hy)
    rw [map_cons, mapM_cons, h x (by simp), hrest]
    rfl

lemma wellFormedElements_map {α : Type} {g : α → Json} (h : ∀ x, WellFormed (g x)) :
    ∀ xs : List α, WellFormedElements (xs.map g)
  | [] => trivial
  | x :: xs => ⟨h x, wellFormedElements_map h xs⟩

-- ══ Bytes

def utf8 (text : List Char) : List UInt8 := text.flatMap String.utf8EncodeChar

def ofUtf8 (bytes : List UInt8) : Option (List Char) :=
  (ByteArray.utf8Decode? ⟨bytes.toArray⟩).map Array.toList

lemma ofUtf8_utf8 (text : List Char) : ofUtf8 (utf8 text) = some text := by
  have hbytes : (⟨(utf8 text).toArray⟩ : ByteArray) = text.utf8Encode := by
    apply ByteArray.ext
    rw [utf8, utf8Encode, data_toByteArray]
  rw [ofUtf8, hbytes, List.utf8Decode?_utf8Encode]
  simp

def ofBytes (bytes : List UInt8) : Option Json := (ofUtf8 bytes).bind read

lemma ofBytes_utf8 (h : WellFormed j) (level : ℕ) :
    ofBytes (utf8 (render level j)) = some j := by
  rw [ofBytes, ofUtf8_utf8, bind_some, read_render h]

end Json

end Lib
