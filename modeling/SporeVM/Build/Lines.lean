import SporeVM.Build.Variables
import Mathlib.Data.List.Infix

/-!
# Dockerfiles and their lines

A Dockerfile is a sequence of stages, and a stage a sequence of instructions. An instruction keeps
the text it was read from, `raw`, beside its value. This module has the documents and the first two
passes over a file: the directives at its head, and the logical lines with their continuations and
here-documents. Everything that can be wrong with a file is reported with the line it stands on and
a message.
-/

namespace SporeVM.Dockerfile

open Lib.PathText (Text)
open Lib.Check (rejectIf)
open Variables (backslash singleQuote doubleQuote)

structure Diagnostic where
  line : ℕ
  message : String
  deriving DecidableEq

def fail {α : Type} (line : ℕ) (message : String) : Except Diagnostic α :=
  .error ⟨line, message⟩

-- ══ Documents

structure Directives where
  syntaxFrontend : Option Text := none
  escape : Char := backslash
  deriving DecidableEq

structure Span where
  startLine : ℕ
  endLine : ℕ
  deriving DecidableEq

structure From where
  source : Text
  platform : Option Text
  name : Option Text
  deriving DecidableEq

inductive Command
  | shell (text : Text)
  | exec (argv : List Text)
  deriving DecidableEq

structure RunCacheMount where
  target : Text
  id : Option Text
  sharing : Option Text
  deriving DecidableEq

structure RunContextBindMount where
  source : Text
  target : Text
  deriving DecidableEq

structure RunMounts where
  cacheMounts : List RunCacheMount := []
  contextBindMounts : List RunContextBindMount := []
  sshDeclaredAbsent : Bool := false
  deriving DecidableEq

structure Run extends RunMounts where
  command : Command
  deriving DecidableEq

structure Heredoc where
  name : Text
  body : Text
  deriving DecidableEq

structure CopyFlags where
  fromSource : Option Text := none
  link : Option Bool := none
  parents : Option Bool := none
  deriving DecidableEq

structure Copy extends CopyFlags where
  sources : List Text
  dest : Text
  heredoc : Option Heredoc
  deriving DecidableEq

structure Add where
  chmod : Option Text
  source : Text
  dest : Text
  deriving DecidableEq

structure Pair where
  key : Text
  value : Text
  deriving DecidableEq

structure Arg where
  key : Text
  default : Option Text
  deriving DecidableEq

inductive Value
  | fromImage (image : From)
  | run (run : Run)
  | copy (copy : Copy)
  | add (add : Add)
  | env (pairs : List Pair)
  | arg (arg : Arg)
  | workdir (path : Text)
  | cmd (cmd : Command)
  | entrypoint (cmd : Command)
  deriving DecidableEq

def Value.isFrom : Value → Bool
  | fromImage _ => true
  | _ => false

def Value.isArg : Value → Bool
  | arg _ => true
  | _ => false

structure Instruction where
  line : ℕ
  span : Span
  raw : Text
  escape : Char
  value : Value
  deriving DecidableEq

structure Stage where
  index : ℕ
  span : Span
  image : Instruction
  name : Option Text
  instructions : List Instruction
  deriving DecidableEq

structure Document where
  directives : Directives
  globalArgs : List Instruction
  stages : List Stage
  deriving DecidableEq

-- ══ Texts

def blanks : List Char := [' ', '\t']

def isBlank (c : Char) : Bool := c ∈ blanks

def isWhitespace (c : Char) : Bool :=
  c ∈ [' ', '\t', '\n', '\r', Char.ofNat 11, Char.ofNat 12]

def trimStart (chars : List Char) (text : Text) : Text := text.dropWhile (· ∈ chars)

def trimEnd (chars : List Char) (text : Text) : Text :=
  (text.reverse.dropWhile (· ∈ chars)).reverse

def trim (chars : List Char) (text : Text) : Text := trimEnd chars (trimStart chars text)

def firstWord (text : Text) : Text := text.takeWhile fun c => !isWhitespace c

def asciiEql (a b : Text) : Bool := a.map Char.toLower = b.map Char.toLower

def asciiStartsWith (text head : Text) : Bool := asciiEql (text.take head.length) head

def startsWith (text : Text) (head : String) : Bool := head.toList.isPrefixOf text

def holds (text part : Text) : Bool := text.tails.any part.isPrefixOf

def cutAt (c : Char) (text : Text) : Option (Text × Text) :=
  if c ∈ text then some (text.takeWhile (· ≠ c), (text.dropWhile (· ≠ c)).tail) else none

def validName : Text → Bool
  | [] => false
  | c :: cs => (c.isAlpha || c = '_') && cs.all Variables.nameChar

def validStageName : Text → Bool
  | [] => false
  | c :: cs => c.isAlpha &&
      (c :: cs).all (fun d => d.isAlphanum || d = '_' || d = '.' || d = '-') &&
      !(c :: cs).all Char.isDigit

def validHeredocDelimiter : Text → Bool := validName

-- ══ Directives

def maxDockerfileBytes : ℕ := 1024 * 1024

def maxLogicalLineBytes : ℕ := 64 * 1024

def maxStages : ℕ := 256

def maxShellCommandBytes : ℕ := 64 * 1024

def backtick : Char := Char.ofNat 96

def supportedSyntaxDirective (value : Text) : Bool :=
  let registry := "docker.io/".toList
  let normalized := if registry.isPrefixOf value then value.drop registry.length else value
  let image := "docker/dockerfile:".toList
  if image.isPrefixOf normalized then
    match normalized.drop image.length with
    | ['1'] => true
    | '1' :: c :: _ => c = '.' || c = '@'
    | _ => false
  else false

def parseDirectivesFrom : ℕ → List Text → Directives → Bool → Except Diagnostic Directives
  | _, [], directives, _ => .ok directives
  | lineNo, rawLine :: lines, directives, sawEscape =>
    match trim [' ', '\t', '\r'] rawLine with
    | [] => .ok directives
    | c :: cs =>
      if c ≠ '#' then .ok directives
      else
        let body := trimStart blanks cs
        if asciiStartsWith body "syntax=".toList = true then do
          rejectIf (directives.syntaxFrontend ≠ none)
            ⟨lineNo, "duplicate syntax parser directive"⟩
          let value := trim blanks (body.drop 7)
          rejectIf (value = []) ⟨lineNo, "syntax parser directive requires a value"⟩
          rejectIf (supportedSyntaxDirective value = false)
            ⟨lineNo, "unsupported Dockerfile syntax frontend"⟩
          parseDirectivesFrom (lineNo + 1) lines
            { directives with syntaxFrontend := some value } sawEscape
        else if asciiStartsWith body "escape=".toList = true then do
          rejectIf (sawEscape = true) ⟨lineNo, "duplicate escape parser directive"⟩
          match trim blanks (body.drop 7) with
          | [value] => do
            rejectIf (value ≠ backslash ∧ value ≠ backtick)
              ⟨lineNo, "escape parser directive must be `\\` or ```"⟩
            parseDirectivesFrom (lineNo + 1) lines { directives with escape := value } true
          | _ => fail lineNo "escape parser directive must be `\\` or ```"
        else .ok directives

def parseDirectives (lines : List Text) : Except Diagnostic Directives :=
  parseDirectivesFrom 1 lines {} false

-- ══ Logical lines

structure LogicalLine where
  line : ℕ
  endLine : ℕ
  text : Text
  heredoc : Option Heredoc
  deriving DecidableEq

inductive HeredocInstruction
  | copy | run
  deriving DecidableEq

namespace HeredocInstruction

def unsupportedMessage : HeredocInstruction → String
  | copy => "unsupported COPY heredoc form"
  | run => "unsupported RUN heredoc form"

def tooLargeMessage : HeredocInstruction → String
  | copy => "COPY heredoc is too large"
  | run => "RUN heredoc is too large"

def unterminatedMessage : HeredocInstruction → String
  | copy => "unterminated COPY heredoc"
  | run => "unterminated RUN heredoc"

def bodyLimit : HeredocInstruction → ℕ
  | copy => maxDockerfileBytes
  | run => maxShellCommandBytes

def ofKeyword (op : Text) : Option HeredocInstruction :=
  if asciiEql op "COPY".toList = true then some copy
  else if asciiEql op "RUN".toList = true then some run
  else none

end HeredocInstruction

structure HeredocMarker where
  instruction : HeredocInstruction
  terminator : Text
  count : ℕ
  chomp : Bool
  deriving DecidableEq

def heredocToken (token : Text) : Option Text :=
  let rest := token.dropWhile Char.isDigit
  if startsWith rest "<<" = true then some (rest.drop 2) else none

def unquoted (token : Text) : Text :=
  if 2 ≤ token.length ∧ token.head? = token.getLast? ∧
      (token.head? = some singleQuote ∨ token.head? = some doubleQuote)
  then token.tail.dropLast else token

def instructionHeredoc (text : Text) : Option HeredocMarker :=
  let trimmed := trim [' ', '\t', '\r', '\n'] text
  let op := firstWord trimmed
  let rest := trimStart blanks (trimmed.drop op.length)
  if op = trimmed then none
  else
    match HeredocInstruction.ofKeyword op,
        ((rest.splitOnP isBlank).filter (· ≠ [])).filterMap heredocToken with
    | some instruction, token :: tokens =>
      let chomp := token.head? = some '-'
      some
        { instruction
          terminator := unquoted (if chomp then token.tail else token)
          count := tokens.length + 1
          chomp }
    | _, _ => none

structure LineState where
  current : Text := []
  currentLine : ℕ := 1
  continuing : Bool := false

structure OpenHeredoc where
  marker : HeredocMarker
  text : Text
  body : Text

def logicalLinesFrom (escape : Char) :
    ℕ → List Text → LineState → Option OpenHeredoc → List LogicalLine →
      Except Diagnostic (List LogicalLine)
  | _, [], state, none, lines => do
    rejectIf (state.continuing = true)
      ⟨state.currentLine, "unterminated Dockerfile line continuation"⟩
    pure lines
  | _, [], state, some heredoc, _ =>
    fail state.currentLine heredoc.marker.instruction.unterminatedMessage
  | lineNo, rawLine :: rest, state, some heredoc, lines =>
    let bodyLine := trimEnd ['\r'] rawLine
    let marker := heredoc.marker
    let possibleTerminator := if marker.chomp then trimStart ['\t'] bodyLine else bodyLine
    if possibleTerminator = marker.terminator then
      logicalLinesFrom escape (lineNo + 1) rest { state with current := [] } none
        (lines ++ [⟨state.currentLine, lineNo, heredoc.text,
          some ⟨marker.terminator, heredoc.body⟩⟩])
    else do
      let body := heredoc.body ++ bodyLine ++ ['\n']
      rejectIf (body.length > marker.instruction.bodyLimit)
        ⟨state.currentLine, marker.instruction.tooLargeMessage⟩
      logicalLinesFrom escape (lineNo + 1) rest state (some { heredoc with body }) lines
  | lineNo, rawLine :: rest, state, none, lines =>
    let line := trimEnd ['\r'] rawLine
    let head := (trimStart blanks line).head?
    -- an empty line and a comment do not end a continuation
    if head = none ∨ head = some '#' then
      logicalLinesFrom escape (lineNo + 1) rest state none lines
    else do
      let currentLine := if state.continuing then state.currentLine else lineNo
      let trimmedRight := trimEnd blanks line
      let hasContinuation : Bool := trimmedRight.getLast? = some escape
      let part := if hasContinuation then trimmedRight.dropLast else line
      let current := state.current ++ part
      rejectIf (current.length > maxLogicalLineBytes)
        ⟨currentLine, "Dockerfile logical line is too long"⟩
      if hasContinuation = true then
        logicalLinesFrom escape (lineNo + 1) rest ⟨current, currentLine, true⟩ none lines
      else
        match instructionHeredoc current with
        | some marker => do
          rejectIf (marker.count ≠ 1 ∨ marker.terminator = [])
            ⟨currentLine, marker.instruction.unsupportedMessage⟩
          logicalLinesFrom escape (lineNo + 1) rest ⟨current, currentLine, false⟩
            (some ⟨marker, current, []⟩) lines
        | none =>
          logicalLinesFrom escape (lineNo + 1) rest ⟨[], currentLine, false⟩ none
            (lines ++ [⟨currentLine, lineNo, current, none⟩])

def logicalLines (escape : Char) (lines : List Text) : Except Diagnostic (List LogicalLine) :=
  logicalLinesFrom escape 1 lines {} none []

end SporeVM.Dockerfile
