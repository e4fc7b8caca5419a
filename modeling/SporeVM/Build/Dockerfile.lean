import Mathlib.Algebra.Order.Ring.Nat
import Mathlib.Tactic.Common
import SporeVM.Build.Lines

/-!
# The Dockerfile parser

`parse` reads a Dockerfile, with one instruction for each of its logical lines. The operands of an
instruction are kept as they are written. They are expanded when the stage is planned, and here it
is only checked that they can be.

Whether a text is a JSON array of strings is left to the JSON library, which is a parameter.
-/

namespace SporeVM.Dockerfile

open Lib.PathText (Text)
open Lib.Check (rejectIf)
open Variables (singleQuote doubleQuote)

-- ══ Words

structure WordToken where
  raw : Text
  value : Text
  start : ℕ
  deriving DecidableEq

structure Scanned where
  raw : Text
  value : Text
  rest : Text
  closed : Bool

def Scanned.push (scanned : Scanned) (raw value : Text) : Scanned :=
  { scanned with raw := raw ++ scanned.raw, value := value ++ scanned.value }

def scanWord (escape : Char) : Option Char → Text → Scanned
  | quote, [] => ⟨[], [], [], quote.isNone⟩
  | some quote, c :: cs =>
    if c = quote then (scanWord escape none cs).push [c] []
    else if c = escape ∧ quote = doubleQuote then
      match cs with
      | d :: ds => (scanWord escape (some quote) ds).push [c, d] [d]
      | [] => ⟨[c], [c], [], false⟩
    else (scanWord escape (some quote) cs).push [c] [c]
  | none, c :: cs =>
    if isWhitespace c = true then ⟨[], [], c :: cs, true⟩
    else if c = singleQuote ∨ c = doubleQuote then (scanWord escape (some c) cs).push [c] []
    else if c = escape then
      match cs with
      | d :: ds => (scanWord escape none ds).push [c, d] [d]
      | [] => ⟨[c], [c], [], true⟩
    else (scanWord escape none cs).push [c] [c]

-- The fuel is the number of characters: every word takes one.
def splitWordsFrom (escape : Char) (line : ℕ) : ℕ → ℕ → Text → Except Diagnostic (List WordToken)
  | 0, _, _ => .ok []
  | fuel + 1, start, text =>
    let skipped := text.takeWhile isWhitespace
    match text.drop skipped.length with
    | [] => .ok []
    | c :: cs => do
      let word := scanWord escape none (c :: cs)
      rejectIf (word.closed = false) ⟨line, "unterminated quoted Dockerfile argument"⟩
      let start := start + skipped.length
      let words ← splitWordsFrom escape line fuel (start + word.raw.length) word.rest
      pure (⟨word.raw, word.value, start⟩ :: words)

def splitWords (input : Text) (escape : Char) (line : ℕ) : Except Diagnostic (List WordToken) :=
  splitWordsFrom escape line input.length 0 input

/-- The checks of a word that will be expanded, with the message for a word that gets too long. -/
def validateWith (tooLarge : String) (input : Text) (options : Variables.Options) (line : ℕ) :
    Except Diagnostic Unit :=
  match Variables.validate input options with
  | .ok _ => .ok ()
  | .error .variableExpansionTooLarge => fail line tooLarge
  | .error _ => fail line "unsupported variable expansion"

def validateExpansion (input : Text) (escape : Char) (line : ℕ) : Except Diagnostic Unit :=
  validateWith "expanded Dockerfile argument is too large" input { escape } line

def validateHeredocExpansion (input : Text) (escape : Char) (line : ℕ) : Except Diagnostic Unit :=
  validateWith "expanded COPY heredoc is too large" input { escape, preserveQuotes := true } line

-- ══ FROM

def platformFlag : Text := "--platform=".toList

def parseFromFlag (escape : Char) (line : ℕ) :
    List WordToken → Except Diagnostic (Option Text × List WordToken)
  | [] => .ok (none, [])
  | first :: args =>
    if startsWith first.value "--" = true then do
      rejectIf (¬ platformFlag.isPrefixOf first.value ∨
        first.value.length = platformFlag.length ∨ ¬ platformFlag.isPrefixOf first.raw)
        ⟨line, "unsupported FROM flag"⟩
      let platform := first.raw.drop platformFlag.length
      validateExpansion platform escape line
      pure (some platform, args)
    else .ok (none, first :: args)

def parseFromName (line : ℕ) : List WordToken → Except Diagnostic (Option Text)
  | [] => .ok none
  | [keyword, name] =>
    if asciiEql keyword.value "AS".toList = true then do
      rejectIf (validStageName name.value = false) ⟨line, "FROM AS has an invalid stage name"⟩
      pure (some name.value)
    else fail line
      "unsupported FROM form; expected `FROM [--platform=<platform>] <name> [AS <stage>]`"
  | _ => fail line
      "unsupported FROM form; expected `FROM [--platform=<platform>] <name> [AS <stage>]`"

def parseFrom (rest : Text) (escape : Char) (line : ℕ) : Except Diagnostic Value := do
  let args ← splitWords rest escape line
  rejectIf (args = []) ⟨line, "FROM requires a source image"⟩
  let (platform, args) ← parseFromFlag escape line args
  match args with
  | [] => fail line "FROM requires a source image"
  | source :: args => do
    validateExpansion source.raw escape line
    let name ← parseFromName line args
    pure (.fromImage ⟨source.raw, platform, name⟩)

-- ══ Commands

inductive JsonStrings
  | malformed
  | notStringArray
  | strings (entries : List Text)
  deriving DecidableEq

inductive ExecArgvViolation
  | empty | emptyExecutable | tooManyArgs | nul | decodedTooLarge
  deriving DecidableEq

def maxExecArgs : ℕ := 16

def maxExecArgsBytes : ℕ := 4096

def nul : Char := Char.ofNat 0

def execArgvViolation : List Text → Option ExecArgvViolation
  | [] => some .empty
  | [] :: _ => some .emptyExecutable
  | argv =>
    if argv.length > maxExecArgs then some .tooManyArgs
    else if argv.any (nul ∈ ·) then some .nul
    else if (argv.map List.length).sum > maxExecArgsBytes then some .decodedTooLarge
    else none

def ExecArgvViolation.message : ExecArgvViolation → String
  | empty => "RUN exec form must be a non-empty JSON string array"
  | emptyExecutable => "RUN exec form requires a non-empty executable"
  | tooManyArgs => "RUN exec form has too many arguments; limit is 16"
  | nul => "RUN exec form arguments cannot contain NUL bytes"
  | decodedTooLarge => "RUN exec form arguments are too large; limit is 4096 decoded bytes"

section Commands

variable (json : Text → JsonStrings)

def parseCmd (message : String) (rest : Text) (line : ℕ) : Except Diagnostic Command :=
  let trimmed := trimStart blanks rest
  if startsWith trimmed "[" = true then
    match json trimmed with
    | .malformed => .ok (.shell rest)
    | .notStringArray => fail line message
    | .strings entries => .ok (.exec entries)
  else .ok (.shell rest)

def parseRunExec (rest : Text) (line : ℕ) : Except Diagnostic (Option (List Text)) :=
  match json (trimStart blanks rest) with
  | .malformed => .ok none
  | .notStringArray => fail line ExecArgvViolation.empty.message
  | .strings argv =>
    match execArgvViolation argv with
    | some violation => fail line violation.message
    | none => .ok (some argv)

end Commands

-- ══ RUN

def maxRunCacheMounts : ℕ := 8

def maxRunContextBindMounts : ℕ := 8

def mountFields (raw : Text) : List (Option (Text × Text)) := (raw.splitOn ',').map (cutAt '=')

def runMountType (raw : Text) : Option Text :=
  (((mountFields raw).filterMap id).find? fun field => field.1 = "type".toList).map Prod.snd

structure MountOptions where
  mountType : Option Text := none
  source : Option Text := none
  target : Option Text := none
  id : Option Text := none
  sharing : Option Text := none

structure MountKind where
  name : String
  accept : Text → MountOptions → Option (Option Text × (Text → MountOptions) × String)

def cacheMountOption (key : Text) (options : MountOptions) :
    Option (Option Text × (Text → MountOptions) × String) :=
  if asciiEql key "type".toList = true then
    some (options.mountType, fun v => { options with mountType := some v }, "type")
  else if asciiEql key "target".toList = true then
    some (options.target, fun v => { options with target := some v }, "target")
  else if asciiEql key "id".toList = true then
    some (options.id, fun v => { options with id := some v }, "id")
  else if asciiEql key "sharing".toList = true then
    some (options.sharing, fun v => { options with sharing := some v }, "sharing")
  else none

def bindMountOption (key : Text) (options : MountOptions) :
    Option (Option Text × (Text → MountOptions) × String) :=
  if asciiEql key "type".toList = true then
    some (options.mountType, fun v => { options with mountType := some v }, "type")
  else if key = "source".toList then
    some (options.source, fun v => { options with source := some v }, "source")
  else if key = "target".toList then
    some (options.target, fun v => { options with target := some v }, "target")
  else none

def cacheMountKind : MountKind := ⟨"RUN cache mount", cacheMountOption⟩

def bindMountKind : MountKind := ⟨"RUN context bind mount", bindMountOption⟩

def parseMountOptions (kind : MountKind) (line : ℕ) :
    List Text → MountOptions → Except Diagnostic MountOptions
  | [], options => .ok options
  | field :: fields, options => do
    rejectIf (field = []) ⟨line, kind.name ++ " has an empty option"⟩
    match cutAt '=' field with
    | none => fail line (kind.name ++ " options must use key=value")
    | some (key, value) => do
      rejectIf (key = [] ∨ value = []) ⟨line, kind.name ++ " options require non-empty values"⟩
      match kind.accept key options with
      | none => fail line ("unsupported " ++ kind.name ++ " option")
      | some (before, set, name) => do
        rejectIf (before ≠ none) ⟨line, "duplicate " ++ kind.name ++ " option: " ++ name⟩
        parseMountOptions kind line fields (set value)

def required {α : Type} (line : ℕ) (message : String) : Option α → Except Diagnostic α
  | some a => .ok a
  | none => fail line message

def validateOptional (word : Option Text) (escape : Char) (line : ℕ) : Except Diagnostic Unit :=
  match word with
  | some word => validateExpansion word escape line
  | none => .ok ()

def parseRunCacheMount (raw : Text) (escape : Char) (line : ℕ) :
    Except Diagnostic RunCacheMount := do
  rejectIf (raw = []) ⟨line, "RUN cache mount requires type=cache and target=<path>"⟩
  let options ← parseMountOptions cacheMountKind line (raw.splitOn ',') {}
  let mountType ← required line "RUN cache mount requires type=cache" options.mountType
  rejectIf (asciiEql mountType "cache".toList = false) ⟨line, "unsupported RUN mount type"⟩
  let target ← required line "RUN cache mount requires target=<path>" options.target
  validateExpansion target escape line
  validateOptional options.id escape line
  validateOptional options.sharing escape line
  rejectIf (∃ sharing ∈ options.sharing, '$' ∉ sharing ∧ asciiEql sharing "shared".toList = false ∧
    asciiEql sharing "locked".toList = false) ⟨line, "unsupported RUN cache sharing mode"⟩
  pure ⟨target, options.id, options.sharing⟩

def parseRunContextBindMount (raw : Text) (escape : Char) (line : ℕ) :
    Except Diagnostic RunContextBindMount := do
  let options ← parseMountOptions bindMountKind line (raw.splitOn ',') {}
  let mountType ← required line "RUN context bind mount requires type=bind" options.mountType
  rejectIf (mountType ≠ "bind".toList) ⟨line, "unsupported RUN mount type"⟩
  let source ← required line "RUN context bind mount requires source=<path>" options.source
  let target ← required line "RUN context bind mount requires target=<path>" options.target
  validateExpansion source escape line
  validateExpansion target escape line
  pure ⟨source, target⟩

def mountFlag : Text := "--mount=".toList

def parseRunMount (raw : Text) (escape : Char) (line : ℕ) (mounts : RunMounts) :
    Except Diagnostic RunMounts :=
  if raw = "type=ssh".toList then do
    rejectIf (mounts.sshDeclaredAbsent = true)
      ⟨line, "multiple RUN SSH mounts are unsupported"⟩
    pure { mounts with sshDeclaredAbsent := true }
  else if runMountType raw = some "ssh".toList then fail line "unsupported RUN SSH mount form"
  else if runMountType raw = some "bind".toList then do
    rejectIf (mounts.contextBindMounts.length = maxRunContextBindMounts)
      ⟨line, "RUN has too many context bind mounts"⟩
    let mount ← parseRunContextBindMount raw escape line
    pure { mounts with contextBindMounts := mounts.contextBindMounts ++ [mount] }
  else do
    rejectIf (∃ mountType ∈ runMountType raw, asciiEql mountType "cache".toList = false)
      ⟨line, "unsupported RUN mount type"⟩
    rejectIf (mounts.cacheMounts.length = maxRunCacheMounts)
      ⟨line, "RUN has too many cache mounts"⟩
    let mount ← parseRunCacheMount raw escape line
    pure { mounts with cacheMounts := mounts.cacheMounts ++ [mount] }

-- The fuel is the number of characters: every flag takes some.
def parseRunMounts (escape : Char) (line : ℕ) :
    ℕ → Text → RunMounts → Except Diagnostic (RunMounts × Text)
  | 0, _, _ => fail line "RUN requires a shell command"
  | fuel + 1, text, mounts => do
    let rest := trimStart blanks text
    rejectIf (rest = []) ⟨line, "RUN requires a shell command"⟩
    let token := rest.takeWhile fun c => !isBlank c
    if startsWith token "--" = true then do
      rejectIf (¬ mountFlag.isPrefixOf token ∨ singleQuote ∈ token ∨ doubleQuote ∈ token ∨
        escape ∈ token) ⟨line, "unsupported RUN flag"⟩
      let mounts ← parseRunMount (token.drop mountFlag.length) escape line mounts
      parseRunMounts escape line fuel (rest.drop token.length) mounts
    else pure (mounts, rest)

def RunHeredocSupported (command : Text) (heredoc : Heredoc) : Prop :=
  command = "<<".toList ++ heredoc.name ∧ validHeredocDelimiter heredoc.name = true ∧
    heredoc.body ≠ [] ∧ ¬ startsWith heredoc.body "#!" ∧ nul ∉ heredoc.body

instance (command : Text) (heredoc : Heredoc) : Decidable (RunHeredocSupported command heredoc) :=
  inferInstanceAs (Decidable (_ ∧ _))

def parseRunCommand (json : Text → JsonStrings) (commandRaw : Text) (mounts : RunMounts)
    (line : ℕ) : Except Diagnostic Command := do
  let argv ← if startsWith commandRaw "[" = true then parseRunExec json commandRaw line
    else .ok none
  match argv with
  | some argv => do
    rejectIf (mounts.contextBindMounts ≠ [])
      ⟨line, "RUN context bind mounts require ordinary shell form"⟩
    pure (.exec argv)
  | none => do
    rejectIf (holds commandRaw "<<".toList = true) ⟨line, "unsupported RUN heredoc"⟩
    pure (.shell commandRaw)

def parseRun (json : Text → JsonStrings) (rest : Text) (heredoc : Option Heredoc) (escape : Char)
    (line : ℕ) : Except Diagnostic Value := do
  rejectIf (rest = []) ⟨line, "RUN requires a shell command"⟩
  let (mounts, commandRaw) ← parseRunMounts escape line (rest.length + 1) rest {}
  match heredoc with
  | some heredoc => do
    rejectIf (mounts.contextBindMounts ≠ [])
      ⟨line, "RUN context bind mounts require ordinary shell form"⟩
    rejectIf (¬ RunHeredocSupported commandRaw heredoc) ⟨line, "unsupported RUN heredoc form"⟩
    pure (.run { toRunMounts := mounts, command := .shell heredoc.body })
  | none => do
    let command ← parseRunCommand json commandRaw mounts line
    pure (.run { toRunMounts := mounts, command })

-- ══ COPY and ADD

def flagName (value : Text) : String :=
  String.ofList ((cutAt '=' value).elim value Prod.fst)

def parseSwitch (flag : String) (value : Text) (line : ℕ) : Except Diagnostic Bool :=
  if value = flag.toList then .ok true
  else
    let setting := value.drop (flag.length + 1)
    if asciiEql setting "true".toList = true then .ok true
    else if asciiEql setting "false".toList = true then .ok false
    else fail line ("COPY " ++ flag ++ " requires true or false")

def isSwitch (flag : String) (arg : WordToken) : Prop :=
  (arg.value = flag.toList ∨ (flag.toList ++ ['=']).isPrefixOf arg.value) ∧ arg.raw = arg.value

instance (flag : String) (arg : WordToken) : Decidable (isSwitch flag arg) :=
  inferInstanceAs (Decidable (_ ∧ _))

def fromFlag : Text := "--from=".toList

def parseCopyFrom (source : Text) (escape : Char) (line : ℕ) : Except Diagnostic Unit :=
  rejectIf (Variables.expand source [] { escape } ≠ .ok source)
    ⟨line, "COPY --from does not support variable expansion or quoting"⟩

def parseCopyFlag (escape : Char) (line : ℕ) (arg : WordToken) (flags : CopyFlags) :
    Except Diagnostic CopyFlags :=
  if fromFlag.isPrefixOf arg.value = true ∧ arg.value.length > fromFlag.length ∧
      flags.fromSource = none ∧ fromFlag.isPrefixOf arg.raw = true then do
    let source := arg.raw.drop fromFlag.length
    parseCopyFrom source escape line
    pure { flags with fromSource := some source }
  else if isSwitch "--link" arg then do
    rejectIf (flags.link ≠ none) ⟨line, "duplicate COPY flag: --link"⟩
    let link ← parseSwitch "--link" arg.value line
    pure { flags with link := some link }
  else if isSwitch "--parents" arg then do
    rejectIf (flags.parents ≠ none) ⟨line, "duplicate COPY flag: --parents"⟩
    let parents ← parseSwitch "--parents" arg.value line
    pure { flags with parents := some parents }
  else fail line ("unsupported COPY flag: " ++ flagName arg.value)

def isFlag (arg : WordToken) : Bool := startsWith arg.value "--"

def parseCopyFlags (escape : Char) (line : ℕ) :
    List WordToken → CopyFlags → Except Diagnostic (CopyFlags × List WordToken)
  | [], flags => .ok (flags, [])
  | arg :: args, flags =>
    if isFlag arg = true then do
      let flags ← parseCopyFlag escape line arg flags
      parseCopyFlags escape line args flags
    else .ok (flags, arg :: args)

def rejectFlags (keyword : String) (line : ℕ) (args : List WordToken) : Except Diagnostic Unit :=
  match args.find? isFlag with
  | some arg => fail line ("unsupported " ++ keyword ++ " flag: " ++ flagName arg.value)
  | none => .ok ()

def parseCopyOperands (escape : Char) (line : ℕ) : List WordToken → Except Diagnostic Unit
  | [] => .ok ()
  | arg :: args => do
    rejectFlags "COPY" line [arg]
    validateExpansion arg.raw escape line
    parseCopyOperands escape line args

def parseCopyHeredoc (args : List WordToken) (heredoc : Heredoc) (escape : Char) (line : ℕ) :
    Except Diagnostic Value :=
  match args with
  | [source, dest] => do
    rejectIf (source.raw ≠ "<<".toList ++ heredoc.name ∨
      validHeredocDelimiter heredoc.name = false) ⟨line, "unsupported COPY heredoc form"⟩
    validateExpansion dest.raw escape line
    validateHeredocExpansion heredoc.body escape line
    pure (.copy { sources := [], dest := dest.raw, heredoc := some heredoc })
  | _ => fail line "unsupported COPY heredoc form"

def parseCopy (rest : Text) (heredoc : Option Heredoc) (escape : Char) (line : ℕ) :
    Except Diagnostic Value := do
  let args ← splitWords rest escape line
  match heredoc with
  | some heredoc => parseCopyHeredoc args heredoc escape line
  | none => do
    rejectIf (holds rest "<<".toList = true) ⟨line, "unsupported COPY heredoc"⟩
    let (flags, args) ← parseCopyFlags escape line args {}
    rejectIf (flags.parents ≠ none ∧ (flags.fromSource ≠ none ∨ flags.link ≠ none))
      ⟨line, "COPY --parents does not support other flags"⟩
    rejectIf (flags.link ≠ none ∧ flags.fromSource = none)
      ⟨line, "COPY --link requires --from"⟩
    rejectIf (args.length < 2) ⟨line, "COPY requires at least one source and a destination"⟩
    parseCopyOperands escape line args
    pure (.copy
      { toCopyFlags := flags
        sources := args.dropLast.map WordToken.raw
        dest := (args.getLast?.map WordToken.raw).getD []
        heredoc := none })

def parseAddFlags (escape : Char) (line : ℕ) :
    List WordToken → Option Text → Except Diagnostic (Option Text × List WordToken)
  | [], chmod => .ok (chmod, [])
  | arg :: args, chmod =>
    if isFlag arg = false then .ok (chmod, arg :: args)
    else if arg.value = "--chmod".toList ∧ arg.raw = arg.value then
      fail line "ADD --chmod requires a value"
    else if startsWith arg.value "--chmod=" = true ∧ startsWith arg.raw "--chmod=" = true then do
      rejectIf (chmod ≠ none) ⟨line, "duplicate ADD flag: --chmod"⟩
      let value := arg.raw.drop 8
      rejectIf (value = []) ⟨line, "ADD --chmod requires a non-empty octal value"⟩
      validateExpansion value escape line
      parseAddFlags escape line args (some value)
    else fail line ("unsupported ADD flag: " ++ flagName arg.value)

def hexDigitValue (c : Char) : Option ℕ :=
  if c.isDigit = true then some (c.toNat - '0'.toNat)
  else if 'a' ≤ c ∧ c ≤ 'f' then some (c.toNat - 'a'.toNat + 10)
  else if 'A' ≤ c ∧ c ≤ 'F' then some (c.toNat - 'A'.toNat + 10)
  else none

/-- `std.fmt.parseInt` of two characters in base sixteen: two digits, or a plus sign and one, or a
minus sign and a zero. -/
def parseHexByte (a b : Char) : Option ℕ :=
  if a = '+' then hexDigitValue b
  else if a = '-' then if b = '0' then some 0 else none
  else do
    let high ← hexDigitValue a
    let low ← hexDigitValue b
    pure (16 * high + low)

def previousDecodedByte : Text → Option (ℕ × Text)
  | [] => none
  | b :: a :: '%' :: rest => do
    let byte ← parseHexByte a b
    pure (byte, rest)
  | c :: rest => some (c.toNat, rest)

def endsInDecoded : Text → Text → Bool
  | [], _ => true
  | expected :: more, path =>
    match previousDecodedByte path with
    | some (byte, rest) => byte = expected.toNat && endsInDecoded more rest
    | none => false

def gitPath (path : Text) : Bool :=
  endsInDecoded "tig.".toList (trimEnd ['/'] path).reverse

def validateTemplate (source : Text) : Bool :=
  let scheme := "https://".toList
  let remainder := source.drop scheme.length
  let authority := remainder.takeWhile fun c => c ∉ ['/', '?', '#']
  let path := (remainder.drop authority.length).takeWhile (· ≠ '?')
  scheme.isPrefixOf source && authority ≠ [] && '$' ∉ authority && '@' ∉ authority &&
    '#' ∉ source && !gitPath path

local instance lawfulText : LawfulBEq Text := inferInstance

def hasParentPathSegment (path : Text) : Bool := Lib.PathText.dotDot ∈ path.splitOn '/'

def parseAdd (rest : Text) (escape : Char) (line : ℕ) : Except Diagnostic Value := do
  rejectIf (holds rest "<<".toList = true) ⟨line, "unsupported ADD heredoc"⟩
  let args ← splitWords rest escape line
  let (chmod, args) ← parseAddFlags escape line args none
  rejectFlags "ADD" line args
  match args with
  | [source, dest] => do
    rejectIf (validateTemplate source.value = false)
      ⟨line, "remote ADD source must have a literal HTTPS authority"⟩
    rejectIf (hasParentPathSegment dest.value = true)
      ⟨line, "remote ADD destination must not contain a parent path segment"⟩
    validateExpansion source.raw escape line
    validateExpansion dest.raw escape line
    pure (.add ⟨chmod, source.raw, dest.raw⟩)
  | _ => fail line "remote ADD requires exactly one source and one destination"

-- ══ ENV, ARG and WORKDIR

def parsePair (escape : Char) (line : ℕ) (word : WordToken) : Except Diagnostic Pair := do
  let key := (cutAt '=' word.value).elim word.value Prod.fst
  rejectIf (validName key = false) ⟨line, "ENV has an invalid name"⟩
  let raw ← required line "ENV has an invalid value" (cutAt '=' word.raw)
  validateExpansion raw.2 escape line
  pure ⟨key, raw.2⟩

def parseEnv (rest : Text) (escape : Char) (line : ℕ) : Except Diagnostic (List Pair) := do
  let words ← splitWords rest escape line
  if words ≠ [] ∧ ∀ word ∈ words, '=' ∈ word.value then words.mapM (parsePair escape line)
  else
    match words with
    | [] => fail line "ENV requires at least one key/value pair"
    | key :: value :: _ => do
      rejectIf (validName key.value = false) ⟨line, "ENV has an invalid name"⟩
      let value := trimStart blanks (rest.drop value.start)
      validateExpansion value escape line
      pure [⟨key.value, value⟩]
    | _ => fail line "ENV requires KEY VALUE or KEY=VALUE"

def parseArg (rest : Text) (escape : Char) (line : ℕ) : Except Diagnostic Arg := do
  let args ← splitWords rest escape line
  match args with
  | [arg] =>
    match cutAt '=' arg.value with
    | none => do
      rejectIf (validName arg.value = false) ⟨line, "ARG has an invalid name"⟩
      pure ⟨arg.value, none⟩
    | some (key, _) => do
      rejectIf (validName key = false) ⟨line, "ARG has an invalid name"⟩
      let raw ← required line "ARG has an invalid default" (cutAt '=' arg.raw)
      validateExpansion raw.2 escape line
      pure ⟨key, some raw.2⟩
  | _ => fail line "ARG requires exactly one name or name=default"

def parseWorkdir (rest : Text) (escape : Char) (line : ℕ) : Except Diagnostic Value := do
  let args ← splitWords rest escape line
  match args with
  | [path] => do
    validateExpansion path.raw escape line
    pure (.workdir path.raw)
  | _ => fail line "WORKDIR requires exactly one path"

-- ══ Instructions and stages

section Parse

variable (json : Text → JsonStrings)

def parseInstruction (line : ℕ) (op rest : Text) (heredoc : Option Heredoc) (escape : Char) :
    Except Diagnostic Value :=
  if asciiEql op "FROM".toList = true then parseFrom rest escape line
  else if asciiEql op "RUN".toList = true then parseRun json rest heredoc escape line
  else if asciiEql op "COPY".toList = true then parseCopy rest heredoc escape line
  else if asciiEql op "ADD".toList = true then parseAdd rest escape line
  else if asciiEql op "ENV".toList = true then do
    let pairs ← parseEnv rest escape line
    pure (.env pairs)
  else if asciiEql op "ARG".toList = true then do
    let arg ← parseArg rest escape line
    pure (.arg arg)
  else if asciiEql op "WORKDIR".toList = true then parseWorkdir rest escape line
  else if asciiEql op "CMD".toList = true then do
    rejectIf (rest = []) ⟨line, "CMD requires a command"⟩
    let cmd ← parseCmd json "CMD exec form must be a JSON string array" rest line
    pure (.cmd cmd)
  else if asciiEql op "ENTRYPOINT".toList = true then do
    rejectIf (rest = []) ⟨line, "ENTRYPOINT requires a command"⟩
    let cmd ← parseCmd json "ENTRYPOINT exec form must be a JSON string array" rest line
    pure (.entrypoint cmd)
  else fail line ("unsupported Dockerfile instruction: " ++ String.ofList op)

def rawText (trimmed : Text) : Option Heredoc → Text
  | some heredoc => trimmed ++ '\n' :: heredoc.body ++ heredoc.name
  | none => trimmed

def parseLine (escape : Char) (line : LogicalLine) : Except Diagnostic (Option Instruction) :=
  let trimmed := trim [' ', '\t', '\r', '\n'] line.text
  if trimmed = [] then .ok none
  else do
    let op := firstWord trimmed
    let rest := trimStart blanks (trimmed.drop op.length)
    let value ← parseInstruction json line.line op rest line.heredoc escape
    pure (some
      { line := line.line
        span := ⟨line.line, line.endLine⟩
        raw := rawText trimmed line.heredoc
        escape
        value })

def splitStages : List Instruction → List Instruction × List (Instruction × List Instruction)
  | [] => ([], [])
  | instruction :: rest =>
    let (leading, stages) := splitStages rest
    if instruction.value.isFrom = true then ([], (instruction, leading) :: stages)
    else (instruction :: leading, stages)

def stageName : Value → Option Text
  | .fromImage image => image.name
  | _ => none

def stageOf (index : ℕ) (stage : Instruction × List Instruction) : Stage :=
  { index
    span :=
      { startLine := stage.1.span.startLine
        endLine := (stage.2.getLast?.getD stage.1).span.endLine }
    image := stage.1
    name := stageName stage.1.value
    instructions := stage.2 }

def parseStages (instructions : List Instruction) : Except Diagnostic (List Stage) :=
  match splitStages instructions with
  | (instruction :: _, _) => fail instruction.line "Dockerfile instruction must follow FROM"
  | ([], stages) =>
    match stages.drop maxStages with
    | extra :: _ => fail extra.1.line "Dockerfile has too many stages"
    | [] => do
      rejectIf (stages = []) ⟨1, "Dockerfile requires at least one FROM instruction"⟩
      pure (stages.mapIdx stageOf)

def parse (bytes : Text) : Except Diagnostic Document := do
  rejectIf (bytes.length > maxDockerfileBytes) ⟨1, "Dockerfile is too large"⟩
  let physical := bytes.splitOn '\n'
  let directives ← parseDirectives physical
  let lines ← logicalLines directives.escape physical
  let parsed ← lines.mapM (parseLine json directives.escape)
  let instructions := parsed.filterMap id
  let globalArgs := instructions.takeWhile fun instruction => instruction.value.isArg
  let stages ← parseStages (instructions.drop globalArgs.length)
  pure { directives, globalArgs, stages }

end Parse

end SporeVM.Dockerfile
