import GrammarText.Command.Log
import GrammarText.Command.Reading
import GrammarText.Layout.Style

/-!
# Requests

What a command line can ask for: three commands with their options, and the options before them.
`readCommandLine` gives the request that the words make, or says how reading them ends.
-/

namespace GrammarText

/-- The options before the command. -/
structure GlobalOptions where
  /-- The path of the settings file. -/
  config : Option String := none
  verbose : Bool := false
  logLevel : Option LogLevel := none
deriving DecidableEq, Repr

/-- The conversion of ANTLR grammars. -/
structure ConvertRequest where
  files : List String := []
  format : Bool := false
  width : NumberOption := .unset
  output : Option String := none
deriving DecidableEq, Repr

/-- The formatting of a grammar. -/
structure FormatRequest where
  file : String := ""
  width : NumberOption := .unset
  inplace : Bool := false
  check : Bool := false
  style : Option Style := none
deriving DecidableEq, Repr

/-- The check of a grammar. -/
structure CheckRequest where
  file : String := ""
  start : Option String := none
  json : Bool := false
deriving DecidableEq, Repr

/-- What a command line asks for. -/
inductive Request where
  | convert (r : ConvertRequest)
  | format (r : FormatRequest)
  | check (r : CheckRequest)
deriving DecidableEq, Repr

/-- What the program understands before the command. -/
def globalInterface : Interface GlobalOptions where
  help := .forProgram
  options :=
    [.help, ⟨["--version"], .version⟩,
     ⟨["--config"], OptionSpec.text fun v o => { o with config := v }⟩,
     ⟨["--verbose"], .flag fun o => { o with verbose := true }⟩,
     ⟨["--log-level"],
       OptionSpec.choice
         [("debug", LogLevel.debug), ("info", .info), ("warn", .warning), ("error", .error)]
         fun l o => { o with logLevel := l }⟩]

/-- What the conversion understands. -/
def convertInterface : Interface ConvertRequest where
  help := .forConvert
  options :=
    [.help, ⟨["--format", "--prettify"], .flag fun r => { r with format := true }⟩,
     ⟨["--width"], OptionSpec.integer fun n r => { r with width := n }⟩,
     ⟨["--output", "-o"], OptionSpec.text fun v r => { r with output := v }⟩]

/-- What the formatting understands. -/
def formatInterface : Interface FormatRequest where
  help := .forFormat
  options :=
    [.help, ⟨["--width"], OptionSpec.integer fun n r => { r with width := n }⟩,
     ⟨["--inplace", "-i"], .flag fun r => { r with inplace := true }⟩,
     ⟨["--check"], .flag fun r => { r with check := true }⟩,
     ⟨["--style"],
       OptionSpec.choice (Style.all.map fun s => (s.label, s)) fun s r => { r with style := s }⟩]

/-- What the check understands. -/
def checkInterface : Interface CheckRequest where
  help := .forCheck
  options :=
    [.help, ⟨["--start"], OptionSpec.text fun v r => { r with start := v }⟩,
     ⟨["--json"], .flag fun r => { r with json := true }⟩]

/-- The names of the commands. -/
def commandNames : List String :=
  ["convert", "format", "check"]

/-- Reads the arguments of the command of the given name. -/
def readCommand (name : String) (arguments : List String) : Except Halt (Request × List String) :=
  match name with
  | "convert" => do
    let (r, left) ← convertInterface.read (.many "GRAMMAR" fun fs r => { r with files := fs }) {} arguments
    return (.convert r, left)
  | "format" => do
    let (r, left) ← formatInterface.read (.one "file" fun f r => { r with file := f }) {} arguments
    return (.format r, left)
  | "check" => do
    let (r, left) ← checkInterface.read (.one "file" fun f r => { r with file := f }) {} arguments
    return (.check r, left)
  | _ => .error (.usage .forProgram (.badValue "command" (.notAmong name commandNames)))

/-- Reads a command line. The request is `none` if no command is named. -/
def readCommandLine (arguments : List String) : Except Halt (GlobalOptions × Option Request) := do
  let words ← (readWords globalInterface.options arguments).mapError (Halt.usage .forProgram)
  let (options, left, rest) ← readLeading globalInterface {} [] words
  let (request, left) ←
    match rest with
    | [] => pure (none, left)
    | ["--"] => pure (none, left ++ ["--"])
    | name :: arguments => do
      let (r, more) ← readCommand name arguments
      pure (some r, left ++ more)
  if left.isEmpty then return (options, request)
  else .error (.usage .forProgram (.unrecognized left))

end GrammarText
