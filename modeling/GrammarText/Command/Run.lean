import GrammarText.Command.Activity
import GrammarText.Command.Failure
import GrammarText.Command.Request

/-!
# Running commands

`run` is the whole program as a function: from the surroundings and the words of the command line to
what is printed, how the program ends, and the disk that it leaves. `format` never writes when it only
checks, and no command writes more than one file.
-/

namespace GrammarText

/-- What the program finds when it starts. -/
structure Environment where
  disk : Disk
  /-- The environment variables. -/
  exports : List (String × String) := []
  /-- The time, as log records show it. -/
  time : String

namespace Environment

/-- Whether a variable is set to a word for yes. -/
def switchedOn (env : Environment) (name : String) : Bool :=
  match env.exports.lookup name with
  | some v => ["1", "true", "yes", "on"].contains (String.ofList (strip v.toList)).toLower
  | none => false

/-- Whether errors are reported in full. -/
def verbose (env : Environment) (o : GlobalOptions) : Bool :=
  o.verbose || env.switchedOn "G4EBNF_VERBOSE" || env.switchedOn "G4EBNF_DEBUG"

/-- Whether errors end the program instead of being reported. -/
def debugging (env : Environment) : Bool :=
  env.switchedOn "G4EBNF_DEBUG"

/-- The least level of the records that are printed. -/
def logLevel (env : Environment) (o : GlobalOptions) : LogLevel :=
  match o.logLevel with
  | some l => l
  | none => ((env.exports.lookup "G4EBNF_LOG_LEVEL").map LogLevel.ofName).getD .warning

/-- The working folder. -/
def folder (env : Environment) : Path :=
  ⟨.top, env.disk.working⟩

end Environment

/-- What a command answers. -/
structure Reply where
  /-- What goes to standard output. -/
  out : String := ""
  /-- What goes to standard error. -/
  err : String := ""
  /-- The status, or why the command gave up. -/
  result : Except Failure Nat := .ok 0
  disk : Disk

/-- What a command works with. -/
structure Workbench where
  disk : Disk
  settings : Settings
  /-- The lines that records make on standard error. -/
  log : List LogRecord → String

namespace Workbench

/-- A command gives up, having printed `err`. -/
def fail (w : Workbench) (f : Failure) (err : String := "") : Reply :=
  { err := err, result := .error f, disk := w.disk }

/-- The settings with the width that a request asks for. -/
def settingsWith (w : Workbench) : NumberOption → Except Failure Settings
  | .unset => .ok w.settings
  | .given n => .ok (w.settings.withWidth n)
  | .empty => .error .emptyWidth

/-- Reads the grammars of a conversion, with the warnings about their names. -/
def readGrammars (d : Disk) : List String → String × Except Failure (List Antlr.GrammarSource)
  | [] => ("", .ok [])
  | name :: names =>
    match readNamedSource d name with
    | .error f => ("", .error f)
    | .ok s =>
      let warning :=
        if (Path.ofString name).suffix = ".g4" then ""
        else s!"Warning: File '{name}' does not have .g4 extension\n"
      let (warnings, r) := readGrammars d names
      (warning ++ warnings, r.map (s :: ·))

/-- The text with a line feed at its end. -/
def endLine (t : Text) : Text :=
  if t.getLast? = some '\n' then t else t ++ ['\n']

/-- The records of a conversion. -/
def convertRecords (format : Bool) (c : Antlr.Conversion) : List LogRecord :=
  Antlr.conversionRecords c ++ (if format then formattingRecords c.text else []) ++
    [⟨"cli.commands", .debug,
      s!"Converted {c.phraseRules.length} parser and {c.lexerRules.length} lexer rules"⟩]

/-- Converts ANTLR grammars. -/
def convert (w : Workbench) (r : ConvertRequest) : Reply :=
  match w.settingsWith r.width, readGrammars w.disk r.files with
  | .error f, _ => w.fail f
  | .ok _, (warnings, .error f) => w.fail f warnings
  | .ok settings, (warnings, .ok sources) =>
    let plain := Antlr.convert sources
    let c := if r.format then Antlr.convertFormatted sources settings.width else plain
    let err := warnings ++ w.log (convertRecords r.format plain)
    match r.output.filter (!·.isEmpty) with
    | none => { out := String.ofList (endLine c.text), err := err, disk := w.disk }
    | some name =>
      match writeText w.disk (Path.ofString name) (endLine c.text) with
      | .error f => w.fail f err
      | .ok d => { err := err ++ s!"Generated EBNF written to: {name}\n", disk := d }

/-- The layout that a request asks for. A style comes with its own width. -/
def layout (w : Workbench) (r : FormatRequest) : Except Failure LayoutOptions :=
  (w.settingsWith r.width).map fun s =>
    match r.style, r.width with
    | some style, .unset => style.options
    | some style, _ => { style.options with width := s.width }
    | none, _ => { width := s.width, joinShort := s.joinShort }

/-- The failure of a command that is asked to change a file and not to change it. -/
def contradiction : Failure :=
  .command
    { kind := .validation, message := "--inplace and --check cannot be used together"
      hint := some "Use --check in CI and --inplace locally" }

/-- The failure of a command that cannot format a file. -/
def formattingFailure (name : String) (f : Formatted) : Failure :=
  .command
    { kind := .file, message := s!"Could not format '{name}'"
      context := [("errors", String.intercalate "; " f.errors)] }

/-- Answers with a formatted document, as the request asks. -/
def deliver (w : Workbench) (r : FormatRequest) (f : Formatted) (err : String) : Reply :=
  let p := Path.ofString r.file
  let shown := p.relativeTo w.disk.working
  if !f.success then w.fail (formattingFailure r.file f) err
  else if r.check then
    if f.changed then { out := s!"would reformat {shown}\n", err := err, result := .ok 1, disk := w.disk }
    else { out := s!"{shown} is already formatted\n", err := err, disk := w.disk }
  else if r.inplace then
    match writeText w.disk p f.text with
    | .error e => w.fail e err
    | .ok d => { out := s!"Formatted {p.name} ({f.ruleCount} rules).\n", err := err, disk := d }
  else { out := String.ofList f.text, err := err, disk := w.disk }

/-- The records of formatting a file. -/
def formatRecords (name : String) (source : Text) (f : Formatted) : List LogRecord :=
  formattingRecords source ++ f.warnings.map fun m => ⟨"cli.commands", .warning, s!"{name}: {m}"⟩

/-- Formats a grammar. -/
def format (w : Workbench) (r : FormatRequest) : Reply :=
  if r.inplace && r.check then w.fail contradiction
  else
    match readNamedSource w.disk r.file with
    | .error f => w.fail f
    | .ok source =>
      match w.layout r with
      | .error f => w.fail f
      | .ok o =>
        let f := formatDocument o source.text
        w.deliver r f (w.log (formatRecords r.file source.text f))

/-- Checks a grammar. -/
def check (w : Workbench) (r : CheckRequest) : Reply :=
  match readNamedSource w.disk r.file with
  | .error f => w.fail f
  | .ok source =>
    let start := ((r.start.filter (!·.isEmpty)).map String.toList).or w.settings.startRule
    let report := lintDocument defaultChecks source.text start
    let shown := (Path.ofString r.file).relativeTo w.disk.working
    { out := if r.json then report.json shown ++ "\n" else report.terminal shown
      err := w.log (checkingRecords source.text report)
      result := .ok (if report.success then 0 else 1)
      disk := w.disk }

/-- Does what a request asks for. -/
def perform (w : Workbench) : Request → Reply
  | .convert r => w.convert r
  | .format r => w.format r
  | .check r => w.check r

end Workbench

/-- How the program ends. -/
inductive Ending where
  /-- The command has run and gives its status. -/
  | finished (status : Nat)
  /-- Reading the command line ends the program. -/
  | halted (status : Nat)
  /-- The program breaks off. -/
  | broken (f : Failure)

/-- What the program leaves behind. -/
structure Outcome where
  out : String := ""
  err : String := ""
  ending : Ending
  disk : Disk

/-- What the program prints when it is asked for its version. -/
def versionText : String :=
  "g4ebnf 1.0.0\n"

/-- The outcome of a failure after `err` was printed. -/
def Failure.outcome (f : Failure) (env : Environment) (verbose : Bool) (out err : String) (d : Disk) :
    Outcome :=
  match f.report? with
  | some report =>
    if env.debugging then { out := out, err := err, ending := .broken f, disk := d }
    else
      let trace := if verbose then some f.message else none
      { out := out, err := err ++ report.describe verbose trace ++ "\n", ending := .finished 1, disk := d }
  | none => { out := out, err := err, ending := .broken f, disk := d }

/-- Runs a request. -/
def runRequest (env : Environment) (o : GlobalOptions) (request : Request) : Outcome :=
  let named := (o.config.filter (!·.isEmpty)).map Path.ofString
  match loadSettings env.disk env.folder named with
  | .error e => (Failure.ofLoadError e).outcome env (env.verbose o) "" "" env.disk
  | .ok settings =>
    let r := Workbench.perform ⟨env.disk, settings, logText env.time (env.logLevel o)⟩ request
    match r.result with
    | .ok status => { out := r.out, err := r.err, ending := .finished status, disk := r.disk }
    | .error f => f.outcome env (env.verbose o) r.out r.err r.disk

/-- Runs the program. -/
def run (env : Environment) (arguments : List String) : Outcome :=
  match readCommandLine arguments with
  | .error (.help h) => { out := h.text, ending := .halted 0, disk := env.disk }
  | .error .version => { out := versionText, ending := .halted 0, disk := env.disk }
  | .error (.usage h e) => { err := h.complaint e.message, ending := .halted 2, disk := env.disk }
  | .ok (_, none) => { out := CommandHelp.forProgram.text, ending := .finished 2, disk := env.disk }
  | .ok (o, some request) => runRequest env o request

end GrammarText
