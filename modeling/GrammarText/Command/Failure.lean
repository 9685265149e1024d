import GrammarText.Antlr.Convert
import GrammarText.Error.Command
import GrammarText.Settings.Load

/-!
# Failing commands

Why a command gives up, and the steps that can make it: reading a grammar and writing a text. Most
failures are reported to the user; the rest are none that a command expects.
-/

namespace GrammarText

/-- Why a command gives up. -/
inductive Failure where
  | command (e : CommandError)
  /-- A grammar cannot be read. -/
  | source (e : LocatedError)
  /-- The disk refuses the very path. -/
  | refused (e : FileError)
  /-- The table of tools in a project file is a value of the given type. -/
  | notSection (typeName : String)
  /-- A width is asked for without a number. -/
  | emptyWidth
deriving DecidableEq, Repr

namespace Failure

/-- What went wrong, without place, code and hint. -/
def message : Failure → String
  | command e => e.message
  | source e => e.message
  | refused e => e.message
  | notSection typeName => (LoadError.notSection typeName).message
  | emptyWidth => SettingFault.integerExpected.message

/-- The report to the user, if there is one. -/
def report? : Failure → Option ErrorReport
  | command e => some (.command e)
  | source e => some (.located e)
  | _ => none

/-- The failure that an error in the settings makes of a command. -/
def ofConfigError (e : ConfigError) : Failure :=
  let l := e.toLocated
  .command
    { kind := .config
      message := s!"{l.message} ({l.location.describe})"
      hint := some (l.hint.getD "Check the g4ebnf settings file")
      context := [("path", e.path.toString)] }

/-- The failure that missing settings make of a command. -/
def ofLoadError : LoadError → Failure
  | .config e => ofConfigError e
  | .data e => ofConfigError (.unreadable e ⟨.working, []⟩)
  | .refused e => .refused e
  | .notSection typeName => .notSection typeName

end Failure

/-- The error of a grammar file that cannot be read. -/
def sourceError (path : String) (e : DataError) : LocatedError :=
  { message := s!"Cannot read grammar file: {e.message}", location := { path := some path }
    code := some LocatedError.sourceCode }

/-- Reads a grammar file. -/
def readSource (d : Disk) (path : String) : Except Failure Antlr.GrammarSource :=
  match readText d (Path.ofString path) with
  | .ok t => .ok ⟨path.toList, normalizeNewlines t⟩
  | .error (.file ⟨.nullCharacter, p⟩) => .error (.refused ⟨.nullCharacter, p⟩)
  | .error e => .error (.source (sourceError path e))

/-- Reads the grammar file that the command line names. -/
def readNamedSource (d : Disk) (name : String) : Except Failure Antlr.GrammarSource :=
  let p := Path.ofString name
  match d.contains p with
  | .error e => .error (.refused e)
  | .ok false =>
    .error <| .command
      { kind := .fileNotFound, message := s!"File '{p.toString}' does not exist"
        context := [("path", p.toString)] }
  | .ok true => readSource d p.toString

/-- Writes a text to a file. -/
def writeText (d : Disk) (p : Path) (t : Text) : Except Failure Disk :=
  match d.write p (encodeUtf8 t) with
  | .ok d => .ok d
  | .error e =>
    if e.fault = .nullCharacter then .error (.refused e)
    else
      .error <| .command
        { kind := .file, message := s!"Cannot write '{p.toString}'"
          context := withCause [("path", p.toString)] e.fault.kindName e.message }

end GrammarText
