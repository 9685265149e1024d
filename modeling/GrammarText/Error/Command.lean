import GrammarText.Data.Value
import GrammarText.Error.Located

/-!
# Errors of commands

What can go wrong while a command runs, and how it is reported to the user: the code and the message, a
hint, and on demand the circumstances and a trace.
-/

namespace GrammarText

/-- What kind of thing went wrong. -/
inductive CommandErrorKind where
  /-- Any kind that only its code tells. -/
  | general
  /-- The settings cannot be read. -/
  | config
  /-- The command line asks for what cannot be done. -/
  | validation
  /-- An input file does not exist. -/
  | fileNotFound
  /-- A file cannot be read or written. -/
  | file
deriving DecidableEq, Repr

/-- The code of the kind. -/
def CommandErrorKind.code : CommandErrorKind → String
  | general => ""
  | config => "CLI_CONFIG_ERROR"
  | validation => "CLI_VALIDATION_ERROR"
  | fileNotFound => "CLI_FILE_NOT_FOUND"
  | file => "CLI_FILE_ERROR"

/-- An error of a command. -/
structure CommandError where
  kind : CommandErrorKind
  message : String
  code : String := kind.code
  hint : Option String := none
  /-- The circumstances, by name. -/
  context : List (String × String) := []
deriving DecidableEq, Repr

/-- The circumstances with those of the error behind it. -/
def withCause (context : List (String × String)) (kindName text : String) : List (String × String) :=
  setEntry "original_type" kindName (setEntry "original_exception" text context)

/-- An error that can be reported. -/
inductive ErrorReport where
  | command (e : CommandError)
  | located (e : LocatedError)
  /-- Any other error, by the name of its kind and its message. -/
  | other (kindName message : String)

namespace ErrorReport

/-- The lines that name the circumstances. -/
def contextLines (context : List (String × String)) : List String :=
  if context.isEmpty then [] else "\nContext:" :: context.map fun (k, v) => s!"  {k}: {v}"

/-- The lines of the report without the trace. -/
def lines (verbose : Bool) : ErrorReport → List String
  | command e =>
    [s!"Error [{e.code}]: {e.message}"] ++
      ((e.hint.filter (!·.isEmpty)).map fun h => s!"Hint: {h}").toList ++
      if verbose then contextLines e.context else []
  | located e => [s!"Error: {e.describe}"]
  | other kindName message => [s!"Error: {kindName}: {message}"]

/-- The report, with a trace if one is given. -/
def describe (r : ErrorReport) (verbose : Bool) (trace : Option String := none) : String :=
  String.intercalate "\n" (r.lines verbose ++ (trace.map fun t => s!"\nTraceback:\n{t}").toList)

end ErrorReport

end GrammarText
