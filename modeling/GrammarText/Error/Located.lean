/-!
# Errors about files

An error that a file causes, with the place in the file, a code and a hint where there are any.
-/

namespace GrammarText

/-- A place in a file, as far as it is known. -/
structure Location where
  path : Option String := none
  line : Option Int := none
  column : Option Int := none
deriving DecidableEq, Repr

namespace Location

/-- The text for a place of which nothing is known. -/
def unknown : String := "unknown location"

/-- The place as a text. A line counts only with a path, and a column only with a line. -/
def describe (l : Location) : String :=
  match l.path.filter (!·.isEmpty), l.line, l.column with
  | none, _, _ => unknown
  | some p, none, _ => p
  | some p, some line, none => s!"{p}:{line}"
  | some p, some line, some column => s!"{p}:{line}:{column}"

end Location

/-- An error that a file causes. -/
structure LocatedError where
  message : String
  location : Location := {}
  code : Option String := none
  hint : Option String := none
deriving DecidableEq, Repr

namespace LocatedError

/-- The code of an error in reading a grammar. -/
def sourceCode : String := "SOURCE_ERROR"

/-- The code of an error in the settings. -/
def configCode : String := "CONFIG_ERROR"

/-- The place and the code, as far as there are any. -/
def details (e : LocatedError) : List String :=
  ([e.location.describe].filter (· != Location.unknown)) ++ (e.code.filter (!·.isEmpty)).toList

/-- The error in one line: the message, the details between parentheses, and the hint. -/
def describe (e : LocatedError) : String :=
  let details := String.intercalate "; " e.details
  let head := if e.details.isEmpty then e.message else s!"{e.message} ({details})"
  let hint := (e.hint.filter (!·.isEmpty)).map fun h => s!"Hint: {h}"
  String.intercalate " " (([head].filter (!·.isEmpty)) ++ hint.toList)

end LocatedError

end GrammarText
