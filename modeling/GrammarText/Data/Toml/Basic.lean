import GrammarText.Data.Numeral
import GrammarText.Text.Quoted

/-!
# TOML: errors, gaps and comments

What can be wrong with a TOML document, in which words, and where; and the parts of a document that
say nothing. As with the other readers, an error knows how much of the text was left where it arose.
-/

namespace GrammarText

/-- The name of an entry: the names of the tables around it, outermost first, and its own. -/
abbrev Key := List String

/-- A key as messages show it: its quoted parts between parentheses, a lone part with a comma. -/
def describeKey : Key → String
  | [part] => s!"({quotedString part},)"
  | parts => "(" ++ String.intercalate ", " (parts.map quotedString) ++ ")"

/-- What is wrong with a TOML document. -/
inductive TomlFault where
  | statement
  | lineEnd
  | equalsSign
  | keyStart
  | tableEnd
  | tableListEnd
  /-- A table is declared that has been declared or written out before. -/
  | declaredTwice (key : Key)
  /-- A dotted key extends a table that another section holds. -/
  | redefined (key : Key)
  /-- A statement would add to a value that has been written out. -/
  | immutable (key : Key)
  | overwritten
  | duplicateInline (part : String)
  | listEnd
  | inlineEnd
  | escape
  | hexDigits
  | noScalarValue
  | unterminated
  /-- A character that a string with escapes cannot hold. -/
  | illegal (c : Char)
  /-- A character that a comment or a literal string cannot hold. -/
  | invalid (c : Char)
  /-- A literal string lacks its closing mark. -/
  | closingMark (mark : Text)
  | moment
  | value
deriving DecidableEq, Repr

/-- The wording of a fault. -/
def TomlFault.message : TomlFault → String
  | statement => "Invalid statement"
  | lineEnd => "Expected newline or end of document after a statement"
  | equalsSign => "Expected '=' after a key in a key/value pair"
  | keyStart => "Invalid initial character for a key part"
  | tableEnd => "Expected ']' at the end of a table declaration"
  | tableListEnd => "Expected ']]' at the end of an array declaration"
  | declaredTwice key => s!"Cannot declare {describeKey key} twice"
  | redefined key => s!"Cannot redefine namespace {describeKey key}"
  | immutable key => s!"Cannot mutate immutable namespace {describeKey key}"
  | overwritten => "Cannot overwrite a value"
  | duplicateInline part => s!"Duplicate inline table key {quotedString part}"
  | listEnd => "Unclosed array"
  | inlineEnd => "Unclosed inline table"
  | escape => "Unescaped '\\' in a string"
  | hexDigits => "Invalid hex value"
  | noScalarValue => "Escaped character is not a Unicode scalar value"
  | unterminated => "Unterminated string"
  | illegal c => s!"Illegal character {String.ofList (quoted [c])}"
  | invalid c => s!"Found invalid character {String.ofList (quoted [c])}"
  | closingMark mark => s!"Expected {String.ofList (quoted mark)}"
  | moment => "Invalid date or datetime"
  | value => "Invalid value"

/-- Why a TOML document is refused. -/
inductive TomlError where
  /-- A fault with its line and column, or with none at the end of the document. -/
  | syntaxFault (fault : TomlFault) (place : Option (Nat × Nat))
  | tooLong (e : LengthError)
deriving DecidableEq, Repr

/-- The wording of the error. -/
def TomlError.message : TomlError → String
  | syntaxFault fault (some (line, column)) => s!"{fault.message} (at line {line}, column {column})"
  | syntaxFault fault none => s!"{fault.message} (at end of document)"
  | tooLong e => e.message

namespace Toml

/-- A fault and the text from the place where it arose. -/
inductive Failure where
  | fault (f : TomlFault) (rest : Text)
  | tooLong (e : LengthError)

/-- A reader takes something off the front of a text. -/
abbrev Reader (α : Type) := Text → Except Failure (α × Text)

/-- A gap inside a line. -/
def isGap (c : Char) : Bool :=
  c == ' ' || c == '\t'

/-- A gap between the items of a list. -/
def isWideGap (c : Char) : Bool :=
  isGap c || c == '\n'

/-- A control character other than the tab; neither a comment nor a string of one line holds one. -/
def isControl (c : Char) : Bool :=
  (c.toNat < 0x20 || c.toNat == 0x7f) && c != '\t'

/-- A control character that a string of many lines cannot hold. -/
def isBlockControl (c : Char) : Bool :=
  isControl c && c != '\n'

/-- The text without the gap in front. -/
def skipGap (t : Text) : Text :=
  t.dropWhile isGap

/-- The text without the comment in front. -/
def skipComment : Text → Except Failure Text
  | '#' :: r =>
    let (comment, rest) := r.span (· != '\n')
    match comment.dropWhile fun c => !isControl c with
    | [] => .ok rest
    | c :: more => .error (.fault (.invalid c) (c :: more ++ rest))
  | t => .ok t

/-- The text without the gaps, line ends and comments in front; `fuel` bounds their number. -/
def skipWideGap : Nat → Text → Except Failure Text
  | 0, t => .ok t
  | fuel + 1, t => do
    let rest ← skipComment (t.dropWhile isWideGap)
    if rest.length = t.length then return rest
    else skipWideGap fuel rest

/-- The error for a failure, in a document of which the failure shows what was left. -/
def Failure.toError (document : Text) : Failure → TomlError
  | fault f [] => .syntaxFault f none
  | fault f rest =>
    let before := document.take (document.length - rest.length)
    let onLine := (before.reverse.takeWhile (· != '\n')).length
    .syntaxFault f (some (before.count '\n' + 1, onLine + 1))
  | tooLong e => .tooLong e

end Toml

end GrammarText
