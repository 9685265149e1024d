import GrammarText.Text.Letter
import GrammarText.Text.Uppercase

/-!
# Names

What the spelling of a name says about the rule that bears it. Terminal names are upper-case ASCII
words, structural names are words that begin with a lower-case ASCII letter or an underscore, and a
name in the general sense is a word that begins with an ASCII letter or an underscore. A line feed
after a name is not part of it.
-/

namespace GrammarText

/-- The text without a line feed at its end. -/
def dropFinalNewline (t : Text) : Text :=
  if t.getLast? = some '\n' then t.dropLast else t

/-- Whether the text, a final line feed aside, begins with a character of the one kind and goes on with
characters of the other. -/
def hasShape (first rest : Char → Bool) (t : Text) : Bool :=
  match dropFinalNewline t with
  | [] => false
  | c :: r => first c && r.all rest

/-- An upper-case ASCII word. -/
def isTerminalName (t : Text) : Bool :=
  hasShape (fun c => c == '_' || c.isUpper) (fun c => c == '_' || c.isUpper || c.isDigit) t

/-- A word that begins with a lower-case ASCII letter or an underscore. -/
def isStructuralName (t : Text) : Bool :=
  hasShape (fun c => c == '_' || c.isLower) isWordChar t

/-- A word that begins with an ASCII letter or an underscore: all that can refer to a rule. -/
def isReferenceName (t : Text) : Bool :=
  hasShape (fun c => c == '_' || c.isAlpha) isWordChar t

/-- Whether a rule of this name describes tokens and not phrases: its name begins with a capital. -/
def isLexerName : Text → Bool
  | [] => false
  | c :: _ => isUppercase c

/-- The naming conventions for rules. -/
inductive NameClass where
  | terminal
  | structural
  | mixed
deriving DecidableEq, Repr

/-- The name of the convention. -/
def NameClass.label : NameClass → String
  | terminal => "terminal"
  | structural => "structural"
  | mixed => "mixed"

/-- The convention that a name follows. -/
def nameClass (t : Text) : NameClass :=
  if isTerminalName t then .terminal else if isStructuralName t then .structural else .mixed

end GrammarText
