import GrammarText.Text.Letter
import GrammarText.Text.Quoted

/-!
# Tokens

A grammar text is read as a sequence of classified tokens that together spell the whole text. This
module holds the token type and the tests that the later stages put to a token.
-/

namespace GrammarText

/-- The class of a token. -/
inductive TokenKind where
  /-- A run of spaces, tabs and line ends. -/
  | whitespace
  /-- A word, or a single character that no other class covers. -/
  | identifier
  /-- A literal between quotation marks. -/
  | literal
  /-- A character class, or rule arguments, between square brackets. -/
  | charClass
  /-- An operator of the dialect. -/
  | operator
  /-- A block or line comment. -/
  | comment
  /-- Embedded code between braces. -/
  | action
deriving DecidableEq, Repr

namespace TokenKind

/-- All classes. -/
def all : List TokenKind :=
  [.whitespace, .identifier, .literal, .charClass, .operator, .comment, .action]

/-- The name of the class in listings. -/
def label : TokenKind → String
  | whitespace => "whitespace"
  | identifier => "identifier"
  | literal => "quoted-literal"
  | charClass => "character-class"
  | operator => "operator"
  | comment => "comment"
  | action => "action"

/-- The class with the given name. -/
def ofLabel? (s : String) : Option TokenKind :=
  all.find? (·.label == s)

/-- The name of the class in the description of a single token. -/
def tag : TokenKind → String
  | whitespace => "WHITESPACE"
  | identifier => "IDENTIFIER"
  | literal => "STRING"
  | charClass => "CHAR_CLASS"
  | operator => "OPERATOR"
  | comment => "COMMENT"
  | action => "ACTION"

end TokenKind

/-- A place in a text: line and column, both counted from one. -/
structure Position where
  line : Int := 1
  column : Int := 1
deriving DecidableEq, Repr

namespace Position

/-- The place after one more character. -/
def next (p : Position) (c : Char) : Position :=
  if c == '\n' then ⟨p.line + 1, 1⟩ else ⟨p.line, p.column + 1⟩

/-- The place after a text. -/
def advance (p : Position) (t : Text) : Position :=
  t.foldl next p

theorem advance_append (p : Position) (s t : Text) : p.advance (s ++ t) = (p.advance s).advance t :=
  List.foldl_append

end Position

/-- A token: its class, its text and the place of its first character. -/
structure Token where
  kind : TokenKind
  text : Text
  start : Position := {}
deriving DecidableEq, Repr

namespace Token

/-- Whitespace and comments, which carry no grammar. -/
def isTrivia (t : Token) : Bool :=
  t.kind == .whitespace || t.kind == .comment

/-- Whether the token is the operator with the given text. -/
def isOp (t : Token) (text : Text) : Bool :=
  t.kind == .operator && t.text == text

/-- Whether the token is one of the given operators. -/
def isOneOf (t : Token) (texts : List Text) : Bool :=
  texts.any t.isOp

/-- A stray character such as a tilde or a dot, kept as an identifier that is no word. -/
def isPunctuation (t : Token) : Bool :=
  t.kind == .identifier &&
    match t.text with
    | [] => true
    | c :: _ => !(isLetter c || c == '_')

/-- The token as one line for listings: class, quoted text and place. -/
def describe (t : Token) : String :=
  s!"Token({t.kind.tag}, {String.ofList (quoted t.text)}, {t.start.line}:{t.start.column})"

end Token

/-- The tokens that carry grammar, without whitespace and comments. -/
def significant (ts : List Token) : List Token :=
  ts.filter fun t => !t.isTrivia

/-- The text that a sequence of tokens spells. -/
def spelling (ts : List Token) : Text :=
  ts.flatMap Token.text

end GrammarText
