import GrammarText.Antlr.Convert

/-!
# A grammar reader

The functions that read statements, one call at a time: a reader keeps the tokens ahead, how many have
been passed, and what the headers so far announce. Calls may come at any place, also where reading a
whole grammar would not make them. Looking at the next significant token passes over what stands before
it.
-/

namespace GrammarText.Antlr

/-- No significant token is left where a statement has to begin. -/
inductive ReaderError where
  | noStatement
deriving DecidableEq, Repr

/-- The wording of the error. -/
def ReaderError.message : ReaderError → String
  | noStatement => "'NoneType' object has no attribute 'is_op'"

/-- A reader of an ANTLR grammar. -/
structure Reader where
  ahead : List Token
  /-- The number of tokens passed. Passing over lexer commands counts their sign even if nothing is
  ahead. -/
  passed : Nat := 0
  header : Option GrammarKind := none

namespace Reader

/-- A reader at the beginning of a text. -/
def ofText (source : Text) : Reader :=
  ⟨scan .antlr source, 0, none⟩

/-- The reader with the given tokens ahead. -/
def moveTo (r : Reader) (rest : List Token) : Reader :=
  { r with ahead := rest, passed := r.passed + (r.ahead.length - rest.length) }

/-- The reader at the next significant token. -/
def skipTrivia (r : Reader) : Reader :=
  r.moveTo (Antlr.skipTrivia r.ahead)

/-- The next significant token. -/
def current (r : Reader) : Option Token × Reader :=
  let r := r.skipTrivia
  (r.ahead.head?, r)

/-- The next significant token, which is passed. -/
def advance (r : Reader) : Option Token × Reader :=
  let r := r.skipTrivia
  (r.ahead.head?, r.moveTo r.ahead.tail)

/-- The significant token `n` places after the next one. -/
def peek (r : Reader) (n : Int) : Option Token × Reader :=
  let r := r.skipTrivia
  (if n < 0 then none else (significant r.ahead)[n.toNat]?, r)

/-- Whether the next significant token is one of the words. -/
def matchWord (r : Reader) (words : List String) : Bool × Reader :=
  let r := r.skipTrivia
  (r.ahead.head?.any (isWord words), r)

/-- Whether the next significant token has the sign of a label behind it. -/
def isElementLabel (r : Reader) : Bool × Reader :=
  let (t, r) := r.peek 1
  (t.any isLabelSign, r)

/-- Passes over everything through the next semicolon. -/
def skipThroughSemicolon (r : Reader) : Reader :=
  r.moveTo (Antlr.skipThroughSemicolon r.ahead)

/-- Passes over a named action. -/
def skipNamedAction (r : Reader) : Reader :=
  r.moveTo (Antlr.skipNamedAction r.ahead)

/-- Passes over a span in parentheses. -/
def skipParenthesized (r : Reader) : Reader :=
  r.moveTo (Antlr.skipParenthesized 0 r.ahead)

/-- Passes over the sign before lexer commands, whatever it is, and over the commands. -/
def skipLexerCommands (r : Reader) : Reader :=
  let r := { r with ahead := r.ahead.tail, passed := r.passed + 1 }
  r.moveTo (Antlr.skipLexerCommands r.ahead)

/-- Passes over element options. -/
def skipElementOptions (r : Reader) : Reader :=
  r.moveTo (Antlr.skipElementOptions r.ahead)

/-- Reads a rule. -/
def readRule (r : Reader) : Option AntlrRule × Reader :=
  let (s, rest) := Antlr.readRule r.ahead
  (s.rule?, r.moveTo rest)

/-- Reads a body. -/
def readBody (r : Reader) (phrase : Bool) : List Token × Reader :=
  let (body, rest) := Antlr.readBody phrase r.ahead
  (body, r.moveTo rest)

/-- Reads a statement. -/
def readStatement (r : Reader) : Except ReaderError (Option AntlrRule) × Reader :=
  match readStatement? r.ahead with
  | none => (.error .noStatement, r.moveTo [])
  | some (s, rest) => (.ok s.rule?, { r.moveTo rest with header := s.header? <|> r.header })

/-- Reads all rules that are left. -/
def readAll (r : Reader) : List AntlrRule × Reader :=
  let ss := readStatements r.ahead
  (ss.filterMap Statement.rule?, { r.moveTo [] with header := announcedKind ss <|> r.header })

end Reader

end GrammarText.Antlr
