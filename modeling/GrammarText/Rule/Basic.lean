import GrammarText.Rule.Name
import GrammarText.Text.Blank
import GrammarText.Token.Basic

/-!
# Rules and alternatives

A rule is a name with a body; the bars outside parentheses cut the body into alternatives.
`joinBars` puts alternatives together again.
-/

namespace GrammarText

/-- A rule of a grammar. -/
structure Rule where
  name : Text
  /-- All tokens between the defining sign and the end of the rule. -/
  body : List Token := []
  /-- The comments before the rule, each with the whitespace right after it. -/
  comments : List Text := []
  /-- The place of the name. -/
  start : Position := {}
deriving DecidableEq, Repr

/-- One branch of a rule's body. -/
structure Alternative where
  tokens : List Token
  index : Nat := 0
deriving DecidableEq, Repr

namespace Alternative

/-- The tokens that carry grammar. -/
def significant (a : Alternative) : List Token :=
  GrammarText.significant a.tokens

/-- Whether nothing stands in the branch but whitespace and comments. -/
def isEmpty (a : Alternative) : Bool :=
  a.significant.isEmpty

/-- The text of the branch. -/
def text (a : Alternative) : Text :=
  spelling a.tokens

/-- The text of the branch on one line, for messages: every run of whitespace is one space. -/
def summary (a : Alternative) : Text :=
  strip (a.tokens.flatMap fun t => if t.kind == .whitespace then [' '] else t.text)

end Alternative

/-- The number of open parentheses after a token. A closing one without its partner counts nothing. -/
def depthAfter (depth : Nat) (t : Token) : Nat :=
  if t.isOp ['('] then depth + 1 else if t.isOp [')'] then depth - 1 else depth

/-- The pieces between the bars that stand outside parentheses, `depth` of which are open at the
start. The bars themselves are dropped. -/
def splitBars (depth : Nat) : List Token → List (List Token)
  | [] => [[]]
  | t :: ts =>
    if t.isOp ['|'] ∧ depth = 0 then [] :: splitBars 0 ts
    else (splitBars (depthAfter depth t) ts).modifyHead (t :: ·)

/-- The alternatives of a body, numbered from zero. -/
def alternatives (body : List Token) : List Alternative :=
  (splitBars 0 body).zipIdx.map fun (tokens, index) => ⟨tokens, index⟩

/-- The pieces with the given bars in between. -/
def joinBars : List Token → List (List Token) → List Token
  | _, [] => []
  | _, [piece] => piece
  | [], piece :: pieces => piece ++ joinBars [] pieces
  | bar :: bars, piece :: pieces => piece ++ bar :: joinBars bars pieces

/-- The alternatives of a rule. -/
def Rule.alternatives (r : Rule) : List Alternative :=
  GrammarText.alternatives r.body

/-- The convention that the rule's name follows. -/
def Rule.nameClass (r : Rule) : NameClass :=
  GrammarText.nameClass r.name

end GrammarText
