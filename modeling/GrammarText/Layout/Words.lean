import GrammarText.Text.Lines
import GrammarText.Token.Basic

/-!
# Words of a layout

A layout does not break everywhere. Tokens between which no space belongs are glued into one word, so
that no line break separates a sign of repetition from its item or a parenthesis from its content. A
comment stands on a line of its own, since what follows it could otherwise become part of it.
-/

namespace GrammarText

/-- Whether a space separates a token from the one before it. -/
def needsSpace (before : Option Token) (t : Token) : Bool :=
  match before with
  | none => false
  | some b =>
    !(t.isOneOf [[')'], ['?'], ['*'], ['+'], [',']] || b.isOp ['('] ||
      (b.isPunctuation && t.isPunctuation))

/-- The lines of tokens that hold no whitespace, each line as its words. -/
def wordLines : List Token → List (List Text)
  | [] => []
  | [t] => [[if t.kind == .comment then rstrip t.text else t.text]]
  | t :: u :: ts =>
    let lines := wordLines (u :: ts)
    if t.kind == .comment then [rstrip t.text] :: lines
    else if u.kind == .comment then [t.text] :: lines
    else if needsSpace (some t) u then lines.modifyHead (t.text :: ·)
    else lines.modifyHead (List.modifyHead (t.text ++ ·))

/-- The lines of a sequence of tokens, each line as its words. -/
def layoutLines (ts : List Token) : List (List Text) :=
  wordLines (ts.filter (·.kind != .whitespace))

/-- The tokens with normal spacing. -/
def joinTokens (ts : List Token) : Text :=
  joinLines ((layoutLines ts).map joinWords)

/-- Whether the last token, whitespace aside, is a comment that only the end of its line closes. -/
def endsWithLineComment (ts : List Token) : Bool :=
  match (ts.filter (·.kind != .whitespace)).getLast? with
  | some t => t.kind == .comment && ['/', '/'].isPrefixOf t.text
  | none => false

end GrammarText
