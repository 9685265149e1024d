import GrammarText.Rule.Basic

/-!
# Balance of delimiters

Delimiters are balanced if no closer comes before its opener and as many open as close. Literals and
comments do not count; a character class counts as a whole.
-/

namespace GrammarText

/-- The surplus of opening over closing brackets in the text of a character class. A backslash takes
the next character with it. -/
def classDepth : Text → Int
  | [] => 0
  | c :: r =>
    if c == '\\' then classDepth (r.drop 1)
    else (if c == '[' then 1 else if c == ']' then -1 else 0) + classDepth r
termination_by t => t.length

/-- Whether the running sum never falls below zero and is zero in the end. -/
def staysBalanced (sum : Int) : List Int → Bool
  | [] => sum == 0
  | d :: ds => 0 ≤ sum + d && staysBalanced (sum + d) ds

/-- By how much a token changes the number of open parentheses. -/
def parenthesisStep (t : Token) : Int :=
  if t.isOp ['('] then 1 else if t.isOp [')'] then -1 else 0

/-- By how much a token changes the number of open brackets. -/
def bracketStep (t : Token) : Int :=
  match t.kind with
  | .literal | .comment | .whitespace => 0
  | .charClass => classDepth t.text
  | _ => if t.text == [']'] then -1 else 0

/-- Whether the parentheses of the tokens are balanced. -/
def parenthesesBalanced (ts : List Token) : Bool :=
  staysBalanced 0 (ts.map parenthesisStep)

/-- Whether the brackets of the tokens are balanced. -/
def bracketsBalanced (ts : List Token) : Bool :=
  staysBalanced 0 (ts.map bracketStep)

end GrammarText
