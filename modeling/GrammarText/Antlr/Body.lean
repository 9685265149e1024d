import GrammarText.Antlr.Skip
import GrammarText.Rule.Basic

/-!
# Rule bodies of an ANTLR grammar

A body is read up to its semicolon. What has no counterpart in EBNF is dropped: comments, actions and
predicates, lexer commands, labels of alternatives and of elements, element options, and arguments of
rule references. All other tokens are kept as they are.
-/

namespace GrammarText.Antlr

/-- Whether the token marks the identifier before it as a label. -/
def isLabelSign (t : Token) : Bool :=
  t.isOp ['='] || t.isOp ['+', '=']

/-- What follows a span that is dropped, if one begins with the token `t` that stands before `ts`.
`last` is the token that was kept last; in a rule for phrases, brackets right behind a name are its
arguments. -/
def afterDropped? (phrase : Bool) (last : Option Token) (t : Token) (ts : List Token) :
    Option (List Token) :=
  if t.kind == .comment then some ts
  else if t.kind == .action then
    match ts with
    | u :: rest => some (if u.isOp ['?'] then rest else u :: rest)
    | [] => some []
  else if t.isOp ['-', '>'] then some (skipLexerCommands ts)
  else if t.isOp ['#'] then some (dropNextIf (·.kind == .identifier) ts)
  else if t.isOp ['<'] then some (skipElementOptions ts)
  else if t.kind == .identifier && nextIs isLabelSign ts then some (dropNext ts)
  else if t.kind == .charClass && phrase && last.any (·.kind == .identifier) then some ts
  else none

theorem length_le_of_afterDropped? {phrase : Bool} {last : Option Token} {t : Token}
    {ts rest : List Token} (h : afterDropped? phrase last t ts = some rest) : rest.length ≤ ts.length := by
  unfold afterDropped? at h
  split at h
  · cases h; exact Nat.le_refl _
  split at h
  · split at h
    · cases h
      split
      · simp
      · exact Nat.le_refl _
    · cases h; exact Nat.le_refl _
  split at h
  · cases h; exact length_skipLexerCommands_le ts
  split at h
  · cases h; exact length_dropNextIf_le _ ts
  split at h
  · cases h; exact length_skipElementOptions_le ts
  split at h
  · cases h; exact length_dropNext_le ts
  split at h
  · cases h; exact Nat.le_refl _
  · cases h

/-- Reads a body with `depth` parentheses open: the tokens that are kept, and those after the
semicolon. -/
def readKept (phrase : Bool) (depth : Nat) (last : Option Token) : List Token → List Token × List Token
  | [] => ([], [])
  | t :: ts =>
    match _h : afterDropped? phrase last t ts with
    | some rest => readKept phrase depth last rest
    | none =>
      if t.isOp [';'] ∧ depth = 0 then ([], ts)
      else
        let r := readKept phrase (depthAfter depth t) (some t) ts
        (t :: r.1, r.2)
termination_by ts => ts.length
decreasing_by
  · have := length_le_of_afterDropped? _h
    simp only [List.length_cons]; omega
  · simp

theorem length_readKept_le (phrase : Bool) (depth : Nat) (last : Option Token) (ts : List Token) :
    (readKept phrase depth last ts).2.length ≤ ts.length := by
  fun_induction readKept phrase depth last ts with
  | case1 => exact Nat.le_refl _
  | case2 depth last t ts rest h ih =>
    have := length_le_of_afterDropped? h
    simp only [List.length_cons]; omega
  | case3 => simp
  | case4 depth last t ts h hs r ih => simp only [List.length_cons, r]; omega

/-- The tokens without the whitespace and the bars at the end. -/
def trimBody (ts : List Token) : List Token :=
  (ts.reverse.dropWhile fun t => t.kind == .whitespace || t.isOp ['|']).reverse

/-- Reads a body: its tokens, and what follows its semicolon. -/
def readBody (phrase : Bool) (ts : List Token) : List Token × List Token :=
  let r := readKept phrase 0 none ts
  (trimBody r.1, r.2)

end GrammarText.Antlr
