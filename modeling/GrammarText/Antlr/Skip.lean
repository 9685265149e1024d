import GrammarText.Token.Basic

/-!
# Spans of an ANTLR grammar that are passed over

Each function takes the tokens ahead and gives those after a span. `skipTrivia` stops before the next
significant token; where another function looks for such a token and does not find what it looks for,
the whitespace and the comments before it are passed over all the same. No function ever gives back
more than it took (`length_..._le`).
-/

namespace GrammarText.Antlr

/-- The tokens without the whitespace and the comments in front. -/
def skipTrivia (ts : List Token) : List Token :=
  ts.dropWhile Token.isTrivia

/-- The next significant token. -/
def next? (ts : List Token) : Option Token :=
  (skipTrivia ts).head?

/-- Whether the next significant token passes the test. -/
def nextIs (p : Token → Bool) (ts : List Token) : Bool :=
  (next? ts).any p

/-- What follows the next significant token. -/
def dropNext (ts : List Token) : List Token :=
  (skipTrivia ts).tail

/-- What follows the next significant token if it passes the test; otherwise that token still comes. -/
def dropNextIf (p : Token → Bool) (ts : List Token) : List Token :=
  match skipTrivia ts with
  | t :: rest => if p t then rest else t :: rest
  | [] => []

/-- What follows all significant tokens that pass the test, up to the first that does not. -/
def dropNextWhile (p : Token → Bool) (ts : List Token) : List Token :=
  ts.dropWhile fun t => t.isTrivia || p t

/-- Whether the token is one of the given words. -/
def isWord (words : List String) (t : Token) : Bool :=
  t.kind == .identifier && words.any fun w => t.text == w.toList

/-- What follows the next semicolon. -/
def skipThroughSemicolon (ts : List Token) : List Token :=
  (ts.dropWhile fun t => !t.isOp [';']).tail

/-- What follows a named action: its sign, its name with or without a scope, and its block. -/
def skipNamedAction (ts : List Token) : List Token :=
  dropNextIf (·.kind == .action)
    (dropNextWhile (fun t => t.kind == .identifier || t.isOp [':', ':']) (dropNext ts))

/-- What follows a span in parentheses, `depth` of which are open. A closing one ends the span also if
none is open. -/
def skipParenthesized (depth : Nat) : List Token → List Token
  | [] => []
  | t :: ts =>
    if t.isOp ['('] then skipParenthesized (depth + 1) ts
    else if t.isOp [')'] then if depth ≤ 1 then ts else skipParenthesized (depth - 1) ts
    else skipParenthesized depth ts

/-- What follows element options: the tokens up to the closing sign, or those before the semicolon that
ends the rule first. -/
def skipElementOptions : List Token → List Token
  | [] => []
  | t :: ts =>
    if t.isOp [';'] then t :: ts
    else if t.isOp ['>'] then ts
    else skipElementOptions ts

theorem length_skipTrivia_le (ts : List Token) : (skipTrivia ts).length ≤ ts.length :=
  (List.dropWhile_sublist _).length_le

theorem length_dropNext_le (ts : List Token) : (dropNext ts).length ≤ ts.length :=
  Nat.le_trans (List.tail_sublist _).length_le (length_skipTrivia_le ts)

theorem length_dropNextIf_le (p : Token → Bool) (ts : List Token) :
    (dropNextIf p ts).length ≤ ts.length := by
  have h := length_skipTrivia_le ts
  unfold dropNextIf
  split
  · rename_i t rest hs
    rw [hs, List.length_cons] at h
    split
    · omega
    · rwa [List.length_cons]
  · exact Nat.zero_le _

theorem length_dropNextWhile_le (p : Token → Bool) (ts : List Token) :
    (dropNextWhile p ts).length ≤ ts.length :=
  (List.dropWhile_sublist _).length_le

theorem length_skipThroughSemicolon_le (ts : List Token) :
    (skipThroughSemicolon ts).length ≤ ts.length :=
  Nat.le_trans (List.tail_sublist _).length_le (List.dropWhile_sublist _).length_le

theorem length_skipParenthesized_le (depth : Nat) (ts : List Token) :
    (skipParenthesized depth ts).length ≤ ts.length := by
  fun_induction skipParenthesized depth ts <;> grind

theorem length_skipElementOptions_le (ts : List Token) : (skipElementOptions ts).length ≤ ts.length := by
  fun_induction skipElementOptions ts <;> grind

/-- What follows lexer commands: words, each with arguments in parentheses or without, with commas in
between. -/
def skipLexerCommands (ts : List Token) : List Token :=
  match _h : skipTrivia ts with
  | [] => []
  | t :: rest =>
    if t.kind == .identifier then
      let rest' := if nextIs (·.isOp ['(']) rest then skipParenthesized 0 rest else rest
      match _h' : skipTrivia rest' with
      | [] => []
      | u :: more => if u.isOp [','] then skipLexerCommands more else u :: more
    else t :: rest
termination_by ts.length
decreasing_by
  have h1 := length_skipTrivia_le ts
  have h2 := length_skipTrivia_le rest'
  have h3 : rest'.length ≤ rest.length := by
    simp only [rest']
    split
    · exact length_skipParenthesized_le 0 rest
    · exact Nat.le_refl _
  rw [_h, List.length_cons] at h1
  rw [_h', List.length_cons] at h2
  omega

theorem length_skipLexerCommands_le (ts : List Token) : (skipLexerCommands ts).length ≤ ts.length := by
  fun_induction skipLexerCommands ts with
  | case1 => exact Nat.zero_le _
  | case2 => exact Nat.zero_le _
  | case3 ts t rest hs ht rest' u more hs' hu ih =>
    have h1 := length_skipTrivia_le ts
    have h2 := length_skipTrivia_le rest'
    have h3 : rest'.length ≤ rest.length := by
      simp only [rest']
      split
      · exact length_skipParenthesized_le 0 rest
      · exact Nat.le_refl _
    rw [hs, List.length_cons] at h1
    rw [hs', List.length_cons] at h2
    omega
  | case4 ts t rest hs ht rest' u more hs' hu =>
    have h1 := length_skipTrivia_le ts
    have h2 := length_skipTrivia_le rest'
    have h3 : rest'.length ≤ rest.length := by
      simp only [rest']
      split
      · exact length_skipParenthesized_le 0 rest
      · exact Nat.le_refl _
    rw [hs, List.length_cons] at h1
    rw [hs'] at h2
    omega
  | case5 ts t rest hs ht =>
    have h1 := length_skipTrivia_le ts
    rwa [hs] at h1

end GrammarText.Antlr
