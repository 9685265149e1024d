import GrammarText.Token.Basic

/-!
# Lexical forms

The forms that a token can have in the two dialects, each as the number of characters that it takes
from the text ahead. A delimited form ends at the first place where it is closed, or takes the whole
text if it is never closed: every delimited form is a small machine that reads character by character,
and `closingLength` runs it. `form_pos` says that every token takes a character.
-/

namespace GrammarText

/-- The notations that the scanner reads. -/
inductive Dialect where
  /-- Rules in the form of a name, a defining sign, a body and a semicolon. -/
  | ebnf
  /-- ANTLR grammar files. -/
  | antlr
deriving DecidableEq, Repr

namespace Dialect

/-- The name of the dialect. -/
def label : Dialect → String
  | ebnf => "ebnf"
  | antlr => "antlr"

/-- The dialect with the given name. -/
def ofLabel? (s : String) : Option Dialect :=
  [ebnf, antlr].find? (·.label == s)

/-- The operators of more than one character; none begins another. -/
def longOperators : Dialect → List Text
  | ebnf => [[':', ':', '=']]
  | antlr => [['-', '>'], ['+', '='], ['.', '.'], [':', ':']]

/-- The operators of one character. -/
def shortOperators : Dialect → List Char
  | ebnf => ['|', '(', ')', '?', ',', ';', '+', '*']
  | antlr => ['|', '(', ')', '?', ',', ';', '+', '*', ':', '=', '~', '#', '@', '.', '<', '>', '!']

end Dialect

/-! ### Character classes of the scanner, which know ASCII only -/

/-- A character that separates tokens. -/
def isSpace (c : Char) : Bool :=
  c == ' ' || c == '\t' || c == '\n' || c == '\r'

/-- A character that begins a word. -/
def isNameStart (c : Char) : Bool :=
  c == '_' || c.isAlpha

/-- A character that continues a word. -/
def isNamePart (c : Char) : Bool :=
  isNameStart c || c.isDigit

/-! ### Delimited forms -/

section Closing

variable {σ : Type}

/-- The number of characters that a machine reads from the state `s` until it is closed for the first
time, or the length of the text if it is never closed. -/
def closingLength (step : σ → Char → σ) (closed : σ → Bool) (s : σ) : Text → Nat
  | [] => 0
  | c :: r => if closed (step s c) then 1 else closingLength step closed (step s c) r + 1

end Closing

/-- Where the reader stands in a quoted literal. -/
inductive LiteralState where
  | inside
  /-- Right after a backslash, which takes the next character with it. -/
  | escape
  | closed
deriving DecidableEq, Repr

/-- Reads one character of a literal that began with `mark`. -/
def LiteralState.step (mark : Char) : LiteralState → Char → LiteralState
  | inside, c => if c == '\\' then escape else if c == mark then closed else inside
  | escape, _ => inside
  | closed, _ => closed

/-- Where the reader stands in a character class: how many brackets are open, and whether the next
character is escaped. -/
structure ClassState where
  depth : Nat
  escape : Bool := false
deriving DecidableEq, Repr

/-- Reads one character of a character class. Brackets nest; quotation marks mean nothing. -/
def ClassState.step (s : ClassState) (c : Char) : ClassState :=
  if s.escape then ⟨s.depth, false⟩
  else if c == '\\' then ⟨s.depth, true⟩
  else if c == '[' then ⟨s.depth + 1, false⟩
  else if c == ']' then ⟨s.depth - 1, false⟩
  else s

/-- Where the reader stands in an action: how many braces are open, whether the next character is
escaped, and the mark of the quoted literal that it is in, if any. -/
structure ActionState where
  depth : Nat
  escape : Bool := false
  mark : Option Char := none
deriving DecidableEq, Repr

/-- Reads one character of an action. Braces nest outside quoted literals. -/
def ActionState.step (s : ActionState) (c : Char) : ActionState :=
  if s.escape then { s with escape := false }
  else if c == '\\' then { s with escape := true }
  else
    match s.mark with
    | some m => if c == m then { s with mark := none } else s
    | none =>
      if c == '\'' || c == '"' then { s with mark := some c }
      else if c == '\x7b' then { s with depth := s.depth + 1 }
      else if c == '\x7d' then { s with depth := s.depth - 1 }
      else s

/-- Whether the action is complete: its brace is closed and no literal is open. -/
def ActionState.closed (s : ActionState) : Bool :=
  s.depth == 0

/-- Where the reader stands in a block comment with a closing mark of two characters. -/
inductive BlockState where
  | inside
  /-- Right after the first character of the closing mark. -/
  | half
  | closed
deriving DecidableEq, Repr

/-- Reads one character of a block comment that `first` and `second` together close. -/
def BlockState.step (first second : Char) : BlockState → Char → BlockState
  | inside, c => if c == first then half else inside
  | half, c => if c == second then closed else if c == first then half else inside
  | closed, _ => closed

/-- The length of a literal's rest, after its opening mark. -/
def literalLength (mark : Char) (rest : Text) : Nat :=
  closingLength (LiteralState.step mark) (· == .closed) .inside rest

/-- The length of a character class's rest, after its opening bracket. -/
def classLength (rest : Text) : Nat :=
  closingLength ClassState.step (·.depth == 0) ⟨1, false⟩ rest

/-- The length of an action's rest, after its opening brace. -/
def actionLength (rest : Text) : Nat :=
  closingLength ActionState.step ActionState.closed ⟨1, false, none⟩ rest

/-- The length of a block comment's rest, after its opening mark. -/
def blockLength (first second : Char) (rest : Text) : Nat :=
  closingLength (BlockState.step first second) (· == .closed) .inside rest

/-- The length of a line comment's rest, after its opening mark. -/
def lineLength (rest : Text) : Nat :=
  (rest.takeWhile (· != '\n')).length

/-- The comments of the dialects. -/
inductive CommentForm where
  /-- From a parenthesis with a star; EBNF only. -/
  | starred
  /-- From a slash with a star. -/
  | slashed
  /-- From two slashes to the end of the line. -/
  | line
deriving DecidableEq, Repr

/-- The comment that the text begins with, if it begins with one. -/
def commentForm? (d : Dialect) (t : Text) : Option CommentForm :=
  if d = .ebnf ∧ ['(', '*'].isPrefixOf t then some .starred
  else if ['/', '*'].isPrefixOf t then some .slashed
  else if ['/', '/'].isPrefixOf t then some .line
  else none

/-- The length of a comment's rest, after the two characters that open it. -/
def CommentForm.restLength (f : CommentForm) (rest : Text) : Nat :=
  match f with
  | starred => blockLength '*' ')' rest
  | slashed => blockLength '*' '/' rest
  | line => lineLength rest

/-- The class and the length of the token that begins with `c`. Its fixed signs are read in `near` and
all that can grow is read in `rest`, which is what follows `c`; both are the same text everywhere but
at a place counted from the end (`Cursor`). -/
def plainForm (d : Dialect) (near : Text) (c : Char) (rest : Text) : TokenKind × Nat :=
  if c == '\'' || c == '"' then (.literal, literalLength c rest + 1)
  else if c == '[' then (.charClass, classLength rest + 1)
  else if d = .antlr ∧ c = '\x7b' then (.action, actionLength rest + 1)
  else
    match d.longOperators.find? (·.isPrefixOf near) with
    | some op => (.operator, op.length)
    | none =>
      if d.shortOperators.contains c then (.operator, 1)
      else if isNameStart c then (.identifier, (rest.takeWhile isNamePart).length + 1)
      else if isSpace c then (.whitespace, (rest.takeWhile isSpace).length + 1)
      else (.identifier, 1)

/-- The class and the length of the first token of the text `c :: rest`. -/
def form (d : Dialect) (c : Char) (rest : Text) : TokenKind × Nat :=
  match commentForm? d (c :: rest) with
  | some f => (.comment, f.restLength (rest.drop 1) + 2)
  | none => plainForm d (c :: rest) c rest

theorem longOperators_length_pos {d : Dialect} {op : Text} (h : op ∈ d.longOperators) : 0 < op.length := by
  cases d <;> simp [Dialect.longOperators] at h <;> rcases h with h | h | h | h <;> simp_all

theorem plainForm_pos (d : Dialect) (near : Text) (c : Char) (rest : Text) :
    0 < (plainForm d near c rest).2 := by
  unfold plainForm
  split
  · exact Nat.succ_pos _
  split
  · exact Nat.succ_pos _
  split
  · exact Nat.succ_pos _
  split
  · rename_i op h
    exact longOperators_length_pos (List.mem_of_find?_eq_some h)
  · split
    · exact Nat.one_pos
    split
    · exact Nat.succ_pos _
    split
    · exact Nat.succ_pos _
    · exact Nat.one_pos

/-- Every token takes at least one character. -/
theorem form_pos (d : Dialect) (c : Char) (rest : Text) : 0 < (form d c rest).2 := by
  unfold form
  split
  · exact Nat.succ_pos _
  · exact plainForm_pos d _ c rest

end GrammarText
