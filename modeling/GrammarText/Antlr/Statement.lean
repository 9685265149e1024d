import GrammarText.Antlr.Body
import GrammarText.Rule.Name

/-!
# Statements of an ANTLR grammar

A grammar file is a sequence of statements: headers, imports, modes, option blocks, named actions and
rules. Only the rules are kept. Text that is no statement costs as little as possible: a single token,
or the name that was taken for the beginning of a rule.

Every statement takes at least one token (`length_lt_of_readStatement?`), so reading comes to an end.
-/

namespace GrammarText.Antlr

/-- What kind of rules a grammar file holds. -/
inductive GrammarKind where
  | parser
  | lexer
  | combined
  | unknown
deriving DecidableEq, Repr

namespace GrammarKind

/-- All kinds. -/
def all : List GrammarKind :=
  [parser, lexer, combined, unknown]

/-- The name of the kind. -/
def label : GrammarKind → String
  | parser => "parser"
  | lexer => "lexer"
  | combined => "combined"
  | unknown => "unknown"

/-- The kind of the given name. -/
def ofLabel? (s : String) : Option GrammarKind :=
  all.find? (·.label == s)

end GrammarKind

/-- A rule of an ANTLR grammar, without what only ANTLR understands. -/
structure AntlrRule where
  name : Text
  body : List Token
  /-- Whether the rule only serves other lexer rules. -/
  isFragment : Bool := false
  line : Int := 1
deriving DecidableEq, Repr

/-- Whether the rule describes tokens and not phrases. -/
def AntlrRule.isLexer (r : AntlrRule) : Bool :=
  isLexerName r.name

/-- What a statement turned out to be. -/
inductive Statement where
  | rule (r : AntlrRule)
  /-- A header that says what kind of rules the file holds. -/
  | header (kind : GrammarKind)
  /-- A name that looked like the beginning of a rule but has no colon. -/
  | abandoned (name : Text) (line : Int)
  /-- Anything else. -/
  | skipped
deriving DecidableEq, Repr

/-- The rule that a statement is, if it is one. -/
def Statement.rule? : Statement → Option AntlrRule
  | rule r => some r
  | _ => none

/-- The kind that a statement announces, if it does. -/
def Statement.header? : Statement → Option GrammarKind
  | header k => some k
  | _ => none

/-- The words that can stand before the name of a rule. -/
def modifiers : List String :=
  ["public", "private", "protected", "fragment"]

/-- Passes over the modifiers of a rule; the first result says whether `fragment` is among them. -/
def skipModifiers (fragment : Bool) : List Token → Bool × List Token
  | [] => (fragment, [])
  | t :: ts =>
    if t.isTrivia then skipModifiers fragment ts
    else if isWord modifiers t then skipModifiers (fragment || isWord ["fragment"] t) ts
    else (fragment, t :: ts)

/-- What follows one item between the name of a rule and its colon, if one begins with the token `t`
that stands before `ts`: arguments, returned or local variables, thrown exceptions, options or a named
action. -/
def afterPrequelItem? (t : Token) (ts : List Token) : Option (List Token) :=
  if t.kind == .charClass then some ts
  else if isWord ["returns", "locals"] t then some (dropNextIf (·.kind == .charClass) ts)
  else if isWord ["throws"] t then
    some (dropNextWhile (fun u => u.kind == .identifier || u.isOp [','] || u.isOp ['.']) ts)
  else if isWord ["options"] t && nextIs (·.kind == .action) ts then some (dropNext ts)
  else if t.isOp ['@'] then some (skipNamedAction (t :: ts))
  else none

/-- How the part between the name of a rule and its colon ends. -/
inductive PrequelEnd where
  /-- With the colon; the body follows. -/
  | colon (rest : List Token)
  /-- With the end of the file. -/
  | endOfFile
  /-- With a token that cannot stand there. -/
  | stuck (rest : List Token)

theorem skipNamedAction_cons_le {t : Token} (h : t.isTrivia = false) (ts : List Token) :
    (skipNamedAction (t :: ts)).length ≤ ts.length := by
  have hd : dropNext (t :: ts) = ts := by simp [dropNext, skipTrivia, h]
  rw [skipNamedAction, hd]
  exact Nat.le_trans (length_dropNextIf_le _ _) (length_dropNextWhile_le _ _)

theorem isTrivia_eq_false_of_isOp {t : Token} {s : Text} (h : t.isOp s = true) : t.isTrivia = false := by
  simp only [Token.isOp, Bool.and_eq_true, beq_iff_eq] at h
  simp [Token.isTrivia, h.1]

theorem length_le_of_afterPrequelItem? {t : Token} {ts rest : List Token}
    (h : afterPrequelItem? t ts = some rest) : rest.length ≤ ts.length := by
  unfold afterPrequelItem? at h
  split at h
  · cases h; exact Nat.le_refl _
  split at h
  · cases h; exact length_dropNextIf_le _ ts
  split at h
  · cases h; exact length_dropNextWhile_le _ ts
  split at h
  · cases h; exact length_dropNext_le ts
  split at h
  · rename_i hop
    cases h
    exact skipNamedAction_cons_le (isTrivia_eq_false_of_isOp hop) ts
  · cases h

/-- Passes over everything between the name of a rule and its colon. -/
def skipPrequel (ts : List Token) : PrequelEnd :=
  match _h : skipTrivia ts with
  | [] => .endOfFile
  | t :: rest =>
    if t.isOp [':'] then .colon rest
    else
      match _hi : afterPrequelItem? t rest with
      | some rest' => skipPrequel rest'
      | none => .stuck (t :: rest)
termination_by ts.length
decreasing_by
  have h1 := length_skipTrivia_le ts
  have h2 := length_le_of_afterPrequelItem? _hi
  rw [_h, List.length_cons] at h1
  omega

/-- The tokens that are left. -/
def PrequelEnd.rest : PrequelEnd → List Token
  | colon rest => rest
  | endOfFile => []
  | stuck rest => rest

theorem length_rest_skipPrequel_le (ts : List Token) : (skipPrequel ts).rest.length ≤ ts.length := by
  fun_induction skipPrequel ts with
  | case1 => exact Nat.zero_le _
  | case2 ts t rest hs _ =>
    have h1 := length_skipTrivia_le ts
    rw [hs, List.length_cons] at h1
    simp only [PrequelEnd.rest]; omega
  | case3 ts t rest hs _ rest' hi ih =>
    have h1 := length_skipTrivia_le ts
    have h2 := length_le_of_afterPrequelItem? hi
    rw [hs, List.length_cons] at h1
    omega
  | case4 ts t rest hs _ hi =>
    have h1 := length_skipTrivia_le ts
    rwa [hs] at h1

/-- Reads a rule from its modifiers on. -/
def readRule (ts : List Token) : Statement × List Token :=
  let (fragment, ts) := skipModifiers false ts
  match ts with
  | [] => (.skipped, [])
  | name :: rest =>
    if name.kind != .identifier then (.skipped, rest)
    else
      match skipPrequel rest with
      | .endOfFile => (.skipped, [])
      | .stuck rest => (.abandoned name.text name.start.line, rest)
      | .colon rest =>
        let (body, rest) := readBody (!isLexerName name.text) rest
        (.rule ⟨name.text, body, fragment, name.start.line⟩, rest)

/-- The names of the blocks that can stand outside rules. -/
def headerBlocks : List String :=
  ["options", "tokens", "channels"]

/-- Reads a statement that begins with the significant token `t`. -/
def readStatementFrom (t : Token) (ts : List Token) : Statement × List Token :=
  if t.isOp ['@'] then (.skipped, skipNamedAction (t :: ts))
  else if t.kind != .identifier then (.skipped, ts)
  else if isWord ["lexer", "parser"] t && nextIs (fun u => u.text == "grammar".toList) ts then
    (.header (if isWord ["lexer"] t then .lexer else .parser), skipThroughSemicolon ts)
  else if isWord ["grammar", "import", "mode"] t && !nextIs (·.isOp [':']) ts then
    (.skipped, skipThroughSemicolon ts)
  else if isWord headerBlocks t && nextIs (·.kind == .action) ts then
    (.skipped, dropNextIf (·.isOp [';']) (dropNext ts))
  else readRule (t :: ts)

/-- Reads a statement; `none` if no significant token is left. -/
def readStatement? (ts : List Token) : Option (Statement × List Token) :=
  match skipTrivia ts with
  | [] => none
  | t :: rest => some (readStatementFrom t rest)

theorem length_skipModifiers_le (fragment : Bool) (ts : List Token) :
    (skipModifiers fragment ts).2.length ≤ ts.length := by
  fun_induction skipModifiers fragment ts <;> grind

theorem length_readRule_lt (t : Token) (ts : List Token) : (readRule (t :: ts)).2.length < ts.length + 1 := by
  have hm := length_skipModifiers_le false (t :: ts)
  unfold readRule
  generalize skipModifiers false (t :: ts) = m at hm
  obtain ⟨fragment, ms⟩ := m
  cases ms with
  | nil => simp
  | cons name rest =>
    simp only [List.length_cons] at hm
    have hp := length_rest_skipPrequel_le rest
    dsimp only
    split
    · dsimp only; omega
    · split
      · simp
      · rename_i hs
        rw [hs] at hp
        simp only [PrequelEnd.rest] at hp
        dsimp only; omega
      · rename_i r hs
        rw [hs] at hp
        have hb := length_readKept_le (!isLexerName name.text) 0 none r
        simp only [PrequelEnd.rest] at hp
        simp only [readBody]
        omega

theorem length_readStatementFrom_lt (t : Token) (ts : List Token) :
    (readStatementFrom t ts).2.length < ts.length + 1 := by
  unfold readStatementFrom
  split
  · rename_i h
    exact Nat.lt_succ_of_le (skipNamedAction_cons_le (isTrivia_eq_false_of_isOp h) ts)
  split
  · exact Nat.lt_succ_self _
  split
  · exact Nat.lt_succ_of_le (length_skipThroughSemicolon_le ts)
  split
  · exact Nat.lt_succ_of_le (length_skipThroughSemicolon_le ts)
  split
  · exact Nat.lt_succ_of_le (Nat.le_trans (length_dropNextIf_le _ _) (length_dropNext_le ts))
  · exact length_readRule_lt t ts

theorem length_lt_of_readStatement? {ts rest : List Token} {s : Statement}
    (h : readStatement? ts = some (s, rest)) : rest.length < ts.length := by
  have hle := length_skipTrivia_le ts
  unfold readStatement? at h
  split at h
  · cases h
  · rename_i t r hs
    rw [hs, List.length_cons] at hle
    have hlt := length_readStatementFrom_lt t r
    simp only [Option.some.injEq] at h
    rw [h] at hlt
    exact Nat.lt_of_lt_of_le hlt hle

/-- All statements of a grammar. -/
def readStatements (ts : List Token) : List Statement :=
  match _h : readStatement? ts with
  | none => []
  | some (s, rest) => s :: readStatements rest
termination_by ts.length
decreasing_by exact length_lt_of_readStatement? _h

/-- The kind of a grammar with the given rule names: the one that its header announces, else the one
that the names show. -/
def inferKind (header : Option GrammarKind) (names : List Text) : GrammarKind :=
  match header with
  | some k => k
  | none =>
    match names.any isLexerName, names.any fun n => !isLexerName n with
    | true, true => .combined
    | true, false => .lexer
    | false, true => .parser
    | false, false => .unknown

end GrammarText.Antlr
