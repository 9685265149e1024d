import GrammarText.Antlr.Statement
import GrammarText.Proofs.Rule.Body
import Mathlib.Data.List.DropRight

/-!
# The shape of an ANTLR grammar

What tokens a well-formed grammar consists of, said without the reader: a predicate for each kind of span, up to
whole files (`FileTokens`). Whitespace and comments can stand between all tokens, but not between a reference and
its arguments and not inside a predicate. Beside the tokens stands what they say: the significant tokens that a
body keeps, the statement that a rule or a header is.
-/

namespace GrammarText.Antlr

/-- Only whitespace and comments. -/
def Trivia (ts : List Token) : Prop :=
  ∀ t ∈ ts, t.isTrivia = true

/-! ### Bodies -/

/-- Tokens whose parentheses match. -/
inductive Balanced : List Token → Prop where
  | nil : Balanced []
  | cons {t : Token} {ts : List Token} (ho : t.isOp ['('] = false) (hc : t.isOp [')'] = false) (h : Balanced ts) :
      Balanced (t :: ts)
  | group {p q : Token} {us ts : List Token} (hp : p.isOp ['('] = true) (hu : Balanced us) (hq : q.isOp [')'] = true)
      (h : Balanced ts) : Balanced (p :: (us ++ q :: ts))

/-- The arguments of a lexer command, in parentheses, or none. -/
inductive CommandArguments : List Token → Prop where
  | none : CommandArguments []
  | some {gap args : List Token} {p q : Token} (hg : Trivia gap) (hp : p.isOp ['('] = true) (ha : Balanced args)
      (hq : q.isOp [')'] = true) : CommandArguments (gap ++ p :: (args ++ [q]))

/-- Lexer commands with commas in between, without the sign before them. -/
inductive CommandTokens : List Token → Prop where
  | last {gap args : List Token} {name : Token} (hg : Trivia gap) (hn : name.kind = .identifier)
      (ha : CommandArguments args) : CommandTokens (gap ++ name :: args)
  | next {gap args gap' ts : List Token} {name comma : Token} (hg : Trivia gap) (hn : name.kind = .identifier)
      (ha : CommandArguments args) (hg' : Trivia gap') (hc : comma.isOp [','] = true) (h : CommandTokens ts) :
      CommandTokens (gap ++ name :: (args ++ (gap' ++ comma :: ts)))

/-- A token that a body keeps by itself: a word, a literal, a class where no rule takes arguments, or an operator
that neither ends the body nor begins what is dropped. -/
def IsElement (phrase : Bool) (t : Token) : Prop :=
  t.kind = .identifier ∨ t.kind = .literal ∨ (t.kind = .charClass ∧ phrase = false) ∨
    (t.kind = .operator ∧ t.text ∉ [[';'], ['-', '>'], ['#'], ['<'], ['='], ['+', '=']])

/-- The tokens of a body in a rule for phrases or for tokens, and those that it keeps. -/
inductive BodyTokens (phrase : Bool) : List Token → List Token → Prop where
  | nil : BodyTokens phrase [] []
  | trivia {t : Token} {ts ks : List Token} (ht : t.isTrivia = true) (h : BodyTokens phrase ts ks) :
      BodyTokens phrase (t :: ts) ks
  | element {t : Token} {ts ks : List Token} (ht : IsElement phrase t) (h : BodyTokens phrase ts ks) :
      BodyTokens phrase (t :: ts) (t :: ks)
  /-- A reference with arguments right behind it. -/
  | call {t args : Token} {ts ks : List Token} (hp : phrase = true) (ht : t.kind = .identifier)
      (ha : args.kind = .charClass) (h : BodyTokens phrase ts ks) : BodyTokens phrase (t :: args :: ts) (t :: ks)
  | action {a : Token} {ts ks : List Token} (ha : a.kind = .action) (hn : ∀ t ∈ ts.head?, t.isOp ['?'] = false)
      (h : BodyTokens phrase ts ks) : BodyTokens phrase (a :: ts) ks
  /-- An action with a question mark right behind it. -/
  | predicate {a q : Token} {ts ks : List Token} (ha : a.kind = .action) (hq : q.isOp ['?'] = true)
      (h : BodyTokens phrase ts ks) : BodyTokens phrase (a :: q :: ts) ks
  /-- The label of an element. -/
  | label {name sign : Token} {gap ts ks : List Token} (hn : name.kind = .identifier) (hg : Trivia gap)
      (hs : sign.isOp ['='] = true ∨ sign.isOp ['+', '='] = true) (h : BodyTokens phrase ts ks) :
      BodyTokens phrase (name :: (gap ++ sign :: ts)) ks
  /-- The label of an alternative. -/
  | caption {sign name : Token} {gap ts ks : List Token} (hs : sign.isOp ['#'] = true) (hg : Trivia gap)
      (hn : name.kind = .identifier) (h : BodyTokens phrase ts ks) :
      BodyTokens phrase (sign :: (gap ++ name :: ts)) ks
  /-- Element options. -/
  | options {p q : Token} {os ts ks : List Token} (hp : p.isOp ['<'] = true)
      (ho : ∀ t ∈ os, t.isOp ['>'] = false ∧ t.isOp [';'] = false) (hq : q.isOp ['>'] = true)
      (h : BodyTokens phrase ts ks) : BodyTokens phrase (p :: (os ++ q :: ts)) ks
  /-- Lexer commands, which end where they seem to. -/
  | commands {arrow : Token} {cs ts ks : List Token} (ha : arrow.isOp ['-', '>'] = true) (hc : CommandTokens cs)
      (hn : nextIs (fun t => t.isOp ['('] || t.isOp [',']) ts = false) (h : BodyTokens phrase ts ks) :
      BodyTokens phrase (arrow :: (cs ++ ts)) ks

/-! ### Statements -/

/-- A named action: its name may have a scope. -/
inductive NamedAction : List Token → Prop where
  | intro {sign a : Token} {name : List Token} (hs : sign.isOp ['@'] = true)
      (hn : ∀ t ∈ name, t.isTrivia = true ∨ t.kind = .identifier ∨ t.isOp [':', ':'] = true)
      (ha : a.kind = .action) : NamedAction (sign :: (name ++ [a]))

/-- What stands between the name of a rule and its colon. -/
inductive PrequelTokens : List Token → Prop where
  | nil : PrequelTokens []
  | trivia {t : Token} {ts : List Token} (ht : t.isTrivia = true) (h : PrequelTokens ts) : PrequelTokens (t :: ts)
  /-- Arguments. -/
  | arguments {t : Token} {ts : List Token} (ht : t.kind = .charClass) (h : PrequelTokens ts) : PrequelTokens (t :: ts)
  /-- Returned or local variables. -/
  | declared {w vars : Token} {gap ts : List Token} (hw : isWord ["returns", "locals"] w = true) (hg : Trivia gap)
      (hv : vars.kind = .charClass) (h : PrequelTokens ts) : PrequelTokens (w :: (gap ++ vars :: ts))
  | options {w a : Token} {gap ts : List Token} (hw : isWord ["options"] w = true) (hg : Trivia gap)
      (ha : a.kind = .action) (h : PrequelTokens ts) : PrequelTokens (w :: (gap ++ a :: ts))
  | action {as ts : List Token} (ha : NamedAction as) (h : PrequelTokens ts) : PrequelTokens (as ++ ts)

/-- The modifiers of a rule, and whether `fragment` is among them. -/
inductive ModifierTokens : List Token → Bool → Prop where
  | nil : ModifierTokens [] false
  | cons {m : Token} {gap ts : List Token} {fragment : Bool} (hm : isWord modifiers m = true) (hg : Trivia gap)
      (h : ModifierTokens ts fragment) : ModifierTokens (m :: (gap ++ ts)) (isWord ["fragment"] m || fragment)

/-- The words that are no names of rules. -/
def keywords : List String :=
  ["lexer", "parser", "grammar", "import", "mode", "options", "tokens", "channels", "returns", "locals", "throws",
    "catch", "finally", "public", "private", "protected", "fragment"]

/-- The kind of grammar that a word announces in front of `grammar`. -/
def announced? (t : Token) : Option GrammarKind :=
  if isWord ["lexer"] t then some .lexer else if isWord ["parser"] t then some .parser else none

/-- Names, with commas in between or not. -/
def Names (ts : List Token) : Prop :=
  ∀ t ∈ ts, t.isTrivia = true ∨ t.kind = .identifier ∨ t.isOp [','] = true

/-- What a body keeps, without the bars at its end. -/
def withoutLastBars (ks : List Token) : List Token :=
  ks.rdropWhile (·.isOp ['|'])

/-- The tokens of a statement, and what it is. -/
inductive StatementTokens : List Token → Statement → Prop where
  /-- A header that says what kind of rules the file holds. -/
  | header {kind : GrammarKind} {k g semi : Token} {gap names : List Token} (hk : announced? k = some kind)
      (hg : Trivia gap) (hw : isWord ["grammar"] g = true) (hn : Names names) (hs : semi.isOp [';'] = true) :
      StatementTokens (k :: (gap ++ g :: (names ++ [semi]))) (.header kind)
  /-- Another header, imports, or a mode. -/
  | directive {w semi : Token} {names : List Token} (hw : isWord ["grammar", "import", "mode"] w = true)
      (hn : Names names) (hs : semi.isOp [';'] = true) : StatementTokens (w :: (names ++ [semi])) .skipped
  /-- A block of options, tokens or channels. -/
  | block {w a : Token} {gap : List Token} (hw : isWord headerBlocks w = true) (hg : Trivia gap) (ha : a.kind = .action) :
      StatementTokens (w :: (gap ++ [a])) .skipped
  /-- A block with a semicolon behind it. -/
  | closedBlock {w a semi : Token} {gap gap' : List Token} (hw : isWord headerBlocks w = true) (hg : Trivia gap)
      (ha : a.kind = .action) (hg' : Trivia gap') (hs : semi.isOp [';'] = true) :
      StatementTokens (w :: (gap ++ a :: (gap' ++ [semi]))) .skipped
  | action {as : List Token} (ha : NamedAction as) : StatementTokens as .skipped
  /-- A rule, in whose body no parenthesis is left open. -/
  | rule {ms ps ts ks : List Token} {name colon semi : Token} {fragment : Bool} (hm : ModifierTokens ms fragment)
      (hn : name.kind = .identifier) (hk : isWord keywords name = false) (hp : PrequelTokens ps)
      (hc : colon.isOp [':'] = true) (hb : BodyTokens (!isLexerName name.text) ts ks) (hd : depthAfterAll 0 ks = 0)
      (hs : semi.isOp [';'] = true) :
      StatementTokens (ms ++ name :: (ps ++ colon :: (ts ++ [semi])))
        (.rule ⟨name.text, withoutLastBars ks, fragment, name.start.line⟩)

/-- The tokens of a grammar file, and its statements. -/
inductive FileTokens : List Token → List Statement → Prop where
  | nil {gap : List Token} (hg : Trivia gap) : FileTokens gap []
  | cons {gap ts rest : List Token} {s : Statement} {ss : List Statement} (hg : Trivia gap) (hs : StatementTokens ts s)
      (h : FileTokens rest ss) : FileTokens (gap ++ (ts ++ rest)) (s :: ss)

end GrammarText.Antlr
