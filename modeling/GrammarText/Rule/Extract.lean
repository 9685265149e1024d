import GrammarText.Rule.Basic
import GrammarText.Token.Scan

/-!
# Finding the rules of a document

`extract` finds the rules in a sequence of tokens. A rule is a name, whitespace, the defining sign and
a body; whatever stands between rules is skipped. The body ends at a semicolon outside parentheses. If
the semicolon is missing, the body ends where the next rule begins outside parentheses, and the
comments in between belong to the next rule.
-/

namespace GrammarText

/-- What ended the body of a rule. -/
inductive BodyEnd where
  /-- A semicolon, which belongs to neither side. -/
  | terminated
  /-- The beginning of the next rule. -/
  | interrupted
  /-- The end of the document. -/
  | exhausted
deriving DecidableEq, Repr

/-- A body and what follows it. -/
structure BodySplit where
  body : List Token
  ending : BodyEnd
  rest : List Token

/-- The tokens without the whitespace in front. -/
def skipWhitespace (ts : List Token) : List Token :=
  ts.dropWhile (·.kind == .whitespace)

/-- What follows the defining sign, if the tokens begin with one after whitespace. -/
def afterDefinition? (ts : List Token) : Option (List Token) :=
  match skipWhitespace ts with
  | t :: rest => if t.isOp [':', ':', '='] then some rest else none
  | [] => none

/-- Whether a rule begins with the token `t` that stands before `ts`. -/
def startsRule (t : Token) (ts : List Token) : Bool :=
  t.kind == .identifier && (afterDefinition? ts).isSome

/-- The tokens up to the end of a body, `depth` parentheses being open. -/
def readBody (depth : Nat) : List Token → BodySplit
  | [] => ⟨[], .exhausted, []⟩
  | t :: ts =>
    if t.isOp [';'] ∧ depth = 0 then ⟨[], .terminated, ts⟩
    else if depth = 0 ∧ startsRule t ts then ⟨[], .interrupted, t :: ts⟩
    else
      let r := readBody (depthAfter depth t) ts
      { r with body := t :: r.body }

/-- Splits off the whitespace and the comments at the end. -/
def splitTrailingTrivia (ts : List Token) : List Token × List Token :=
  let trivia := (ts.reverse.takeWhile Token.isTrivia).reverse
  (ts.take (ts.length - trivia.length), trivia)

/-- The body of a rule that begins here. An interrupted body leaves its last comments to the rule that
follows. -/
def takeBody (ts : List Token) : BodySplit :=
  let r := readBody 0 ts
  match r.ending with
  | .interrupted =>
    let (body, trivia) := splitTrailingTrivia r.body
    ⟨body, r.ending, trivia ++ r.rest⟩
  | _ => r

/-- The text of the whitespace token that comes first, if one does. -/
def leadingBlank : List Token → Text
  | t :: _ => if t.kind == .whitespace then t.text else []
  | [] => []

theorem length_dropWhile_le (p : Token → Bool) (ts : List Token) : (ts.dropWhile p).length ≤ ts.length :=
  (List.dropWhile_sublist p).length_le

theorem length_lt_of_afterDefinition? {ts rest : List Token} (h : afterDefinition? ts = some rest) :
    rest.length < ts.length := by
  unfold afterDefinition? at h
  split at h
  · rename_i t r hs
    have hle := length_dropWhile_le (·.kind == .whitespace) ts
    rw [show ts.dropWhile (·.kind == .whitespace) = t :: r from hs] at hle
    split at h
    · cases h; exact hle
    · cases h
  · cases h

theorem length_readBody (depth : Nat) (ts : List Token) :
    (readBody depth ts).body.length + (readBody depth ts).rest.length ≤ ts.length := by
  fun_induction readBody depth ts with
  | case1 => exact Nat.le_refl _
  | case2 => simp
  | case3 => simp
  | case4 depth t ts _ _ r ih => simp only [List.length_cons, r]; omega

theorem length_splitTrailingTrivia (ts : List Token) :
    (splitTrailingTrivia ts).1.length + (splitTrailingTrivia ts).2.length = ts.length := by
  have h : (ts.reverse.takeWhile Token.isTrivia).length ≤ ts.length := by
    simpa using (List.takeWhile_sublist (l := ts.reverse) Token.isTrivia).length_le
  simp only [splitTrailingTrivia, List.length_reverse, List.length_take]
  omega

theorem length_rest_takeBody (ts : List Token) : (takeBody ts).rest.length ≤ ts.length := by
  have h := length_readBody 0 ts
  have ht := length_splitTrailingTrivia (readBody 0 ts).body
  unfold takeBody
  dsimp only
  split
  · simp only [List.length_append]; omega
  · omega

/-- The rules among the tokens and what ended each; `pending` are the comments since the last rule. -/
def extractFrom (pending : List Text) : List Token → List (Rule × BodyEnd)
  | [] => []
  | t :: ts =>
    match t.kind with
    | .comment => extractFrom (pending ++ [t.text ++ leadingBlank ts]) ts
    | .identifier =>
      match _h : afterDefinition? ts with
      | some body =>
        let r := takeBody body
        (⟨t.text, r.body, pending, t.start⟩, r.ending) :: extractFrom [] r.rest
      | none => extractFrom pending ts
    | _ => extractFrom pending ts
termination_by ts => ts.length
decreasing_by
  all_goals simp only [List.length_cons]
  · omega
  · have hb := length_lt_of_afterDefinition? _h
    have hr := length_rest_takeBody body
    omega
  · omega
  · omega

/-- The rules among the tokens, in order. -/
def extract (ts : List Token) : List Rule :=
  (extractFrom [] ts).map (·.1)

/-- The rules of a document. -/
def documentRules (source : Text) : List Rule :=
  extract (scan .ebnf source)

end GrammarText
