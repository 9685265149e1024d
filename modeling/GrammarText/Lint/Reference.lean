import GrammarText.Rule.Basic

/-!
# References

Which words of a body refer to rules, and which of them an alternative begins with.
-/

namespace GrammarText

/-- Whether a token can name a rule. -/
def Token.isReference (t : Token) : Bool :=
  t.kind == .identifier && isReferenceName t.text

/-- The names that a sequence of tokens refers to, in order, repetitions included. -/
def referencedNames (ts : List Token) : List Text :=
  (ts.filter Token.isReference).map Token.text

/-- What follows the parenthesis that closes the group, `depth` parentheses being open. -/
def skipGroup (depth : Nat) : List Token → List Token
  | [] => []
  | t :: ts =>
    if depth = 0 then t :: ts
    else if t.isOp ['('] then skipGroup (depth + 1) ts
    else if t.isOp [')'] then skipGroup (depth - 1) ts
    else skipGroup depth ts

theorem length_skipGroup_le (depth : Nat) (ts : List Token) : (skipGroup depth ts).length ≤ ts.length := by
  fun_induction skipGroup depth ts <;> simp only [List.length_cons, List.length_nil] <;> omega

/-- What follows the literals, character classes and groups that come first. -/
def skipLeadingItems : List Token → List Token
  | [] => []
  | t :: ts =>
    if t.kind == .literal || t.kind == .charClass then skipLeadingItems ts
    else if t.isOp ['('] then skipLeadingItems (skipGroup 1 ts)
    else t :: ts
termination_by ts => ts.length
decreasing_by
  · simp
  · have := length_skipGroup_le 1 ts
    simp only [List.length_cons]; omega

/-- The first name that an alternative refers to after its leading literals, classes and groups. -/
def Alternative.leadingName? (a : Alternative) : Option Text :=
  ((skipLeadingItems a.significant).find? Token.isReference).map Token.text

end GrammarText
