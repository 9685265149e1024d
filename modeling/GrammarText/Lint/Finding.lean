import GrammarText.Text.CodePoints

/-!
# Findings

What a check can find in a grammar, as causes; the wording, the severity and the advice are functions
of the cause.
-/

namespace GrammarText

/-- How much a finding matters. -/
inductive Severity where
  | error
  | warning
deriving DecidableEq, Repr

/-- The name of the severity. -/
def Severity.label : Severity → String
  | error => "error"
  | warning => "warning"

/-- What can be wrong with a rule. -/
inductive Problem where
  /-- The name was defined before, first on the given line. -/
  | duplicate (firstLine : Int)
  | emptyAlternative
  | unbalancedParentheses
  | unbalancedClass
  /-- A reference to a name that no rule has. -/
  | undefinedRule (name : Text)
  /-- A reference to a terminal name that no rule has. -/
  | undefinedToken (name : Text)
  /-- An alternative, shown on one line, begins with the rule itself. -/
  | leftRecursion (summary : Text)
  /-- No chain of references leads from the start rule to the rule. -/
  | unreachable (start : Text)
deriving DecidableEq, Repr

/-- The rule, and the alternative if there is one, that a finding is about. -/
structure Site where
  rule : Text
  line : Int
  ruleIndex : Nat
  alternative : Option Nat := none
deriving DecidableEq, Repr

/-- A finding of a check. -/
inductive Finding where
  /-- The grammar has no rule to start from. -/
  | noStartRule
  /-- The rule to start from was given by name, and no rule has the name. -/
  | undefinedStart (name : Text)
  | inRule (site : Site) (problem : Problem)
deriving DecidableEq, Repr

namespace Problem

/-- The name of the kind of problem. -/
def id : Problem → String
  | duplicate _ => "duplicate-rule"
  | emptyAlternative | unbalancedParentheses | unbalancedClass => "unbalanced-delimiters"
  | undefinedRule _ => "undefined-reference"
  | undefinedToken _ => "undefined-token"
  | leftRecursion _ => "left-recursion"
  | unreachable _ => "unreachable-rule"

/-- How much the problem matters. -/
def severity : Problem → Severity
  | duplicate _ | emptyAlternative | unbalancedParentheses | unbalancedClass | undefinedRule _ => .error
  | undefinedToken _ | leftRecursion _ | unreachable _ => .warning

/-- The wording of a problem of the given rule. -/
def message (rule : String) (line : Int) : Problem → String
  | duplicate first => s!"Duplicate rule '{rule}' at line {line} (first at line {first})"
  | emptyAlternative => s!"Rule '{rule}' line {line}: empty alternative"
  | unbalancedParentheses => s!"Rule '{rule}' line {line}: unbalanced parentheses"
  | unbalancedClass => s!"Rule '{rule}' line {line}: unbalanced character class"
  | undefinedRule name => s!"Rule '{rule}' line {line}: reference to undefined rule '{String.ofList name}'"
  | undefinedToken name =>
    s!"Rule '{rule}' line {line}: token '{String.ofList name}' referenced but not defined as a lexer rule"
  | leftRecursion summary =>
    s!"Rule '{rule}' line {line}: direct left recursion in alternative '{String.ofList summary}'"
  | unreachable start =>
    s!"Parser rule '{rule}' at line {line} is not reachable from start '{String.ofList start}'"

/-- What to do about a problem of the given rule. -/
def suggestion? (rule : String) : Problem → Option String
  | duplicate _ => some s!"Merge the alternatives into the first definition of '{rule}'"
  | undefinedRule name => some s!"Define '{String.ofList name}' or fix the spelling of the reference"
  | leftRecursion _ => some "Rewrite the alternative with repetition, e.g. E ::= T ('+' T)*"
  | _ => none

end Problem

namespace Finding

/-- The name of the kind of finding. -/
def id : Finding → String
  | noStartRule | undefinedStart _ => "start-rule"
  | inRule _ p => p.id

/-- How much the finding matters. -/
def severity : Finding → Severity
  | noStartRule | undefinedStart _ => .warning
  | inRule _ p => p.severity

/-- The wording of the finding. -/
def message : Finding → String
  | noStartRule => "No start rule inferred (file has no rules)."
  | undefinedStart name => s!"Start rule '{String.ofList name}' is not defined"
  | inRule site p => p.message (String.ofList site.rule) site.line

/-- What to do about the finding. -/
def suggestion? : Finding → Option String
  | inRule site p => p.suggestion? (String.ofList site.rule)
  | _ => none

/-- The place of the finding. -/
def site? : Finding → Option Site
  | inRule site _ => some site
  | _ => none

/-- The index of the rule that the finding is about, and minus one for the whole grammar. -/
def ruleKey (f : Finding) : Int :=
  match f.site? with
  | some site => site.ruleIndex
  | none => -1

/-- The index of the alternative that the finding is about, and minus one if it is about none. -/
def alternativeKey (f : Finding) : Int :=
  match f.site?.bind Site.alternative with
  | some i => i
  | none => -1

/-- The order of a report: by rule, then by alternative. -/
def before (f g : Finding) : Bool :=
  f.ruleKey < g.ruleKey || (f.ruleKey == g.ruleKey && f.alternativeKey ≤ g.alternativeKey)

end Finding

end GrammarText
