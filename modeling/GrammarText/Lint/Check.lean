import GrammarText.Lint.Balance
import GrammarText.Lint.Finding
import GrammarText.Lint.Graph

/-!
# Checks

A check looks at the rules of a grammar, their dependency graph and the rule to start from, and lists
what it finds. The five built-in checks never fail; a check of the user may.
-/

namespace GrammarText

/-- What a check looks at. -/
structure LintContext where
  rules : List Rule
  graph : DependencyGraph
  /-- The rule that reachability is measured from. -/
  startRule : Option Text
  /-- Whether the start rule was given by the user. -/
  overridden : Bool

/-- The rule to start from: the given one, else the first with a structural name, else the first. An
empty name counts as none. -/
def inferStartRule (rules : List Rule) (given : Option Text) : Option Text :=
  match given with
  | some (c :: name) => some (c :: name)
  | _ => ((rules.find? fun r => isStructuralName r.name) <|> rules.head?).map Rule.name

/-- The context of a list of rules. -/
def LintContext.ofRules (rules : List Rule) (given : Option Text) : LintContext where
  rules := rules
  graph := .ofRules rules
  startRule := inferStartRule rules given
  overridden := (given.getD []) != []

/-- A check: its name, what it is for, and how it is done. -/
structure Check where
  id : String
  description : String
  run : LintContext → Except String (List Finding)

/-- A finding about a rule as a whole. -/
def ruleFinding (rule : Rule) (index : Nat) (p : Problem) : Finding :=
  .inRule ⟨rule.name, rule.start.line, index, none⟩ p

/-- A finding about an alternative of a rule. -/
def alternativeFinding (rule : Rule) (index : Nat) (a : Alternative) (p : Problem) : Finding :=
  .inRule ⟨rule.name, rule.start.line, index, some a.index⟩ p

/-- Every definition of a name after the first. -/
def findDuplicates (ctx : LintContext) : List Finding :=
  ctx.rules.zipIdx.filterMap fun (rule, index) =>
    ((ctx.rules.take index).find? (·.name == rule.name)).map fun first =>
      ruleFinding rule index (.duplicate first.start.line)

/-- What is wrong with the delimiters of an alternative. -/
def delimiterProblems (a : Alternative) : List Problem :=
  if a.isEmpty then [.emptyAlternative]
  else
    (if parenthesesBalanced a.tokens then [] else [.unbalancedParentheses]) ++
      if bracketsBalanced a.tokens then [] else [.unbalancedClass]

/-- Unbalanced delimiters and empty alternatives. -/
def findUnbalanced (ctx : LintContext) : List Finding :=
  ctx.rules.zipIdx.flatMap fun (rule, index) =>
    rule.alternatives.flatMap fun a => (delimiterProblems a).map (alternativeFinding rule index a)

/-- The names among `missing` that the alternatives refer to, each with its first alternative. -/
def missingReferences (missing : List Text) (as : List Alternative) : List (Text × Alternative) :=
  (as.flatMap fun a => ((referencedNames a.tokens).filter missing.contains).map fun n => (n, a)).eraseDupsBy
    fun x y => x.1 == y.1

/-- References to names that no rule has. A terminal name may stand for a literal, so it is less of a
problem. -/
def findUndefined (ctx : LintContext) : List Finding :=
  ctx.rules.zipIdx.flatMap fun (rule, index) =>
    (missingReferences (ctx.graph.danglingOf rule.name) rule.alternatives).map fun (name, a) =>
      alternativeFinding rule index a
        (if isTerminalName name then .undefinedToken name else .undefinedRule name)

/-- Alternatives that begin with their own rule. -/
def findLeftRecursion (ctx : LintContext) : List Finding :=
  ctx.rules.zipIdx.flatMap fun (rule, index) =>
    (rule.alternatives.filter fun a => a.leadingName? == some rule.name).map fun a =>
      alternativeFinding rule index a (.leftRecursion a.summary)

/-- Structural rules that no chain of references from the start rule leads to, each at its first
definition. -/
def findUnreachable (ctx : LintContext) : List Finding :=
  match ctx.startRule with
  | none => [.noStartRule]
  | some start =>
    let reachable := ctx.graph.reachableFrom start
    (if ctx.overridden && !isDefined ctx.rules start then [.undefinedStart start] else []) ++
      ctx.rules.zipIdx.filterMap fun (rule, index) =>
        if !reachable.contains rule.name && isStructuralName rule.name &&
            !isDefined (ctx.rules.take index) rule.name then
          some (ruleFinding rule index (.unreachable start))
        else none

/-- The checks that come with the linter. -/
inductive BuiltinCheck where
  | duplicates
  | delimiters
  | undefined
  | leftRecursion
  | reachability
deriving DecidableEq, Repr

namespace BuiltinCheck

/-- The built-in checks in the order in which they run. -/
def all : List BuiltinCheck :=
  [duplicates, delimiters, undefined, leftRecursion, reachability]

/-- The name of the check. -/
def id : BuiltinCheck → String
  | duplicates => "duplicate-rule"
  | delimiters => "unbalanced-delimiters"
  | undefined => "undefined-reference"
  | leftRecursion => "left-recursion"
  | reachability => "unreachable-rule"

/-- What the check is for. -/
def description : BuiltinCheck → String
  | duplicates => "Detect rules defined more than once"
  | delimiters => "Detect unbalanced parentheses, character classes and empty alternatives"
  | undefined => "Detect references to rules that are never defined"
  | leftRecursion => "Detect direct left recursion"
  | reachability => "Detect parser rules unreachable from the start rule"

/-- What the check finds. -/
def findings : BuiltinCheck → LintContext → List Finding
  | duplicates => findDuplicates
  | delimiters => findUnbalanced
  | undefined => findUndefined
  | leftRecursion => findLeftRecursion
  | reachability => findUnreachable

/-- The built-in check as a check. -/
def toCheck (b : BuiltinCheck) : Check :=
  ⟨b.id, b.description, fun ctx => .ok (b.findings ctx)⟩

/-- The check of the given name. -/
def ofId? (s : String) : Option BuiltinCheck :=
  all.find? (·.id == s)

end BuiltinCheck

/-- The checks that run if no others are asked for. -/
def defaultChecks : List Check :=
  BuiltinCheck.all.map BuiltinCheck.toCheck

end GrammarText
