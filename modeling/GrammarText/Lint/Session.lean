import GrammarText.Lint.Report

/-!
# Checks on a live context

The linter runs its checks one after another on one context. A check can read all of the context and write to it. The
context splits a rule into its alternatives when a check first asks for them, and keeps them for all that ask later. What
a check finds is taken over finding by finding, so a check that breaks off may have handed over some before that. If a
check breaks off with an error, this costs it a warning, and what it wrote and handed over stays (`runCheck`).
-/

namespace GrammarText

/-- The rule at a position. A negative position counts from the end. -/
def ruleAt? (rules : List Rule) : Int → Option Rule
  | .ofNat i => rules[i]?
  | .negSucc i => rules.reverse[i]?

/-! ### Computations that break off -/

/-- How a computation breaks off. -/
inductive Interruption where
  /-- With an error of the given wording. -/
  | error (text : String)
  /-- With a request to stop altogether, which is no error. -/
  | stop
deriving DecidableEq, Repr

/-- Computations over a state that may break off. What was written before that stays written. -/
abbrev Session (σ : Type) :=
  ExceptT Interruption (StateM σ)

/-- Breaks off if there is an interruption. -/
def Session.resume {σ : Type} : Option Interruption → Session σ Unit
  | none => return
  | some e => throw e

/-- How a computation ends, and the state that it leaves. -/
def Session.outcome {σ α : Type} (x : Session σ α) (s : σ) : Except Interruption α × σ :=
  Id.run (StateT.run (ExceptT.run x) s)

/-! ### The context -/

/-- A context with the alternatives of the rules that it was asked for, each list under the position it was asked for. -/
structure SharedContext extends LintContext where
  kept : List (Int × List Alternative) := []

/-- What a check does with its context. -/
abbrev Sharing :=
  Session SharedContext

namespace Sharing

/-- What the context says at this point. -/
def context : Sharing LintContext :=
  return (← get).toLintContext

/-- The alternatives of the rule at a position. -/
def alternatives (i : Int) : Sharing (List Alternative) := do
  let s ← get
  match s.kept.lookup i with
  | some as => return as
  | none =>
    match ruleAt? s.rules i with
    | some r =>
      set { s with kept := (i, r.alternatives) :: s.kept }
      return r.alternatives
    | none => throw (.error "list index out of range")

end Sharing

/-! ### Checks -/

/-- The run of a check: what it hands over, how it breaks off if it does, and the context that it leaves. -/
structure CheckRun where
  findings : List Finding
  interruption : Option Interruption
  context : SharedContext

/-- The run of a check that hands over its findings when it is done. -/
def CheckRun.ofOutcome : Except Interruption (List Finding) × SharedContext → CheckRun
  | (.ok findings, s) => ⟨findings, none, s⟩
  | (.error e, s) => ⟨[], some e, s⟩

/-- A check as the linter runs it: what it is called, what it is for, and what it does with a context. -/
structure SharedCheck where
  id : String
  description : String
  run : SharedContext → CheckRun

section Each

variable (needs : Rule → Bool) (find : Rule → Nat → List Alternative → List Finding)

/-- Asks for the alternatives of a rule, if it needs them. -/
def inspectRule (r : Rule) (i : Nat) : Sharing (List Finding) :=
  if needs r then do return find r i (← Sharing.alternatives i) else return []

/-- Goes through rules, each with its position. -/
def inspectEach : List (Rule × Nat) → Sharing (List Finding)
  | [] => return []
  | (r, i) :: rest => do return (← inspectRule needs find r i) ++ (← inspectEach rest)

end Each

namespace BuiltinCheck

/-- What a built-in check does. The check for undefined references asks about those rules only that dangle, and the checks
for duplicates and for reachability about none. -/
def inspect (b : BuiltinCheck) : Sharing (List Finding) := do
  let ctx ← Sharing.context
  match b with
  | duplicates => return findDuplicates ctx
  | delimiters =>
    inspectEach (fun _ => true)
      (fun r i as => as.flatMap fun a => (delimiterProblems a).map (alternativeFinding r i a)) ctx.rules.zipIdx
  | undefined =>
    inspectEach (fun r => !(ctx.graph.danglingOf r.name).isEmpty)
      (fun r i as => (missingReferences (ctx.graph.danglingOf r.name) as).map fun (name, a) =>
        alternativeFinding r i a (if isTerminalName name then .undefinedToken name else .undefinedRule name))
      ctx.rules.zipIdx
  | leftRecursion =>
    inspectEach (fun _ => true)
      (fun r i as => (as.filter fun a => a.leadingName? == some r.name).map fun a =>
        alternativeFinding r i a (.leftRecursion a.summary))
      ctx.rules.zipIdx
  | reachability => return findUnreachable ctx

/-- The built-in check as the linter runs it. -/
def shared (b : BuiltinCheck) : SharedCheck :=
  ⟨b.id, b.description, fun s => .ofOutcome (b.inspect.outcome s)⟩

end BuiltinCheck

/-! ### Running the checks -/

/-- The context of a run, what the checks have found so far, and the warnings about those that failed. -/
structure Progress where
  context : SharedContext
  findings : List Finding := []
  failures : List String := []

/-- The report at the end of a run. -/
def Progress.report (p : Progress) : LintReport :=
  let findings := p.findings.mergeSort Finding.before
  { startRule := p.context.startRule
    errors := messagesOf .error findings
    warnings := messagesOf .warning findings ++ p.failures
    findings := findings }

/-- Takes over what a check hands over, and breaks off where the check does. -/
def takeOver (c : SharedCheck) : Session Progress Unit := do
  let p ← get
  let r := c.run p.context
  set { p with context := r.context, findings := p.findings ++ r.findings }
  Session.resume r.interruption

/-- Runs one check. An error becomes a warning; a request to stop is passed on. -/
def runCheck (c : SharedCheck) : Session Progress Unit :=
  try takeOver c
  catch
    | .error e => modify fun p => { p with failures := p.failures ++ [s!"Rule {c.id} encountered an error: {e}"] }
    | .stop => throw .stop

/-- Runs checks over a list of rules, one after another on one context. -/
def analyze (checks : List SharedCheck) (rules : List Rule) (start : Option Text) : Except Interruption LintReport :=
  match Session.outcome (checks.forM runCheck) { context := { toLintContext := .ofRules rules start } } with
  | (.ok _, p) => .ok p.report
  | (.error e, _) => .error e

end GrammarText
