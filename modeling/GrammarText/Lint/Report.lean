import GrammarText.Data.Json
import GrammarText.Lint.Check
import GrammarText.Rule.Extract
import GrammarText.Text.Columns
import GrammarText.Text.Lines

/-!
# Reports

Running checks over a grammar and showing what they found, on a terminal or as JSON. A check that
fails costs its own findings and nothing else.
-/

namespace GrammarText

/-- The result of running checks. -/
structure LintReport where
  startRule : Option Text
  /-- What fails the grammar. -/
  errors : List String
  /-- What does not. -/
  warnings : List String
  findings : List Finding

namespace LintReport

/-- Whether nothing fails the grammar. -/
def success (r : LintReport) : Bool :=
  r.errors.isEmpty

/-- The number of findings of a severity. -/
def count (r : LintReport) (s : Severity) : Nat :=
  r.findings.countP (·.severity == s)

end LintReport

/-- What a check finds; nothing if it fails. -/
def Check.findings (c : Check) (ctx : LintContext) : List Finding :=
  (c.run ctx).toOption.getD []

/-- The warning that a check has failed, if it has. -/
def Check.failure? (c : Check) (ctx : LintContext) : Option String :=
  match c.run ctx with
  | .ok _ => none
  | .error e => some s!"Rule {c.id} encountered an error: {e}"

/-- The messages of the findings of a severity. -/
def messagesOf (s : Severity) (fs : List Finding) : List String :=
  (fs.filter (·.severity == s)).map Finding.message

/-- Runs checks over a context. The findings are in the order of the grammar, and those about one
alternative in the order of the checks. -/
def runChecks (checks : List Check) (ctx : LintContext) : LintReport :=
  let findings := (checks.flatMap fun c => c.findings ctx).mergeSort Finding.before
  { startRule := ctx.startRule
    errors := messagesOf .error findings
    warnings := messagesOf .warning findings ++ checks.filterMap fun c => c.failure? ctx
    findings := findings }

/-- Runs checks over a list of rules. -/
def lintRules (checks : List Check) (rules : List Rule) (start : Option Text) : LintReport :=
  runChecks checks (.ofRules rules start)

/-- Runs checks over a document. -/
def lintDocument (checks : List Check) (source : Text) (start : Option Text) : LintReport :=
  lintRules checks (documentRules source) start

/-! ### On a terminal -/

/-- Control characters that a terminal report leaves out. -/
def isTerminalControl (c : Char) : Bool :=
  c == '\x07' || c == '\x08' || c == '\x0b' || c == '\x0c' || c == '\x0d'

/-- The pieces of a line with spaces for the tabs between them, up to the next multiple of eight columns;
`column` is where the first piece begins. A tab is at least one space, which is measured together with the
piece before it. -/
def expandTabs (column : Nat) : List Text → Text
  | [] => []
  | [piece] => piece
  | piece :: pieces =>
    let reached := column + columns (piece ++ [' '])
    let stop := (reached + 7) / 8 * 8
    piece ++ spaces (stop - reached + 1) ++ expandTabs stop pieces

/-- A text as a terminal report shows it. -/
def terminalText (s : String) : String :=
  let t := s.toList.filter fun c => !isTerminalControl c
  String.ofList (joinLines ((splitLines t).map fun l => expandTabs 0 (l.splitOn '\t')))

/-- The lines of a report on the file shown as `path`. -/
def LintReport.terminalLines (r : LintReport) (path : String) : List String :=
  let suffix :=
    match r.startRule with
    | some (c :: name) => s!" (start = {String.ofList (c :: name)})"
    | _ => ""
  if r.errors.isEmpty && r.warnings.isEmpty then [s!"✔ {path} looks good{suffix}."]
  else
    let items := fun (title : String) (messages : List String) =>
      if messages.isEmpty then [] else ["", title] ++ messages.map fun m => s!"  - {m}"
    [s!"{path} validation results:{suffix}"] ++ items "Errors:" r.errors ++ items "Warnings:" r.warnings ++
      if r.errors.isEmpty then ["", "No blocking errors; only warnings. ✅"] else []

/-- The report for a terminal. -/
def LintReport.terminal (r : LintReport) (path : String) : String :=
  String.join ((r.terminalLines path).map fun l => terminalText l ++ "\n")

/-! ### As JSON -/

/-- A text or null. -/
def optionalOutput (t : Option Text) : Json.Output :=
  match t with
  | some t => .string (String.ofList t)
  | none => .null

/-- A finding as an entry of a JSON report. -/
def Finding.output (f : Finding) : Json.Output :=
  .table
    [("rule_id", .string f.id), ("message", .string f.message), ("severity", .string f.severity.label),
     ("line", (f.site?.map fun s => Json.Output.int s.line).getD .null),
     ("rule", optionalOutput (f.site?.map Site.rule)),
     ("suggestion", (f.suggestion?.map Json.Output.string).getD .null)]

/-- The report as a JSON document. -/
def LintReport.json (r : LintReport) (path : String) : String :=
  writeJson <| .table
    [("file", .string path), ("start_rule", optionalOutput r.startRule), ("success", .bool r.success),
     ("errors", .list (r.errors.map .string)), ("warnings", .list (r.warnings.map .string)),
     ("findings", .list (r.findings.map Finding.output))]

end GrammarText
