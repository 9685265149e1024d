import GrammarText.Antlr.Convert
import GrammarText.Command.Log
import GrammarText.Layout.Document
import GrammarText.Lint.Report

/-!
# What the commands record

The log records of extracting, formatting, checking and converting rules, in the order in which the work
is done.
-/

namespace GrammarText

/-- The record of a rule without its semicolon, if the next rule interrupts it. -/
def interruptionRecord? (e : Rule × BodyEnd) : Option LogRecord :=
  match e.2 with
  | .interrupted =>
    some ⟨"lang.rules", .debug, s!"Rule '{String.ofList e.1.name}' has no terminating ';'"⟩
  | _ => none

/-- The records of finding the rules among tokens. -/
def extractionRecords (ts : List Token) : List LogRecord :=
  (extractFrom [] ts).filterMap interruptionRecord? ++
    [⟨"lang.rules", .debug, s!"Extracted {(extract ts).length} rules from {ts.length} tokens"⟩]

/-- The records of formatting a document. -/
def formattingRecords (source : Text) : List LogRecord :=
  let ts := scan .ebnf source
  extractionRecords ts ++ [⟨"formatting.core", .debug, s!"Formatted {(extract ts).length} rules"⟩]

/-- The records of checking a document. -/
def checkingRecords (source : Text) (r : LintReport) : List LogRecord :=
  let ts := scan .ebnf source
  let start := (r.startRule.map String.ofList).getD "None"
  extractionRecords ts ++
    [⟨"linter.core", .debug,
      s!"Analyzed {(extract ts).length} rules (start={start}): {r.errors.length} errors, " ++
        s!"{r.warnings.length} warnings"⟩]

namespace Antlr

/-- The record of a statement that looked like a rule and is none. -/
def abandonmentRecord? (path : String) : Statement → Option LogRecord
  | .abandoned name line =>
    some ⟨"converter.g4", .debug, s!"{path}:{line}: '{String.ofList name}' is not followed by ':'"⟩
  | _ => none

/-- The records of reading one grammar. -/
def readingRecords (g : ConvertedGrammar) : List LogRecord :=
  let path := String.ofList g.path
  let shown := if path.isEmpty then "<string>" else path
  g.statements.filterMap (abandonmentRecord? path) ++
    [⟨"converter.g4", .debug, s!"Converted {shown}: {g.rules.length} rules ({g.kind.label} grammar)"⟩]

/-- The records of a conversion. -/
def conversionRecords (c : Conversion) : List LogRecord :=
  c.grammars.flatMap readingRecords

end Antlr

end GrammarText
