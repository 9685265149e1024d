import GrammarText.Layout.Render
import GrammarText.Rule.Extract

/-!
# Formatting a document

A document is formatted rule by rule; what stands outside rules is dropped, comments excepted. A
document without rules only has its whitespace normalized.
-/

namespace GrammarText

/-- Why a document cannot be formatted. -/
inductive FormatFailure where
  /-- The number of line feeds between two rules is none that a text can be asked for. -/
  | gapOutOfRange
deriving DecidableEq, Repr

/-- The wording of the failure. -/
def FormatFailure.message : FormatFailure → String
  | gapOutOfRange => "Formatting error: cannot fit 'int' into an index-sized integer"

/-- The outcome of formatting a document. -/
structure Formatted where
  text : Text
  /-- Whether the text differs from what it was. -/
  changed : Bool
  ruleCount : Nat
  /-- If present, the text is left as it was. -/
  failure : Option FormatFailure := none
deriving DecidableEq, Repr

namespace Formatted

/-- Whether the document was formatted. -/
def success (f : Formatted) : Bool :=
  f.failure.isNone

/-- What went wrong. -/
def errors (f : Formatted) : List String :=
  (f.failure.map FormatFailure.message).toList

/-- What the user should know. -/
def warnings (f : Formatted) : List String :=
  if f.success && f.ruleCount == 0 then ["No rules found; only whitespace was normalized"] else []

end Formatted

/-- The text with every run of spaces and tabs made one space, or nothing before a line feed. -/
def squeezeGaps : Text → Text
  | [] => []
  | [c] => [if c == '\t' then ' ' else c]
  | c :: d :: r =>
    if c == ' ' || c == '\t' then
      if d == ' ' || d == '\t' || d == '\n' then squeezeGaps (d :: r) else ' ' :: squeezeGaps (d :: r)
    else c :: squeezeGaps (d :: r)

/-- A document without rules, its whitespace normalized. -/
def normalizeWhitespace (t : Text) : Text :=
  strip (squeezeGaps t)

/-- The last pass over a formatted text. -/
def cleanUp (o : LayoutOptions) (t : Text) : Text :=
  let t := if o.trimLines then joinLines ((splitLines t).map rstrip) else t
  if o.finalNewline && !t.isEmpty && t.getLast? != some '\n' then t ++ ['\n'] else t

/-- One more than the number of characters that a text can have. -/
def textSizeLimit : Int := 0x8000000000000000

/-- Whether a text can be asked for with the line feeds between two rules. A number below zero is as good as zero, as
long as its magnitude is in range. -/
def LayoutOptions.GapInRange (o : LayoutOptions) : Prop :=
  -textSizeLimit ≤ o.blankLines + 1 ∧ o.blankLines + 1 < textSizeLimit

instance (o : LayoutOptions) : Decidable o.GapInRange :=
  inferInstanceAs (Decidable (_ ∧ _))

/-- The texts with `gap` line feeds between each two. -/
def joinSpaced (gap : Nat) : List Text → Text
  | [] => []
  | [t] => t
  | t :: ts => t ++ List.replicate gap '\n' ++ joinSpaced gap ts

/-- The rules of a document laid out, before the last pass. -/
def joinedRules (o : LayoutOptions) (rules : List Rule) : Text :=
  joinSpaced (o.blankLines + 1).toNat (rules.map (renderRule o))

/-- Formats a document. -/
def formatDocument (o : LayoutOptions) (source : Text) : Formatted :=
  match documentRules source with
  | [] =>
    let text := cleanUp o (normalizeWhitespace source)
    ⟨text, text != source, 0, none⟩
  | rules =>
    if o.GapInRange then
      let text := cleanUp o (joinedRules o rules)
      ⟨text, text != source, rules.length, none⟩
    else ⟨source, false, 0, some .gapOutOfRange⟩

end GrammarText
