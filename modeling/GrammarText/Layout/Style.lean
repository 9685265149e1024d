import GrammarText.Layout.Render

/-!
# Styles

Named sets of layout choices.
-/

namespace GrammarText

/-- The predefined layouts. -/
inductive Style where
  | standard
  | compact
  | expanded
deriving DecidableEq, Repr

namespace Style

/-- All styles. -/
def all : List Style :=
  [standard, compact, expanded]

/-- The name of the style. -/
def label : Style → String
  | standard => "standard"
  | compact => "compact"
  | expanded => "expanded"

/-- The choices of the style. -/
def options : Style → LayoutOptions
  | standard => { width := 100, joinShort := true, blankLines := 1 }
  | compact => { width := 120, joinShort := true, blankLines := 0 }
  | expanded => { width := 80, joinShort := false, blankLines := 1 }

end Style

/-- A name that no style has. -/
structure UnknownStyle where
  name : String
deriving DecidableEq, Repr

/-- The wording of the error. -/
def UnknownStyle.message (e : UnknownStyle) : String :=
  s!"Unknown formatting style '{e.name}'"

/-- The style of the given name. -/
def Style.ofLabel (name : String) : Except UnknownStyle Style :=
  match all.find? (·.label == name) with
  | some s => .ok s
  | none => .error ⟨name⟩

end GrammarText
