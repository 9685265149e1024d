import GrammarText.Text.Blank

/-!
# Lines

Cutting a text at its line feeds and putting it together again.
-/

namespace GrammarText

/-- The lines of a text, without the line feeds between them. -/
def splitLines (t : Text) : List Text :=
  t.splitOn '\n'

/-- The lines with a line feed between each two. -/
def joinLines (lines : List Text) : Text :=
  ['\n'].intercalate lines

/-- The words with a space between each two. -/
def joinWords (words : List Text) : Text :=
  [' '].intercalate words

/-- The text of `n` spaces. -/
def spaces (n : Nat) : Text :=
  List.replicate n ' '

end GrammarText
