import GrammarText.Text.Printable

/-!
# Quoted text

How a text is shown inside a message: between apostrophes, or between double quotes if it holds an
apostrophe and no double quote. The delimiter and the backslash are escaped, line feed, carriage
return and tab are written by letter, and any other character that is not printable is written by its
code point, with two, four or eight hexadecimal digits.
-/

namespace GrammarText

/-- The last `width` digits of a number in hexadecimal, in lower case. -/
def hexDigits : Nat → Nat → Text
  | 0, _ => []
  | width + 1, n => hexDigits width (n / 16) ++ [Nat.digitChar (n % 16)]

/-- The escape of a character that is written by its code point. -/
def codePointEscape (c : Char) : Text :=
  if c.toNat < 0x100 then '\\' :: 'x' :: hexDigits 2 c.toNat
  else if c.toNat < 0x10000 then '\\' :: 'u' :: hexDigits 4 c.toNat
  else '\\' :: 'U' :: hexDigits 8 c.toNat

/-- The form of one character inside the quotation marks `mark`. -/
def quotedChar (mark c : Char) : Text :=
  if c == mark || c == '\\' then ['\\', c]
  else if c == '\n' then ['\\', 'n']
  else if c == '\r' then ['\\', 'r']
  else if c == '\t' then ['\\', 't']
  else if isPrintable c then [c]
  else codePointEscape c

/-- The quotation mark around a text: the one that saves an escape, else the apostrophe. -/
def quotationMark (t : Text) : Char :=
  if t.contains '\'' && !t.contains '"' then '"' else '\''

/-- The text between quotation marks. -/
def quoted (t : Text) : Text :=
  let mark := quotationMark t
  mark :: t.flatMap (quotedChar mark) ++ [mark]

/-- A string between quotation marks. -/
def quotedString (s : String) : String :=
  String.ofList (quoted s.toList)

example : quoted ['i', 't', '\'', 's'] = ['"', 'i', 't', '\'', 's', '"'] := by decide
example : quoted ['\x00', '\\'] = ['\'', '\\', 'x', '0', '0', '\\', '\\', '\''] := by decide

end GrammarText
