import GrammarText.Text.CodePoints

/-!
# Decimal numerals

Reading runs of decimal digits, and rounding a decimal fraction to the nearest binary one.
-/

namespace GrammarText

/-- The value of an ASCII digit. -/
def asciiDigit (c : Char) : Nat :=
  c.toNat - '0'.toNat

/-- The number that a run of ASCII digits writes. -/
def natOfDigits (ds : Text) : Nat :=
  ds.foldl (fun n c => n * 10 + asciiDigit c) 0

/-- The value of a digit in base sixteen. -/
def hexDigitValue? (c : Char) : Option Nat :=
  if c.isDigit then some (asciiDigit c)
  else if 'a' ≤ c ∧ c ≤ 'f' then some (c.toNat - 'a'.toNat + 10)
  else if 'A' ≤ c ∧ c ≤ 'F' then some (c.toNat - 'A'.toNat + 10)
  else none

/-- The number that a run of hexadecimal digits writes, if it holds nothing else. -/
def natOfHexDigits? (ds : Text) : Option Nat :=
  ds.foldlM (fun n c => (hexDigitValue? c).map (n * 16 + ·)) 0

/-- The digits behind the first one of a numeral, without the single underscores between them, and the
rest of the text. -/
def moreDigits (isDigit : Char → Bool) : Text → Text × Text
  | '_' :: c :: r =>
    if isDigit c then
      let (ds, rest) := moreDigits isDigit r
      (c :: ds, rest)
    else ([], '_' :: c :: r)
  | c :: r =>
    if isDigit c then
      let (ds, rest) := moreDigits isDigit r
      (c :: ds, rest)
    else ([], c :: r)
  | [] => ([], [])

/-- The digits of a numeral, at least one, and the rest of the text. A single underscore may stand
between two digits. -/
def groupedDigits? (isDigit : Char → Bool) : Text → Option (Text × Text)
  | c :: r =>
    if isDigit c then
      let (ds, rest) := moreDigits isDigit r
      some (c :: ds, rest)
    else none
  | [] => none

/-- Whether there is a minus sign in front, and the text without the sign. -/
def takeSign : Text → Bool × Text
  | '-' :: r => (true, r)
  | '+' :: r => (false, r)
  | t => (false, t)

/-- The number with the sign that the text had. -/
def signed (negative : Bool) (n : Nat) : Int :=
  if negative then -n else n

/-- The greatest number of digits that a decimal integer may have. -/
def maxDigits : Nat := 4300

/-- A decimal integer is refused for its length. -/
structure LengthError where
  digits : Nat
deriving DecidableEq, Repr

/-- The wording of the error. -/
def LengthError.message (e : LengthError) : String :=
  s!"Exceeds the limit ({maxDigits} digits) for integer string conversion: value has {e.digits} digits; " ++
    "use sys.set_int_max_str_digits() to increase the limit"

/-- The number that a run of ASCII digits writes, unless there are too many of them. -/
def boundedNat (ds : Text) : Except LengthError Nat :=
  if ds.length > maxDigits then .error ⟨ds.length⟩ else .ok (natOfDigits ds)

/-- A decimal fraction: the digits before and after the point, and the exponent of ten. -/
structure Decimal where
  negative : Bool
  whole : Text
  fraction : Text
  exponent : Int

/-- The nearest double-precision number. Numbers whose size is out of every double's reach are settled
by their number of digits. -/
def Decimal.toFloat (d : Decimal) : Float :=
  let digits := (d.whole ++ d.fraction).dropWhile (· == '0')
  let exponent := d.exponent - d.fraction.length
  let magnitude : Float :=
    if digits.isEmpty ∨ exponent + digits.length < -400 then 0.0
    else if exponent + digits.length > 400 then 1.0 / 0.0
    else Float.ofScientific (natOfDigits digits) (exponent < 0) exponent.natAbs
  if d.negative then -magnitude else magnitude

end GrammarText
