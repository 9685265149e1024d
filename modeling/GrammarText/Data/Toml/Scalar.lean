import GrammarText.Data.Toml.Basic
import GrammarText.Data.Value

/-!
# TOML: numbers and moments

Numbers may have underscores between their digits. A moment is a date, a time of day, or both with an
offset if any; a date has to exist in the calendar.
-/

namespace GrammarText.Toml

/-- Whether a letter or a digit has a value below `base`. -/
def isDigitBelow (base : Nat) (c : Char) : Bool :=
  match hexDigitValue? c with
  | some n => n < base
  | none => false

/-- An integer that names its base. -/
def basedInt? : Text → Option (Int × Text)
  | '0' :: letter :: r =>
    let base := match letter with | 'x' => 16 | 'o' => 8 | 'b' => 2 | _ => 0
    (groupedDigits? (isDigitBelow base) r).map fun (ds, rest) =>
      (((ds.filterMap hexDigitValue?).foldl (fun n d => n * base + d) 0 : Nat), rest)
  | _ => none

/-- The whole part of a number: zero, or digits that do not begin with one. -/
def wholePart? : Text → Option (Text × Text)
  | '0' :: r => some (['0'], r)
  | t => groupedDigits? Char.isDigit t

/-- The fraction of a number. -/
def fraction? : Text → Option (Text × Text)
  | '.' :: r => groupedDigits? Char.isDigit r
  | _ => none

/-- The exponent of a number. -/
def exponent? : Text → Option (Int × Text)
  | c :: r =>
    if c == 'e' || c == 'E' then
      let (negative, r) := takeSign r
      (groupedDigits? Char.isDigit r).map fun (ds, rest) =>
        (signed negative (natOfDigits ds), rest)
    else none
  | [] => none

/-- Reads a number, if one stands in front. A fraction or an exponent makes it a fractional one. -/
def number? (t : Text) : Except LengthError (Option (Value × Text)) :=
  match basedInt? t with
  | some (n, rest) => .ok (some (.int n, rest))
  | none =>
    let (negative, r) := takeSign t
    match wholePart? r with
    | none => .ok none
    | some (whole, r) =>
      let (fraction, r') := (fraction? r).getD ([], r)
      let (exponent, r'') := (exponent? r').getD (0, r')
      if r''.length = r.length then
        (boundedNat whole).map fun n => some (.int (signed negative n), r)
      else .ok (some (.float (Decimal.toFloat ⟨negative, whole, fraction, exponent⟩), r''))

/-- Infinity and the number that is none, with a sign if any. -/
def special? (t : Text) : Option (Value × Text) :=
  let (negative, r) := takeSign t
  match r with
  | 'i' :: 'n' :: 'f' :: r => some (.float (if negative then -1.0 / 0.0 else 1.0 / 0.0), r)
  | 'n' :: 'a' :: 'n' :: r => some (.float (0.0 / 0.0), r)
  | _ => none

/-! ### Moments -/

/-- The number that the first `n` characters write, if they are digits. -/
def fixedDigits? (n : Nat) (t : Text) : Option (Nat × Text) :=
  let ds := t.take n
  if ds.length = n ∧ ds.all Char.isDigit then some (natOfDigits ds, t.drop n) else none

/-- Two digits that write a number between `low` and `high`. -/
def twoDigits? (low high : Nat) (t : Text) : Option (Nat × Text) := do
  let (n, rest) ← fixedDigits? 2 t
  if low ≤ n ∧ n ≤ high then some (n, rest) else none

/-- The text behind the character `c`. -/
def behind? (c : Char) : Text → Option Text
  | d :: r => if d == c then some r else none
  | [] => none

/-- A day of the calendar, which need not exist. -/
structure Day where
  year : Nat
  month : Nat
  day : Nat

/-- The number of days of a month. -/
def daysInMonth (year month : Nat) : Nat :=
  if month = 2 then
    if year % 4 = 0 ∧ (year % 100 ≠ 0 ∨ year % 400 = 0) then 29 else 28
  else if month = 4 ∨ month = 6 ∨ month = 9 ∨ month = 11 then 30
  else 31

/-- A day that exists; years count from one. -/
def Day.Exists (d : Day) : Prop :=
  1 ≤ d.year ∧ d.day ≤ daysInMonth d.year d.month

instance (d : Day) : Decidable d.Exists := by unfold Day.Exists; infer_instance

/-- A date in front of a text. -/
def date? (t : Text) : Option (Day × Text) := do
  let (year, t) ← fixedDigits? 4 t
  let (month, t) ← twoDigits? 1 12 (← behind? '-' t)
  let (day, t) ← twoDigits? 1 31 (← behind? '-' t)
  return (⟨year, month, day⟩, t)

/-- The text behind the fraction of a second, if there is one. -/
def dropFraction : Text → Text
  | '.' :: c :: r => if c.isDigit then r.dropWhile Char.isDigit else '.' :: c :: r
  | t => t

/-- The text behind a time of day. -/
def behindTime? (t : Text) : Option Text := do
  let (_, t) ← twoDigits? 0 23 t
  let (_, t) ← twoDigits? 0 59 (← behind? ':' t)
  let (_, t) ← twoDigits? 0 59 (← behind? ':' t)
  return dropFraction t

/-- The text behind an offset of hours and minutes. -/
def behindOffset? (t : Text) : Option Text := do
  let (_, t) ← twoDigits? 0 23 t
  let (_, t) ← twoDigits? 0 59 (← behind? ':' t)
  return t

/-- The text behind the offset of a time, if there is one. -/
def dropOffset : Text → Text
  | c :: r =>
    if c == 'Z' || c == 'z' then r
    else if c == '+' || c == '-' then (behindOffset? r).getD (c :: r)
    else c :: r
  | [] => []

/-- The text behind the time that goes with a date. -/
def behindTimeOfDate? : Text → Option Text
  | c :: r => if c == 'T' || c == 't' || c == ' ' then (behindTime? r).map dropOffset else none
  | [] => none

/-- Reads a moment, if one stands in front. -/
def moment? (t : Text) : Except TomlFault (Option (Value × Text)) :=
  match date? t with
  | some (day, r) =>
    if day.Exists then
      match behindTimeOfDate? r with
      | some rest => .ok (some (.moment .dateTime, rest))
      | none => .ok (some (.moment .date, r))
    else .error .moment
  | none => .ok ((behindTime? t).map fun rest => (.moment .time, rest))

end GrammarText.Toml
