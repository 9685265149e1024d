/-!
# Data of a settings file

The values that a JSON or a TOML document holds.
-/

namespace GrammarText

/-- The kinds of moments that TOML knows. -/
inductive MomentKind where
  | date
  | time
  | dateTime
deriving DecidableEq, Repr

/-- A value of a document. -/
inductive Value where
  | null
  | bool (b : Bool)
  | int (n : Int)
  | float (x : Float)
  | string (s : String)
  /-- A string with an escape that is half of a surrogate pair, which no text can hold. -/
  | brokenString
  /-- A date or a time of day; no setting takes one, so only its kind is kept. -/
  | moment (kind : MomentKind)
  | list (items : List Value)
  /-- A table with its entries in the order of their first appearance. -/
  | table (entries : List (String × Value))
deriving Inhabited, Repr

namespace Value

/-- The name of a value's type in messages. -/
def typeName : Value → String
  | null => "NoneType"
  | bool _ => "bool"
  | int _ => "int"
  | float _ => "float"
  | string _ | brokenString => "str"
  | moment .date => "datetime.date"
  | moment .time => "datetime.time"
  | moment .dateTime => "datetime.datetime"
  | list _ => "list"
  | table _ => "dict"

/-- Whether the value counts as absent: null, false, zero, or empty. -/
def isEmpty : Value → Bool
  | null => true
  | bool b => !b
  | int n => n == 0
  | float x => x == 0
  | string s => s.isEmpty
  | brokenString => false
  | moment _ => false
  | list items => items.isEmpty
  | table entries => entries.isEmpty

/-- The entry of a table. -/
def get? (key : String) : Value → Option Value
  | table entries => entries.lookup key
  | _ => none

end Value

/-- The entries with the one for `key` replaced, or added at the end. -/
def setEntry {κ α : Type} [BEq κ] (key : κ) (value : α) : List (κ × α) → List (κ × α)
  | [] => [(key, value)]
  | (k, v) :: entries => if k == key then (k, value) :: entries else (k, v) :: setEntry key value entries

end GrammarText
