import GrammarText.Data.Numeral
import GrammarText.Data.Value

/-!
# JSON

`readJson` reads a JSON document, with the numbers `NaN`, `Infinity` and `-Infinity` on top of the
standard; of several entries with one key the last one counts. `writeJson` writes a value over indented
lines, in ASCII. A reading error knows how much of the text was left where it arose, which fixes its
place.
-/

namespace GrammarText

/-- What is wrong with a JSON document. -/
inductive JsonFault where
  | byteOrderMark
  | value
  | propertyName
  | colon
  | comma
  | unterminated
  | control
  | escape
  | unicodeEscape
  | extra
deriving DecidableEq, Repr

/-- The wording of a fault. -/
def JsonFault.message : JsonFault → String
  | byteOrderMark => "Unexpected UTF-8 BOM (decode using utf-8-sig)"
  | value => "Expecting value"
  | propertyName => "Expecting property name enclosed in double quotes"
  | colon => "Expecting ':' delimiter"
  | comma => "Expecting ',' delimiter"
  | unterminated => "Unterminated string starting at"
  | control => "Invalid control character at"
  | escape => "Invalid \\escape"
  | unicodeEscape => "Invalid \\uXXXX escape"
  | extra => "Extra data"

/-- Why a JSON document is refused. -/
inductive JsonError where
  /-- A fault, with the number of characters of the document before it and on its line before it. -/
  | syntaxFault (fault : JsonFault) (offset line column : Nat)
  | tooLong (e : LengthError)
deriving DecidableEq, Repr

/-- The wording of the error. -/
def JsonError.message : JsonError → String
  | syntaxFault fault offset line column =>
    s!"{fault.message}: line {line} column {column} (char {offset})"
  | tooLong e => e.message

namespace Json

/-- A fault and the text from the place where it arose. -/
inductive Failure where
  | fault (f : JsonFault) (rest : Text)
  | tooLong (e : LengthError)

/-- A reader takes something off the front of a text. -/
abbrev Reader (α : Type) := Text → Except Failure (α × Text)

/-- A character between the parts of a document. -/
def isGap (c : Char) : Bool :=
  c == ' ' || c == '\t' || c == '\n' || c == '\r'

/-- The text without the gap in front. -/
def skipGap (t : Text) : Text :=
  t.dropWhile isGap

/-- The character that a letter after a backslash stands for. -/
def escapedChar? : Char → Option Char
  | '"' => some '"'
  | '\\' => some '\\'
  | '/' => some '/'
  | 'b' => some '\x08'
  | 'f' => some '\x0c'
  | 'n' => some '\n'
  | 'r' => some '\r'
  | 't' => some '\t'
  | _ => none

/-- Reads the four digits of an escape by code point. `u` is the text from the letter of the escape;
there has to be a character after the digits, since a string is open. -/
def codeUnit (u : Text) : Reader Nat := fun t =>
  match if (t.drop 4).isEmpty then none else natOfHexDigits? (t.take 4) with
  | some n => .ok (n, t.drop 4)
  | none => .error (.fault .unicodeEscape u)

/-- Reads what follows the first half of a surrogate pair. Only a second half right behind it makes a
character; anything else is left for the rest of the string. -/
def pairedUnit (high : Nat) : Reader (Option Char) := fun t =>
  match t with
  | '\\' :: 'u' :: digits =>
    if (digits.drop 4).isEmpty then .ok (none, t)
    else
      match natOfHexDigits? (digits.take 4) with
      | none => .error (.fault .unicodeEscape ('u' :: digits))
      | some low =>
        if 0xdc00 ≤ low ∧ low ≤ 0xdfff then
          .ok (some (Char.ofNat (0x10000 + (high - 0xd800) * 0x400 + (low - 0xdc00))), digits.drop 4)
        else .ok (none, t)
  | _ => .ok (none, t)

/-- Reads an escape by code point, from its letter. The result is `none` for half a surrogate pair. -/
def unicodeEscape (u : Text) : Reader (Option Char) := fun digits => do
  let (n, rest) ← codeUnit u digits
  if 0xd800 ≤ n ∧ n ≤ 0xdbff then pairedUnit n rest
  else if 0xdc00 ≤ n ∧ n ≤ 0xdfff then .ok (none, rest)
  else .ok (some (Char.ofNat n), rest)

/-- Reads the characters of a string up to its closing mark; `none` stands for half a surrogate pair.
`start` is the text from the opening mark, and `fuel` bounds the number of characters. -/
def stringChars (start : Text) : Nat → List (Option Char) → Reader (List (Option Char))
  | 0, _, _ => .error (.fault .unterminated start)
  | _ + 1, _, [] => .error (.fault .unterminated start)
  | fuel + 1, acc, c :: rest =>
    if c == '"' then .ok (acc.reverse, rest)
    else if c == '\\' then
      match rest with
      | [] => .error (.fault .unterminated start)
      | 'u' :: digits => do
        let (e, rest) ← unicodeEscape rest digits
        stringChars start fuel (e :: acc) rest
      | e :: rest' =>
        match escapedChar? e with
        | some e => stringChars start fuel (some e :: acc) rest'
        | none => .error (.fault .escape (c :: rest))
    else if c.toNat < 0x20 then .error (.fault .control (c :: rest))
    else stringChars start fuel (some c :: acc) rest

/-- Reads a string after its opening mark. -/
def string (rest : Text) : Except Failure (List (Option Char) × Text) :=
  stringChars ('"' :: rest) (rest.length + 1) [] rest

/-- The value of the characters of a string. -/
def stringValue (cs : List (Option Char)) : Value :=
  match cs.mapM id with
  | some cs => .string (String.ofList cs)
  | none => .brokenString

/-- The characters of a key; half a surrogate pair shows as the replacement character. -/
def keyText (cs : List (Option Char)) : String :=
  String.ofList (cs.map fun c => c.getD '\ufffd')

/-- Reads the fraction of a number, if one follows: a point and at least one digit. -/
def fraction? : Text → Option (Text × Text)
  | '.' :: c :: r => if c.isDigit then some ((c :: r).span Char.isDigit) else none
  | _ => none

/-- Reads the exponent of a number, if one follows: its letter, a sign if any, at least one digit. -/
def exponent? : Text → Option (Int × Text)
  | e :: r =>
    if e == 'e' || e == 'E' then
      let (negative, r) := takeSign r
      let (ds, rest) := r.span Char.isDigit
      if ds.isEmpty then none
      else some (signed negative (natOfDigits ds), rest)
    else none
  | [] => none

/-- Reads a number. A fraction or an exponent makes it a fractional one; a leading zero ends the whole
part. -/
def number (t : Text) : Except Failure (Value × Text) :=
  let (negative, r) : Bool × Text :=
    match t with
    | '-' :: r => (true, r)
    | r => (false, r)
  let (whole, r) : Text × Text :=
    match r with
    | '0' :: r => (['0'], r)
    | r => r.span Char.isDigit
  if whole.isEmpty then .error (.fault .value t)
  else
    let (fraction, r') := (fraction? r).getD ([], r)
    let (exponent, r'') := (exponent? r').getD (0, r')
    if r''.length = r.length then
      match boundedNat whole with
      | .ok n => .ok (.int (signed negative n), r)
      | .error e => .error (.tooLong e)
    else .ok (.float (Decimal.toFloat ⟨negative, whole, fraction, exponent⟩), r'')

/-- The values that are written as a word. -/
def words : List (Text × Value) :=
  [(['n', 'u', 'l', 'l'], .null), (['t', 'r', 'u', 'e'], .bool true),
    (['f', 'a', 'l', 's', 'e'], .bool false),
   (['N', 'a', 'N'], .float (0.0 / 0.0)), (['I', 'n', 'f', 'i', 'n', 'i', 't', 'y'], .float (1.0 / 0.0)),
   (['-', 'I', 'n', 'f', 'i', 'n', 'i', 't', 'y'], .float (-1.0 / 0.0))]

/-- Reads a value that holds no others. -/
def scalar (t : Text) : Except Failure (Value × Text) :=
  match t with
  | '"' :: rest => do
    let (cs, rest) ← string rest
    return (stringValue cs, rest)
  | t =>
    match words.find? fun w => w.1.isPrefixOf t with
    | some (w, v) => .ok (v, t.drop w.length)
    | none => number t

mutual

/-- Reads a value; `fuel` bounds the number of values. -/
def value : Nat → Reader Value
  | 0, t => .error (.fault .value t)
  | fuel + 1, t =>
    match t with
    | '[' :: rest =>
      match skipGap rest with
      | ']' :: rest => .ok (.list [], rest)
      | rest => items fuel [] rest
    | '\x7b' :: rest =>
      match skipGap rest with
      | '\x7d' :: rest => .ok (.table [], rest)
      | rest => members fuel [] rest
    | t => scalar t

/-- Reads the values of a list up to its closing bracket. -/
def items : Nat → List Value → Reader Value
  | 0, _, t => .error (.fault .value t)
  | fuel + 1, acc, t => do
    let (v, rest) ← value fuel t
    match skipGap rest with
    | ']' :: rest => .ok (.list (v :: acc).reverse, rest)
    | ',' :: rest => items fuel (v :: acc) (skipGap rest)
    | rest => .error (.fault .comma rest)

/-- Reads the entries of a table up to its closing brace. -/
def members : Nat → List (String × Value) → Reader Value
  | 0, _, t => .error (.fault .value t)
  | fuel + 1, acc, t =>
    match t with
    | '"' :: rest => do
      let (key, rest) ← string rest
      match skipGap rest with
      | ':' :: rest =>
        let (v, rest) ← value fuel (skipGap rest)
        let acc := setEntry (keyText key) v acc
        match skipGap rest with
        | '\x7d' :: rest => .ok (.table acc, rest)
        | ',' :: rest => members fuel acc (skipGap rest)
        | rest => .error (.fault .comma rest)
      | rest => .error (.fault .colon rest)
    | t => .error (.fault .propertyName t)

end

/-- Reads a whole document. -/
def document (t : Text) : Except Failure Value :=
  match t with
  | '\ufeff' :: _ => .error (.fault .byteOrderMark t)
  | t =>
    match value (2 * t.length + 2) (skipGap t) with
    | .error e => .error e
    | .ok (v, rest) =>
      match skipGap rest with
      | [] => .ok v
      | rest => .error (.fault .extra rest)

end Json

/-- The value of a JSON document. -/
def readJson (t : Text) : Except JsonError Value :=
  match Json.document t with
  | .ok v => .ok v
  | .error (.tooLong e) => .error (.tooLong e)
  | .error (.fault f rest) =>
    let before := t.take (t.length - rest.length)
    let onLine := (before.reverse.takeWhile (· != '\n')).length
    .error (.syntaxFault f before.length (before.count '\n' + 1) (onLine + 1))

/-! ### Writing -/

namespace Json

/-- One unit of sixteen bits as an escape. -/
def unitEscape (n : Nat) : Text :=
  '\\' :: 'u' :: [n / 4096 % 16, n / 256 % 16, n / 16 % 16, n % 16].map Nat.digitChar

/-- A character inside a string. -/
def stringChar (c : Char) : Text :=
  if c == '"' || c == '\\' then ['\\', c]
  else if c == '\n' then ['\\', 'n']
  else if c == '\r' then ['\\', 'r']
  else if c == '\t' then ['\\', 't']
  else if c == '\x08' then ['\\', 'b']
  else if c == '\x0c' then ['\\', 'f']
  else if 0x20 ≤ c.toNat ∧ c.toNat < 0x7f then [c]
  else if c.toNat < 0x10000 then unitEscape c.toNat
  else
    let n := c.toNat - 0x10000
    unitEscape (0xd800 + n / 0x400) ++ unitEscape (0xdc00 + n % 0x400)

/-- A string between its marks. -/
def writeString (s : String) : String :=
  "\"" ++ String.ofList (s.toList.flatMap stringChar) ++ "\""

/-- What a document that is written can hold. -/
inductive Output where
  | null
  | bool (b : Bool)
  | int (n : Int)
  | string (s : String)
  | list (items : List Output)
  | table (entries : List (String × Output))

/-- The line break and the indentation of the given depth. -/
def lineBreak (depth : Nat) : String :=
  "\n" ++ String.ofList (List.replicate (2 * depth) ' ')

mutual

/-- A value at the given depth; the parts of a list or a table stand on lines of their own. -/
def Output.write (depth : Nat) : Output → String
  | .null => "null"
  | .bool b => if b then "true" else "false"
  | .int n => toString n
  | .string s => writeString s
  | .list [] => "[]"
  | .list items => "[" ++ Output.writeItems (depth + 1) true items ++ lineBreak depth ++ "]"
  | .table [] => "\x7b\x7d"
  | .table entries => "\x7b" ++ Output.writeEntries (depth + 1) true entries ++ lineBreak depth ++ "\x7d"

/-- The items of a list, each on its line. -/
def Output.writeItems (depth : Nat) (first : Bool) : List Output → String
  | [] => ""
  | v :: vs =>
    (if first then "" else ",") ++ lineBreak depth ++ v.write depth ++ Output.writeItems depth false vs

/-- The entries of a table, each on its line. -/
def Output.writeEntries (depth : Nat) (first : Bool) : List (String × Output) → String
  | [] => ""
  | (k, v) :: es =>
    (if first then "" else ",") ++ lineBreak depth ++ writeString k ++ ": " ++ v.write depth ++
      Output.writeEntries depth false es

end

end Json

/-- The document that holds the value, without a final line feed. -/
def writeJson (v : Json.Output) : String :=
  v.write 0

end GrammarText
