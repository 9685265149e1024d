import GrammarText.Data.Toml.Nest
import GrammarText.Data.Toml.Scalar
import GrammarText.Data.Toml.Text

/-!
# TOML: values, statements and documents

`readToml` reads a document: one statement a line, each of them an entry or the head of a section.
-/

namespace GrammarText

namespace Toml

/-- Reads a value that holds no others. -/
def scalar : Reader Value := fun t =>
  match t with
  | '"' :: _ | '\'' :: _ => do
    let (s, rest) ← string t
    return (.string (String.ofList s), rest)
  | 't' :: 'r' :: 'u' :: 'e' :: rest => .ok (.bool true, rest)
  | 'f' :: 'a' :: 'l' :: 's' :: 'e' :: rest => .ok (.bool false, rest)
  | t =>
    match moment? t with
    | .error f => .error (.fault f t)
    | .ok (some r) => .ok r
    | .ok none =>
      match number? t with
      | .error e => .error (.tooLong e)
      | .ok (some r) => .ok r
      | .ok none =>
        match special? t with
        | some r => .ok r
        | none => .error (.fault .value t)

/-- The text behind the sign between a key and its value, and the gap there. -/
def behindEquals : Text → Except Failure Text
  | '=' :: r => .ok (skipGap r)
  | t => .error (.fault .equalsSign t)

mutual

/-- Reads a value; `fuel` bounds the number of values. -/
def value : Nat → Reader Value
  | 0, t => .error (.fault .value t)
  | fuel + 1, t =>
    match t with
    | '[' :: r => do
      match ← skipWideGap r.length r with
      | ']' :: rest => return (.list [], rest)
      | rest => items fuel [] rest
    | '\x7b' :: r =>
      match skipGap r with
      | '\x7d' :: rest => .ok (.table [], rest)
      | rest => members fuel [] rest
    | t => scalar t

/-- Reads the items of a list up to its closing bracket; a comma may follow the last one. -/
def items : Nat → List Value → Reader Value
  | 0, _, t => .error (.fault .value t)
  | fuel + 1, acc, t => do
    let (v, rest) ← value fuel t
    match ← skipWideGap rest.length rest with
    | ']' :: rest => return (.list (v :: acc).reverse, rest)
    | ',' :: rest =>
      match ← skipWideGap rest.length rest with
      | ']' :: rest => return (.list (v :: acc).reverse, rest)
      | rest => items fuel (v :: acc) rest
    | rest => .error (.fault .listEnd rest)

/-- Reads the entries of a table that is written out, up to its closing brace. -/
def members : Nat → Entries → Reader Value
  | 0, _, t => .error (.fault .value t)
  | fuel + 1, acc, t => do
    let (k, rest) ← key t
    let (v, rest) ← value fuel (← behindEquals rest)
    match assignInline k v acc with
    | .error f => .error (.fault f rest)
    | .ok acc =>
      match skipGap rest with
      | '\x7d' :: rest => return (.table (entryValues acc), rest)
      | ',' :: rest => members fuel acc (skipGap rest)
      | rest => .error (.fault .inlineEnd rest)

end

/-- What has been read of a document. -/
structure Progress where
  entries : Entries := []
  /-- The name of the section that entries are added to. -/
  header : Key := []
  /-- The number of sections so far. -/
  sections : Nat := 0

/-- Reads the head of a section, from behind its opening brackets. -/
def sectionHead (closing : Text) (unclosed : TomlFault)
    (declaration : Key → Entries → Except TomlFault Entries) (p : Progress) : Reader Progress := fun t => do
  let (k, rest) ← key (skipGap t)
  match declaration k p.entries with
  | .error f => .error (.fault f rest)
  | .ok entries =>
    if closing.isPrefixOf rest then return (⟨entries, k, p.sections + 1⟩, rest.drop closing.length)
    else .error (.fault unclosed rest)

/-- Reads an entry of a section. -/
def entry (p : Progress) : Reader Progress := fun t => do
  let (k, rest) ← key t
  let r ← behindEquals rest
  let (v, rest) ← value (2 * r.length + 2) r
  match assign p.sections p.header k v p.entries with
  | .error f => .error (.fault f rest)
  | .ok entries => return (⟨entries, p.header, p.sections⟩, rest)

/-- A character that begins an entry. -/
def beginsKey (c : Char) : Bool :=
  isBareKeyChar c || c == '"' || c == '\''

/-- Reads the statement of a line, if there is one. -/
def statement (p : Progress) : Reader Progress := fun t =>
  match t with
  | [] | '\n' :: _ | '#' :: _ => .ok (p, t)
  | '[' :: '[' :: r => sectionHead [']', ']'] .tableListEnd declareListItem p r
  | '[' :: r => sectionHead [']'] .tableEnd declareTable p r
  | c :: _ => if beginsKey c then entry p t else .error (.fault .statement t)

/-- Reads line by line; `fuel` bounds the number of lines. -/
def lines : Nat → Progress → Text → Except Failure Progress
  | 0, p, _ => .ok p
  | fuel + 1, p, t => do
    let (p, rest) ← statement p (skipGap t)
    match ← skipComment (skipGap rest) with
    | [] => return p
    | '\n' :: rest => lines fuel p rest
    | rest => .error (.fault .lineEnd rest)

/-- The text with each pair of carriage return and line feed written as a line feed. -/
def unixLineEnds : Text → Text
  | '\r' :: '\n' :: r => '\n' :: unixLineEnds r
  | c :: r => c :: unixLineEnds r
  | [] => []

end Toml

/-- The table of a TOML document. -/
def readToml (t : Text) : Except TomlError Value :=
  let document := Toml.unixLineEnds t
  match Toml.lines (document.length + 1) {} document with
  | .ok p => .ok (.table (Toml.entryValues p.entries))
  | .error e => .error (e.toError document)

end GrammarText
