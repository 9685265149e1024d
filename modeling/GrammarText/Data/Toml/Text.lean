import GrammarText.Data.Toml.Basic

/-!
# TOML: strings and keys

The four forms of a string and the parts of a key. A string between quotation marks knows escapes, one
between apostrophes is taken as it stands; three marks in a row make a string of many lines, which
drops a line end right behind its opening marks and may end in one or two marks of its own.
-/

namespace GrammarText.Toml

/-- The text before the first occurrence of `mark`, and the text behind it. -/
def splitAtMark (mark : Text) : Text → Option (Text × Text)
  | [] => none
  | c :: r =>
    if mark.isPrefixOf (c :: r) then some ([], (c :: r).drop mark.length)
    else (splitAtMark mark r).map fun (before, rest) => (c :: before, rest)

/-- Reads a string that is taken as it stands, up to its closing mark. -/
def literalString (mark : Text) (refused : Char → Bool) : Reader Text := fun t =>
  match splitAtMark mark t with
  | none => .error (.fault (.closingMark mark) [])
  | some (body, rest) =>
    if body.any refused then
      match t.dropWhile fun c => !refused c with
      | c :: more => .error (.fault (.invalid c) (c :: more))
      | [] => .ok (body, rest)
    else .ok (body, rest)

/-- The character that a letter after a backslash stands for. -/
def escapedChar? : Char → Option Char
  | 'b' => some '\x08'
  | 't' => some '\t'
  | 'n' => some '\n'
  | 'f' => some '\x0c'
  | 'r' => some '\r'
  | '"' => some '"'
  | '\\' => some '\\'
  | _ => none

/-- Reads an escape by code point, which has `width` digits. -/
def codePoint (width : Nat) : Reader Text := fun t =>
  let digits := t.take width
  match if digits.length = width then natOfHexDigits? digits else none with
  | none => .error (.fault .hexDigits t)
  | some n =>
    if n.isValidChar then .ok ([Char.ofNat n], t.drop width)
    else .error (.fault .noScalarValue (t.drop width))

/-- Reads what follows a backslash. In a string of many lines the end of a line may be escaped, which
drops it with the gaps around it. -/
def escape (block : Bool) : Reader Text := fun t =>
  match t with
  | '\n' :: r => if block then .ok ([], r.dropWhile isWideGap) else .error (.fault .escape r)
  | 'u' :: r => codePoint 4 r
  | 'U' :: r => codePoint 8 r
  | c :: r =>
    if block && isGap c then
      match skipGap r with
      | [] => .ok ([], [])
      | '\n' :: r => .ok ([], r.dropWhile isWideGap)
      | r => .error (.fault .escape r)
    else
      match escapedChar? c with
      | some e => .ok ([e], r)
      | none => .error (.fault .escape r)
  | [] => .error (.fault .escape [])

/-- Reads a string with escapes, up to its closing mark. `fuel` bounds the number of characters, and
`acc` holds those read so far, last first. -/
def basicChars (block : Bool) : Nat → Text → Reader Text
  | 0, _, t => .error (.fault .unterminated t)
  | _ + 1, _, [] => .error (.fault .unterminated [])
  | fuel + 1, acc, c :: r =>
    if c == '"' then
      if !block then .ok (acc.reverse, r)
      else
        match r with
        | '"' :: '"' :: rest => .ok (acc.reverse, rest)
        | r => basicChars block fuel (c :: acc) r
    else if c == '\\' then do
      let (e, r) ← escape block r
      basicChars block fuel (e.reverse ++ acc) r
    else if if block then isBlockControl c else isControl c then .error (.fault (.illegal c) (c :: r))
    else basicChars block fuel (c :: acc) r

/-- Reads a string with escapes. -/
def basicString (block : Bool) : Reader Text := fun t =>
  basicChars block (t.length + 1) [] t

/-- The marks, at most two, that a string of many lines ends in, and the text behind them. -/
def extraMarks (mark : Char) : Text → Text × Text
  | c :: r =>
    if c == mark then
      match r with
      | d :: s => if d == mark then ([mark, mark], s) else ([mark], r)
      | [] => ([mark], r)
    else ([], c :: r)
  | [] => ([], [])

/-- The text without the line end in front. -/
def dropLineEnd : Text → Text
  | '\n' :: r => r
  | t => t

/-- Reads a string, from its opening mark. -/
def string : Reader Text := fun t =>
  match t with
  | '"' :: '"' :: '"' :: r => do
    let (body, rest) ← basicString true (dropLineEnd r)
    let (more, rest) := extraMarks '"' rest
    return (body ++ more, rest)
  | '\'' :: '\'' :: '\'' :: r => do
    let (body, rest) ← literalString ['\'', '\'', '\''] isBlockControl (dropLineEnd r)
    let (more, rest) := extraMarks '\'' rest
    return (body ++ more, rest)
  | '"' :: r => basicString false r
  | '\'' :: r => literalString ['\''] isControl r
  | t => .error (.fault .value t)

/-- A character of a key part without marks. -/
def isBareKeyChar (c : Char) : Bool :=
  c.isAlphanum || c == '-' || c == '_'

/-- Reads one part of a key. -/
def keyPart : Reader String := fun t =>
  match t with
  | '"' :: r => do
    let (part, rest) ← basicString false r
    return (String.ofList part, rest)
  | '\'' :: r => do
    let (part, rest) ← literalString ['\''] isControl r
    return (String.ofList part, rest)
  | t =>
    let (part, rest) := t.span isBareKeyChar
    if part.isEmpty then .error (.fault .keyStart t) else .ok (String.ofList part, rest)

/-- Reads the parts of a key, which points separate, and the gap behind it; `fuel` bounds their
number. -/
def keyParts : Nat → Reader Key
  | 0, t => .error (.fault .keyStart t)
  | fuel + 1, t => do
    let (part, rest) ← keyPart t
    match skipGap rest with
    | '.' :: r =>
      let (parts, rest) ← keyParts fuel (skipGap r)
      return (part :: parts, rest)
    | rest => return ([part], rest)

/-- Reads a key. -/
def key : Reader Key := fun t =>
  keyParts (t.length + 1) t

end GrammarText.Toml
