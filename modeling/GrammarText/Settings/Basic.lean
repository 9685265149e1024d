import GrammarText.Data.Numeral
import GrammarText.Data.Value
import GrammarText.Text.Blank
import GrammarText.Text.Quoted

/-!
# Settings

The settings that all commands share, and how they are read from the values of a settings file. Values
are taken generously: a number may be written as a text, a truth value as a number or a word. A width
below the least one is raised to it, and a blank start rule counts as none. `Settings.validate` either
gives settings or says of every entry at fault what is wrong with it.
-/

namespace GrammarText

/-- The settings of the commands. -/
structure Settings where
  /-- The width that rules are wrapped to. -/
  width : Int := 100
  /-- The rule from which the others should be reachable. -/
  startRule : Option Text := none
  /-- Whether a rule that fits goes on one line. -/
  joinShort : Bool := true
deriving DecidableEq, Repr

/-- The least width. -/
def minWidth : Int := 40

/-- What is wrong with an entry. -/
inductive SettingFault where
  | notTable
  | unknownKey
  | unknownField (name : String)
  | integerExpected
  | wholeNumberExpected
  | finiteNumberExpected
  | unreadableInteger
  | oversizedInteger
  | textExpected
  | unreadableText
  | booleanExpected
  | unreadableBoolean
deriving DecidableEq, Repr

/-- The wording of a fault. -/
def SettingFault.message : SettingFault → String
  | notTable => "Input should be a valid dictionary or instance of ToolSettings"
  | unknownKey => "Extra inputs are not permitted"
  | unknownField name => s!"Object has no attribute '{name}'"
  | integerExpected => "Input should be a valid integer"
  | wholeNumberExpected => "Input should be a valid integer, got a number with a fractional part"
  | finiteNumberExpected => "Input should be a finite number"
  | unreadableInteger => "Input should be a valid integer, unable to parse string as an integer"
  | oversizedInteger => "Unable to parse input string as an integer, exceeded maximum size"
  | textExpected => "Input should be a valid string"
  | unreadableText => "Input should be a valid string, unable to parse raw data as a unicode string"
  | booleanExpected => "Input should be a valid boolean"
  | unreadableBoolean => "Input should be a valid boolean, unable to interpret input"

/-- An entry at fault, by its key; the empty key stands for the whole value. -/
structure SettingProblem where
  key : String
  fault : SettingFault
deriving DecidableEq, Repr

/-- The wording of all problems. -/
def describeProblems (ps : List SettingProblem) : String :=
  String.intercalate "; " (ps.map fun p => s!"{p.key}: {p.fault.message}")

/-! ### Reading values -/

/-- White space in the sense of Unicode, which the information separators are not. -/
def isWhiteSpace (c : Char) : Bool :=
  isBlank c && !(0x1c ≤ c.toNat && c.toNat ≤ 0x1f)

/-- The text without the white space at both ends. -/
def trimWhiteSpace (t : Text) : Text :=
  ((t.dropWhile isWhiteSpace).reverse.dropWhile isWhiteSpace).reverse

/-- The text without the zeros in front, up to the first digit that counts or a minus sign; underscores
may stand among the zeros. A last zero is kept, and so is one before a point. `last` is the character
before the text. -/
def dropLeadingZeros (last : Char) : Text → Option Text
  | [] => some [last]
  | c :: r =>
    if c == '0' || c == '_' then dropLeadingZeros c r
    else if c.isDigit || c == '-' then some (c :: r)
    else if c == '.' then some (last :: c :: r)
    else none

/-- The text with a digit in front, and without superfluous zeros there. -/
def trimZeros : Text → Option Text
  | '0' :: r => dropLeadingZeros '0' r
  | c :: r => if c.isDigit then some (c :: r) else none
  | [] => none

/-- The text without its fraction, if that is nothing but zeros. -/
def dropZeroFraction (t : Text) : Text :=
  match t.span (· != '.') with
  | (whole, _ :: c :: r) => if (c :: r).all (· == '0') then whole else t
  | _ => t

/-- The text without the underscores between its characters; they stand one by one, and not at the
ends. -/
def dropUnderscores : Text → Option Text
  | '_' :: _ => none
  | [] => some []
  | [c] => some [c]
  | c :: '_' :: d :: r => if d == '_' then none else (dropUnderscores (d :: r)).map (c :: ·)
  | c :: d :: r => if d == '_' then none else (dropUnderscores (d :: r)).map (c :: ·)

/-- The integer that a text writes with nothing but a minus sign and digits, of which the first is no
superfluous zero. The sign counts for the length. -/
def plainInteger (t : Text) : Except SettingFault Int :=
  let (negative, r) : Bool × Text :=
    match t with
    | '-' :: r => (true, r)
    | r => (false, r)
  match r with
  | ['0'] => .ok 0
  | _ =>
    let (ds, rest) := r.span Char.isDigit
    if ds.isEmpty || ds.head? = some '0' then .error .unreadableInteger
    else if t.length - rest.length > maxDigits then .error .oversizedInteger
    else if rest.isEmpty then .ok (signed negative (natOfDigits ds))
    else .error .unreadableInteger

/-- The integer that a text writes. -/
def integerOfText (t : Text) : Except SettingFault Int :=
  let t := trimWhiteSpace t
  let (negative, r) := takeSign t
  match (trimZeros r).bind fun r => dropUnderscores (dropZeroFraction r) with
  | some r => plainInteger (if negative then '-' :: r else r)
  | none => .error .unreadableInteger

/-- One more than the greatest integer of sixty-four bits. -/
def int64Limit : Int := 0x8000000000000000

/-- The integer that a fractional number is. -/
def integerOfFloat (x : Float) : Except SettingFault Int :=
  if !x.isFinite then .error .finiteNumberExpected
  else if x.floor != x then .error .wholeNumberExpected
  else if Float.ofInt (-int64Limit) < x ∧ x < Float.ofInt int64Limit then .ok x.toInt64.toInt
  else .error .oversizedInteger

/-- The integer that a value stands for. -/
def integerOfValue : Value → Except SettingFault Int
  | .bool b => .ok (if b then 1 else 0)
  | .int n => .ok n
  | .float x => integerOfFloat x
  | .string s => integerOfText s.toList
  | .brokenString => .error .unreadableText
  | _ => .error .integerExpected

/-- The words for true. -/
def trueWords : List String :=
  ["1", "on", "t", "true", "y", "yes"]

/-- The words for false. -/
def falseWords : List String :=
  ["0", "off", "f", "false", "n", "no"]

/-- The truth value that an integer stands for. -/
def booleanOfInt (n : Int) : Except SettingFault Bool :=
  if n = 0 then .ok false
  else if n = 1 then .ok true
  else if -int64Limit ≤ n ∧ n < int64Limit then .error .unreadableBoolean
  else .error .booleanExpected

/-- The truth value that a value stands for. -/
def booleanOfValue : Value → Except SettingFault Bool
  | .bool b => .ok b
  | .int n => booleanOfInt n
  | .float x =>
    match integerOfFloat x with
    | .ok n => booleanOfInt n
    | .error _ => .error .booleanExpected
  | .string s =>
    if trueWords.contains s.toLower then .ok true
    else if falseWords.contains s.toLower then .ok false
    else .error .unreadableBoolean
  | .brokenString => .error .unreadableText
  | _ => .error .booleanExpected

/-- The width that a value stands for. -/
def widthOfValue (v : Value) : Except SettingFault Int :=
  (integerOfValue v).map (max minWidth)

/-- A blank name is none. -/
def nonBlank (t : Text) : Option Text :=
  if (strip t).isEmpty then none else some t

/-- The start rule that a value stands for. -/
def startRuleOfValue : Value → Except SettingFault (Option Text)
  | .null => .ok none
  | .string s => .ok (nonBlank s.toList)
  | .brokenString => .error .unreadableText
  | _ => .error .textExpected

/-! ### Tables of settings -/

namespace Settings

/-- The keys of the settings. -/
def keys : List String :=
  ["width", "start_rule", "join_short_rules"]

/-- Reads the entry of a key, or takes the default if there is none. -/
def readEntry {α : Type} (entries : List (String × Value)) (key : String)
    (read : Value → Except SettingFault α) (default : α) : Except SettingProblem α :=
  match entries.lookup key with
  | none => .ok default
  | some v => (read v).mapError fun f => ⟨key, f⟩

/-- The problem of an entry, if it has one. -/
def problem? {α : Type} (r : Except SettingProblem α) : List SettingProblem :=
  match r with
  | .ok _ => []
  | .error p => [p]

/-- The problems of the entries whose keys are not known. -/
def unknownEntries (entries : List (String × Value)) : List SettingProblem :=
  (entries.filter fun e => !keys.contains e.1).map fun e => ⟨e.1, .unknownKey⟩

/-- The settings that the entries of a table give. -/
def ofEntries (entries : List (String × Value)) : Except (List SettingProblem) Settings :=
  let width := readEntry entries "width" widthOfValue 100
  let start := readEntry entries "start_rule" startRuleOfValue none
  let join := readEntry entries "join_short_rules" booleanOfValue true
  match width, start, join, unknownEntries entries with
  | .ok width, .ok start, .ok join, [] => .ok ⟨width, start, join⟩
  | _, _, _, unknown => .error (problem? width ++ problem? start ++ problem? join ++ unknown)

/-- The settings that a value gives. -/
def validate : Value → Except (List SettingProblem) Settings
  | .table entries => ofEntries entries
  | _ => .error [⟨"", .notTable⟩]

/-- The settings as the entries of a table. -/
def entries (s : Settings) : List (String × Value) :=
  [("width", .int s.width),
   ("start_rule", (s.startRule.map fun t => Value.string (String.ofList t)).getD .null),
   ("join_short_rules", .bool s.joinShort)]

/-- The settings with the values given, of which null stands for none. -/
def merged (s : Settings) (overrides : List (String × Value)) : Except (List SettingProblem) Settings :=
  let given := overrides.filter fun e => match e.2 with | .null => false | _ => true
  ofEntries (given.foldl (fun es e => setEntry e.1 e.2 es) s.entries)

/-- The settings with another value for one of them. -/
def assign (s : Settings) (key : String) (v : Value) : Except (List SettingProblem) Settings :=
  let problem (f : SettingFault) : List SettingProblem := [⟨key, f⟩]
  match key with
  | "width" => ((widthOfValue v).map fun w => { s with width := w }).mapError problem
  | "start_rule" => ((startRuleOfValue v).map fun t => { s with startRule := t }).mapError problem
  | "join_short_rules" => ((booleanOfValue v).map fun b => { s with joinShort := b }).mapError problem
  | _ => .error (problem (.unknownField key))

/-- The settings with another width. -/
def withWidth (s : Settings) (width : Int) : Settings :=
  { s with width := max minWidth width }

end Settings

end GrammarText
