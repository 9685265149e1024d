import GrammarText.Data.Numeral
import GrammarText.Text.Blank
import GrammarText.Text.Digit
import GrammarText.Text.Quoted

/-!
# Options of a command line

What options a command has, and which of them a word of the command line means. A long option may be
cut short as long as one option alone begins like that, and may carry its value behind an equals sign; a
short option may carry its value right behind its letter. Other words are operands, and so is every word
behind a separator, and what looks like a negative number.
-/

namespace GrammarText

/-- The texts with a comma between each two. -/
def listed (texts : List String) : String :=
  String.intercalate ", " texts

/-- Why a value does not suit an argument. -/
inductive ValueFault where
  | notInteger (text : String)
  | notAmong (text : String) (choices : List String)
deriving DecidableEq, Repr

/-- The wording of the fault. -/
def ValueFault.message : ValueFault → String
  | notInteger text => s!"invalid int value: {quotedString text}"
  | notAmong text choices =>
    s!"invalid choice: {quotedString text} (choose from {listed (choices.map quotedString)})"

/-- What is wrong with a command line. -/
inductive UsageError where
  /-- An option stands without its value. -/
  | valueExpected (option : String)
  /-- An option that takes no value carries one. -/
  | valueIgnored (option text : String)
  | badValue (argument : String) (fault : ValueFault)
  /-- Several options begin like the word. -/
  | ambiguous (word : String) (candidates : List String)
  | operandMissing (name : String)
  | unrecognized (words : List String)
deriving DecidableEq, Repr

/-- The wording of the error. -/
def UsageError.message : UsageError → String
  | valueExpected option => s!"argument {option}: expected one argument"
  | valueIgnored option text => s!"argument {option}: ignored explicit argument {quotedString text}"
  | badValue argument fault => s!"argument {argument}: {fault.message}"
  | ambiguous word candidates => s!"ambiguous option: {word} could match {listed candidates}"
  | operandMissing name => s!"the following arguments are required: {name}"
  | unrecognized words => "unrecognized arguments: " ++ String.intercalate " " words

/-- What an option does to the request `σ` that the command line makes. -/
inductive OptionEffect (σ : Type) where
  /-- It asks for help. -/
  | help
  /-- It asks for the version. -/
  | version
  | flag (set : σ → σ)
  /-- It takes a value; `clear` is what it does when it is given without one. -/
  | value (set : String → σ → Except ValueFault σ) (clear : σ → σ)

/-- An option: its names, each with its dashes, and its effect. -/
structure OptionSpec (σ : Type) where
  names : List String
  effect : OptionEffect σ

namespace OptionSpec

variable {σ : Type}

/-- How messages call the option. -/
def label (o : OptionSpec σ) : String :=
  String.intercalate "/" o.names

/-- Whether the option takes a value. -/
def takesValue (o : OptionSpec σ) : Bool :=
  match o.effect with
  | .value _ _ => true
  | _ => false

/-- The option that every command has. -/
def help : OptionSpec σ :=
  ⟨["-h", "--help"], .help⟩

/-- The effect of an option whose value is one of several names. -/
def choice {α : Type} (choices : List (String × α)) (set : Option α → σ → σ) : OptionEffect σ :=
  .value
    (fun text s =>
      match choices.lookup text with
      | some a => .ok (set (some a) s)
      | none => .error (.notAmong text (choices.map (·.1))))
    (set none)

/-- The effect of an option whose value is any text. -/
def text (set : Option String → σ → σ) : OptionEffect σ :=
  .value (fun t s => .ok (set (some t) s)) (set none)

end OptionSpec

/-- The integer that an argument writes, in the digits of any script. -/
def integerOfArgument (s : String) : Option Int :=
  let digit (c : Char) : Char := (digitValue? c).elim c Nat.digitChar
  let (negative, r) := takeSign (strip s.toList)
  match groupedDigits? Char.isDigit (r.map digit) with
  | some (ds, []) =>
    match boundedNat ds with
    | .ok n => some (signed negative n)
    | .error _ => none
  | _ => none

/-- What a command line says about a number. -/
inductive NumberOption where
  | unset
  | given (n : Int)
  /-- The option is given without a value. -/
  | empty
deriving DecidableEq, Repr

/-- The effect of an option whose value is an integer. -/
def OptionSpec.integer {σ : Type} (set : NumberOption → σ → σ) : OptionEffect σ :=
  .value
    (fun text s =>
      match integerOfArgument text with
      | some n => .ok (set (.given n) s)
      | none => .error (.notInteger text))
    (set .empty)

/-! ### Words -/

/-- What a word of a command line is. -/
inductive WordRole (σ : Type) where
  | operand
  /-- Two dashes, behind which there are only operands. -/
  | separator
  /-- An option under one of its names, with the text that the word carries behind it. -/
  | option (spec : OptionSpec σ) (name : String) (attached : Option Text)
  /-- What looks like an option that the command does not have. -/
  | unknown

/-- A word of a command line and what it is. -/
structure Word (σ : Type) where
  text : String
  role : WordRole σ

section

variable {σ : Type}

/-- The options with each of their names. -/
def namedOptions (options : List (OptionSpec σ)) : List (String × OptionSpec σ) :=
  options.flatMap fun o => o.names.map fun n => (n, o)

/-- The part of a text before the first equals sign, and the part behind it if there is one. -/
def splitAtEquals (t : Text) : Text × Option Text :=
  match t.span (· != '=') with
  | (before, _ :: after) => (before, some after)
  | (before, []) => (before, none)

/-- The options that a word may mean although it is no name of theirs. -/
def candidates (options : List (OptionSpec σ)) (t : Text) : List (String × WordRole σ) :=
  match t with
  | '-' :: '-' :: _ =>
    let (start, value) := splitAtEquals t
    ((namedOptions options).filter fun (n, _) => start.isPrefixOf n.toList).map fun (n, o) =>
      (n, .option o n value)
  | '-' :: c :: value =>
    ((namedOptions options).filter fun (n, _) => n.toList = ['-', c]).map fun (n, o) =>
      (n, .option o n (some value))
  | _ => []

/-- Whether a text is a minus sign and a number, with a point or without. -/
def looksNegative (t : Text) : Bool :=
  let isDigit (c : Char) : Bool := (digitValue? c).isSome
  match if t.getLast? = some '\n' then t.dropLast else t with
  | '-' :: r =>
    match r.span isDigit with
    | (ds, []) => !ds.isEmpty
    | (_, '.' :: fraction) => !fraction.isEmpty && fraction.all isDigit
    | _ => false
  | _ => false

/-- What a word before the separator is. -/
def roleOf (options : List (OptionSpec σ)) (s : String) : Except UsageError (WordRole σ) :=
  let t := s.toList
  if t.head? ≠ some '-' then .ok .operand
  else
    match (namedOptions options).lookup s with
    | some o => .ok (.option o s none)
    | none =>
      if t.length = 1 then .ok .operand
      else
        let (name, value) := splitAtEquals t
        match value.bind fun v => ((namedOptions options).lookup (String.ofList name)).map (v, ·) with
        | some (v, o) => .ok (.option o (String.ofList name) (some v))
        | none =>
          match candidates options t with
          | [(_, role)] => .ok role
          | [] => .ok (if looksNegative t || t.contains ' ' then .operand else .unknown)
          | several => .error (.ambiguous s (several.map (·.1)))

/-- The words of a command line with what they are. -/
def readWords (options : List (OptionSpec σ)) : List String → Except UsageError (List (Word σ))
  | [] => .ok []
  | "--" :: words => .ok (⟨"--", .separator⟩ :: words.map fun w => ⟨w, .operand⟩)
  | s :: words => do
    let role ← roleOf options s
    return ⟨s, role⟩ :: (← readWords options words)

end

end GrammarText
