import GrammarText.Command.Help
import GrammarText.Command.Option

/-!
# Reading a command line

Options take effect one after the other, in the order of the words; the first one that asks for help, or
that is at fault, ends the reading. Operands and options may be mixed, but all operands of a command have
to stand together. What no option and no operand takes is left over.
-/

namespace GrammarText

/-- Why reading a command line ends early. -/
inductive Halt where
  /-- The user asks for help. -/
  | help (h : CommandHelp)
  /-- The user asks for the version. -/
  | version
  /-- The command line is at fault. -/
  | usage (h : CommandHelp) (e : UsageError)

/-- The operands of a command, by the name that messages give them. -/
inductive OperandSpec (σ : Type) where
  | one (name : String) (set : String → σ → σ)
  | many (name : String) (set : List String → σ → σ)

/-- What a command understands. -/
structure Interface (σ : Type) where
  help : CommandHelp
  options : List (OptionSpec σ)

/-- An option with the value that it is given, if any. -/
structure OptionUse (σ : Type) where
  spec : OptionSpec σ
  value : Option String := none

/-- The options that a word uses. -/
structure WordUses (σ : Type) where
  uses : List (OptionUse σ)
  /-- Whether the next word is a value of one of them. -/
  takesNext : Bool := false

section

variable {σ : Type}

/-- The use of an option that carries nothing; `next` is the operand behind it. -/
def plainUse (spec : OptionSpec σ) (next : Option String) : Except UsageError (WordUses σ) :=
  if spec.takesValue then
    match next with
    | some v => .ok ⟨[⟨spec, some v⟩], true⟩
    | none => .error (.valueExpected spec.label)
  else .ok ⟨[⟨spec, none⟩], false⟩

/-- The value that a text behind an option gives it. Two dashes are no value. -/
def attachedValue (text : Text) : Option String :=
  if text = ['-', '-'] then none else some (String.ofList text)

/-- The uses of an option that carries a text. Behind a short option without a value there may be
further short options. -/
def attachedUses (options : List (OptionSpec σ)) (next : Option String) (spec : OptionSpec σ)
    (isShort : Bool) (text : Text) : Except UsageError (WordUses σ) :=
  if spec.takesValue then .ok ⟨[⟨spec, attachedValue text⟩], false⟩
  else
    let ignored : Except UsageError (WordUses σ) := .error (.valueIgnored spec.label (String.ofList text))
    if !isShort then ignored
    else
      match text with
      | [] => ignored
      | c :: more =>
        match (namedOptions options).lookup (String.ofList ['-', c]) with
        | none => ignored
        | some spec' =>
          let rest := if more.isEmpty then plainUse spec' next else attachedUses options next spec' true more
          rest.map fun u => { u with uses := ⟨spec, none⟩ :: u.uses }
termination_by text.length

/-- Whether a name has a single dash. -/
def isShortName (name : String) : Bool :=
  match name.toList with
  | '-' :: '-' :: _ => false
  | _ => true

/-- The options that an option word uses. -/
def wordUses (options : List (OptionSpec σ)) (next : Option String) (spec : OptionSpec σ) (name : String) :
    Option Text → Except UsageError (WordUses σ)
  | none => plainUse spec next
  | some text => attachedUses options next spec (isShortName name) text

/-- Lets an option take effect. -/
def applyUse (i : Interface σ) (s : σ) (u : OptionUse σ) : Except Halt σ :=
  match u.spec.effect with
  | .help => .error (.help i.help)
  | .version => .error .version
  | .flag set => .ok (set s)
  | .value set clear =>
    match u.value with
    | none => .ok (clear s)
    | some v => (set v s).mapError fun f => .usage i.help (.badValue u.spec.label f)

/-- The text of the first word, if it is an operand. -/
def nextOperand : List (Word σ) → Option String
  | ⟨text, .operand⟩ :: _ => some text
  | _ => none

/-- Lets the options of a word take effect, `ws` being the words behind it. The results are the request
and the words that follow. -/
def takeOption (i : Interface σ) (s : σ) (spec : OptionSpec σ) (name : String) (attached : Option Text)
    (ws : List (Word σ)) : Except Halt (σ × List (Word σ)) :=
  match wordUses i.options (nextOperand ws) spec name attached with
  | .error e => .error (.usage i.help e)
  | .ok u =>
    match u.uses.foldlM (applyUse i) s with
    | .error h => .error h
    | .ok s => .ok (s, if u.takesNext then ws.tail else ws)

theorem length_le_of_takeOption {i : Interface σ} {s s' : σ} {spec : OptionSpec σ} {name : String}
    {attached : Option Text} {ws rest : List (Word σ)}
    (h : takeOption i s spec name attached ws = .ok (s', rest)) : rest.length ≤ ws.length := by
  unfold takeOption at h
  split at h
  · cases h
  · split at h
    · cases h
    · cases h
      split
      · simp
      · exact Nat.le_refl _

/-- Whether a word can stand among operands. -/
def Word.isPlain (w : Word σ) : Bool :=
  match w.role with
  | .operand | .separator => true
  | _ => false

/-- Whether a word is the separator. -/
def Word.isSeparator (w : Word σ) : Bool :=
  match w.role with
  | .separator => true
  | _ => false

/-- Takes operands from a run of plain words; `none` if there is no operand. What a single operand does
not take is left over, except a separator right behind it. -/
def OperandSpec.take? (o : OperandSpec σ) (run : List (Word σ)) (s : σ) : Option (σ × List String) :=
  match o with
  | .one _ set =>
    match run.dropWhile Word.isSeparator with
    | [] => none
    | w :: more => some (set w.text s, (more.dropWhile Word.isSeparator).map Word.text)
  | .many _ set =>
    match run.filter fun w => !w.isSeparator with
    | [] => none
    | ws => some (set (ws.map Word.text) s, [])

/-- What messages call the operands. -/
def OperandSpec.name : OperandSpec σ → String
  | one name _ => name
  | many name _ => name

/-- What has been read. -/
structure Reading (σ : Type) where
  request : σ
  /-- Whether the operands are still missing. -/
  missing : Bool := true
  /-- The words that mean nothing, in order. -/
  left : List String := []

/-- Reads the words of a command. -/
def readFrom (i : Interface σ) (operands : OperandSpec σ) (r : Reading σ) :
    List (Word σ) → Except Halt (Reading σ)
  | [] => .ok r
  | w :: ws =>
    match w.role with
    | .unknown => readFrom i operands { r with left := r.left ++ [w.text] } ws
    | .option spec name attached =>
      match _h : takeOption i r.request spec name attached ws with
      | .error h => .error h
      | .ok (s, rest) => readFrom i operands ⟨s, r.missing, r.left⟩ rest
    | _ =>
      let run := w :: ws.takeWhile Word.isPlain
      let rest := ws.dropWhile Word.isPlain
      match if r.missing then operands.take? run r.request else none with
      | some (s, left) => readFrom i operands ⟨s, false, r.left ++ left⟩ rest
      | none => readFrom i operands { r with left := r.left ++ run.map Word.text } rest
termination_by ws => ws.length
decreasing_by
  · simp
  · have := length_le_of_takeOption _h
    simp only [List.length_cons]
    omega
  · have := (List.dropWhile_sublist (l := ws) Word.isPlain).length_le
    simp only [List.length_cons]
    omega
  · have := (List.dropWhile_sublist (l := ws) Word.isPlain).length_le
    simp only [List.length_cons]
    omega

/-- Reads the arguments of a command: the request, and the words that mean nothing. -/
def Interface.read (i : Interface σ) (operands : OperandSpec σ) (start : σ) (arguments : List String) :
    Except Halt (σ × List String) := do
  let words ← (readWords i.options arguments).mapError (Halt.usage i.help)
  let r ← readFrom i operands ⟨start, true, []⟩ words
  if r.missing then .error (.usage i.help (.operandMissing operands.name))
  else return (r.request, r.left)

/-- Reads the options up to the first other word: the request, the words that mean nothing, and the words
from there on. -/
def readLeading (i : Interface σ) (s : σ) (left : List String) :
    List (Word σ) → Except Halt (σ × List String × List String)
  | [] => .ok (s, left, [])
  | w :: ws =>
    match w.role with
    | .unknown => readLeading i s (left ++ [w.text]) ws
    | .option spec name attached =>
      match _h : takeOption i s spec name attached ws with
      | .error h => .error h
      | .ok (s, rest) => readLeading i s left rest
    | _ => .ok (s, left, w.text :: ws.map Word.text)
termination_by ws => ws.length
decreasing_by
  · simp
  · have := length_le_of_takeOption _h
    simp only [List.length_cons]
    omega

end

end GrammarText
