import GrammarText.Token.Scan

/-!
# A scanning cursor

The scanner one step at a time: a cursor looks ahead in a text, cuts tokens of any length, and keeps
the place it has reached. A token may be cut so that it ends before the start or counts from the end
of the text; the cursor then stands at a negative offset, which counts from the end. What lies ahead
there is the end of the text and then the text itself once more, while a fixed sign has to fit before
the end.
-/

namespace GrammarText

/-- The offset outside the text that a cursor was asked to read. -/
inductive CursorError where
  | outOfRange
deriving DecidableEq, Repr

/-- The wording of the error. -/
def CursorError.message : CursorError → String
  | outOfRange => "string index out of range"

/-- The absolute offset that a bound of a slice of a text of length `n` stands for. -/
def sliceBound (n : Nat) (i : Int) : Nat :=
  if i < 0 then (i + n).toNat else min i.toNat n

/-- The characters from the bound `i` up to the bound `j`. -/
def slice (t : Text) (i j : Int) : Text :=
  (t.take (sliceBound t.length j)).drop (sliceBound t.length i)

/-- A cursor over a text. -/
structure Cursor where
  dialect : Dialect
  source : Text
  /-- How far the cursor has come; a negative offset counts from the end. -/
  offset : Int := 0
  /-- The place after all tokens so far. -/
  place : Position := {}
  /-- The tokens so far, the latest first. -/
  cut : List Token := []

namespace Cursor

/-- The number of characters of the text. -/
def size (s : Cursor) : Int :=
  s.source.length

/-- The character at an offset; `none` at the end and after it. -/
def charAt (s : Cursor) (i : Int) : Except CursorError (Option Char) :=
  if i < -s.size then .error .outOfRange
  else if i < 0 then .ok s.source[(i + s.size).toNat]?
  else .ok s.source[i.toNat]?

/-- The character `n` places ahead. -/
def peek (s : Cursor) (n : Int) : Except CursorError (Option Char) :=
  s.charAt (s.offset + n)

/-- The text from the cursor to the end. -/
def near (s : Cursor) : Text :=
  s.source.drop (sliceBound s.source.length s.offset)

/-- Whether the text goes on with the given one. An offset after the end has nothing ahead, not even
the empty text. -/
def startsWith (s : Cursor) (t : Text) : Bool :=
  s.offset ≤ s.size && t.isPrefixOf s.near

/-- Cuts a token that ends at the given offset, and moves there. -/
def add (s : Cursor) (kind : TokenKind) (stop : Int) : Cursor :=
  let stop := min stop s.size
  let text := slice s.source s.offset stop
  { s with
    offset := stop
    place := s.place.advance text
    cut := ⟨kind, text, s.place⟩ :: s.cut }

/-- The end of a comment at a cursor before the start. The search for the closing mark begins two
characters on, which is the start of the text if the opening mark is its end. -/
def commentStop (s : Cursor) (f : CommentForm) : Int :=
  let start := sliceBound s.source.length (s.offset + 2)
  start + f.restLength (s.source.drop start)

/-- The class and the end of the next token. -/
def next (s : Cursor) : Except CursorError (TokenKind × Int) :=
  if s.offset < -s.size ∨ s.size ≤ s.offset then .error .outOfRange
  else
    match commentForm? s.dialect s.near with
    | some f => .ok (.comment, s.commentStop f)
    | none =>
      match (if s.offset < 0 then s.near ++ s.source else s.near) with
      | [] => .error .outOfRange
      | c :: rest =>
        let f := plainForm s.dialect s.near c rest
        .ok (f.1, s.offset + f.2)

/-- Cuts the next token again and again, at most `fuel` times, until the end of the text is reached. -/
def runFor : Nat → Cursor → Except CursorError Cursor
  | 0, s => .ok s
  | fuel + 1, s =>
    if s.size ≤ s.offset then .ok s
    else do
      let (kind, stop) ← s.next
      runFor fuel (s.add kind stop)

/-- Cuts all tokens up to the end of the text. Each takes a character, so the number of characters
ahead bounds the number of tokens. -/
def run (s : Cursor) : Except CursorError Cursor :=
  s.runFor (s.size - s.offset).toNat

end Cursor

end GrammarText
