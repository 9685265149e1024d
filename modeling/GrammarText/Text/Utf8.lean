import GrammarText.Text.CodePoints

/-!
# UTF-8

`encodeUtf8` writes a text as bytes. `decodeUtf8` reads bytes as text and refuses them at the first place
that no text can have. The error says which bytes stand there: the longest part of a character that could
still have been completed, and at least one byte.
-/

namespace GrammarText

/-- The last six bits of a number, as a byte that continues a character. -/
def utf8Continuation (n : Nat) : UInt8 :=
  UInt8.ofNat (0x80 + n % 0x40)

/-- The bytes of a character. -/
def utf8Bytes (c : Char) : List UInt8 :=
  let n := c.toNat
  if n < 0x80 then [UInt8.ofNat n]
  else if n < 0x800 then [UInt8.ofNat (0xc0 + n / 0x40), utf8Continuation n]
  else if n < 0x10000 then
    [UInt8.ofNat (0xe0 + n / 0x1000), utf8Continuation (n / 0x40), utf8Continuation n]
  else
    [UInt8.ofNat (0xf0 + n / 0x40000), utf8Continuation (n / 0x1000), utf8Continuation (n / 0x40),
      utf8Continuation n]

/-- The bytes of a text. -/
def encodeUtf8 (t : Text) : List UInt8 :=
  t.flatMap utf8Bytes

/-- Why bytes are no text. -/
inductive Utf8Fault where
  /-- No character begins with this byte. -/
  | start
  /-- A character is broken off by a byte that cannot continue it. -/
  | continuation
  /-- The last character is incomplete. -/
  | ending
deriving DecidableEq, Repr

/-- The place where bytes stop being text. -/
structure Utf8Error where
  fault : Utf8Fault
  /-- The offset of the first byte at fault. -/
  offset : Nat
  /-- The first byte at fault. -/
  byte : UInt8
  /-- The number of bytes at fault. -/
  count : Nat
deriving DecidableEq, Repr

/-- The wording of a fault. -/
def Utf8Fault.message : Utf8Fault → String
  | start => "invalid start byte"
  | continuation => "invalid continuation byte"
  | ending => "unexpected end of data"

/-- The wording of the error. -/
def Utf8Error.message (e : Utf8Error) : String :=
  let place :=
    if e.count = 1 then
      s!"byte 0x{String.ofList [Nat.digitChar (e.byte.toNat / 16), Nat.digitChar (e.byte.toNat % 16)]} " ++
        s!"in position {e.offset}"
    else s!"bytes in position {e.offset}-{e.offset + e.count - 1}"
  s!"'utf-8' codec can't decode {place}: {e.fault.message}"

/-- What the first byte of a character says about the rest: the bits that it holds, how many bytes
follow, and the least and the greatest value of the next one. -/
def utf8Lead? (b : Nat) : Option (Nat × Nat × Nat × Nat) :=
  if b < 0x80 then some (b, 0, 0, 0)
  else if 0xc2 ≤ b ∧ b ≤ 0xdf then some (b - 0xc0, 1, 0x80, 0xbf)
  else if b = 0xe0 then some (0, 2, 0xa0, 0xbf)
  else if b = 0xed then some (0xd, 2, 0x80, 0x9f)
  else if 0xe1 ≤ b ∧ b ≤ 0xef then some (b - 0xe0, 2, 0x80, 0xbf)
  else if b = 0xf0 then some (0, 3, 0x90, 0xbf)
  else if 0xf1 ≤ b ∧ b ≤ 0xf3 then some (b - 0xf0, 3, 0x80, 0xbf)
  else if b = 0xf4 then some (4, 3, 0x80, 0x8f)
  else none

/-- Reads the rest of a character: `missing` more bytes, the next of them between `low` and `high`.
On failure, the fault and the number of bytes that were read. -/
def utf8Tail (value : Nat) :
    Nat → Nat → Nat → List UInt8 → Except (Utf8Fault × Nat) (Nat × List UInt8)
  | 0, _, _, bytes => .ok (value, bytes)
  | _ + 1, _, _, [] => .error (.ending, 0)
  | missing + 1, low, high, b :: bytes =>
    if low ≤ b.toNat ∧ b.toNat ≤ high then
      match utf8Tail (value * 64 + (b.toNat - 0x80)) missing 0x80 0xbf bytes with
      | .ok r => .ok r
      | .error (fault, n) => .error (fault, n + 1)
    else .error (.continuation, 0)

theorem length_le_of_utf8Tail {value missing low high : Nat} {bytes rest : List UInt8} {v : Nat}
    (h : utf8Tail value missing low high bytes = .ok (v, rest)) : rest.length ≤ bytes.length := by
  fun_induction utf8Tail value missing low high bytes with
  | case1 => cases h; exact Nat.le_refl _
  | case2 => cases h
  | case3 value missing low high b bytes hb r hr ih =>
    cases h
    exact Nat.le_succ_of_le (ih hr)
  | case4 => cases h
  | case5 => cases h

/-- The text of the bytes that stand at `offset`. -/
def decodeUtf8From (offset : Nat) : List UInt8 → Except Utf8Error Text
  | [] => .ok []
  | b :: bytes =>
    match utf8Lead? b.toNat with
    | none => .error ⟨.start, offset, b, 1⟩
    | some (value, missing, low, high) =>
      match h : utf8Tail value missing low high bytes with
      | .error (fault, n) => .error ⟨fault, offset, b, n + 1⟩
      | .ok (v, rest) => (decodeUtf8From (offset + missing + 1) rest).map (Char.ofNat v :: ·)
termination_by bytes => bytes.length
decreasing_by
  have := length_le_of_utf8Tail h
  simp only [List.length_cons]
  omega

/-- The text that the bytes encode. -/
def decodeUtf8 (bytes : List UInt8) : Except Utf8Error Text :=
  decodeUtf8From 0 bytes

/-- The text with every line end, in any of its three forms, written as a line feed. -/
def normalizeNewlines : Text → Text
  | [] => []
  | '\r' :: '\n' :: r => '\n' :: normalizeNewlines r
  | c :: r => (if c == '\r' then '\n' else c) :: normalizeNewlines r

end GrammarText
