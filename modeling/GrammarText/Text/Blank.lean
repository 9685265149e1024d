import GrammarText.Text.CodePoints

/-!
# Blank characters

Blanks are the characters that trimming removes: the Unicode white space together with the four ASCII
information separators. `rstrip_eq_self_iff` says which texts a trim leaves alone.
-/

namespace GrammarText

/-- The runs of code points that are blank. -/
def blankRuns : List (Nat × Nat) :=
  [(0x09, 0x0d), (0x1c, 0x20), (0x85, 0x85), (0xa0, 0xa0), (0x1680, 0x1680), (0x2000, 0x200a),
   (0x2028, 0x2029), (0x202f, 0x202f), (0x205f, 0x205f), (0x3000, 0x3000)]

/-- A character that trimming removes. -/
def isBlank (c : Char) : Bool :=
  inRuns blankRuns c.toNat

/-- The text without its leading blanks. -/
def lstrip (t : Text) : Text :=
  t.dropWhile isBlank

/-- The text without its trailing blanks. -/
def rstrip : Text → Text
  | [] => []
  | c :: r =>
    match rstrip r with
    | [] => if isBlank c then [] else [c]
    | s => c :: s

/-- The text without the blanks at both ends. -/
def strip (t : Text) : Text :=
  rstrip (lstrip t)

@[simp] theorem rstrip_nil : rstrip [] = [] := rfl

theorem rstrip_cons (c : Char) (r : Text) :
    rstrip (c :: r) = if rstrip r = [] ∧ isBlank c = true then [] else c :: rstrip r := by
  rw [rstrip]
  split <;> rename_i h
  · by_cases hc : isBlank c = true <;> simp [h, hc]
  · rw [if_neg fun hb => h hb.1]

/-- Trimming leaves a text alone exactly when it does not end in a blank. -/
theorem rstrip_eq_self_iff {t : Text} :
    rstrip t = t ↔ ∀ c, t.getLast? = some c → isBlank c = false := by
  induction t with
  | nil => simp
  | cons c r ih =>
    rw [rstrip_cons]
    cases r with
    | nil => cases hc : isBlank c <;> simp [hc]
    | cons d s =>
      rw [List.getLast?_cons_cons, ← ih]
      split
      · rename_i h
        simp [h.1]
      · simp

example : strip [' ', 'a', ' ', 'b', '\n'] = ['a', ' ', 'b'] := by decide

end GrammarText
