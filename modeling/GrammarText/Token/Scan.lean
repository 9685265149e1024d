import GrammarText.Token.Form

/-!
# Scanning

`scan` cuts a text into tokens. Nothing is refused: a form that is never closed takes the rest of the
text, and a character that fits no form is an identifier of its own.

## Main statements

* `spelling_scan`: the tokens together spell the text.
* `text_ne_nil_of_mem_scanFrom`: no token is empty.
-/

namespace GrammarText

/-- The tokens of a text that begins at the place `p`. -/
def scanFrom (d : Dialect) (p : Position) : Text → List Token
  | [] => []
  | c :: rest =>
    let f := form d c rest
    let text := (c :: rest).take f.2
    ⟨f.1, text, p⟩ :: scanFrom d (p.advance text) ((c :: rest).drop f.2)
termination_by t => t.length
decreasing_by
  have := form_pos d c rest
  simp only [List.length_drop, List.length_cons]
  omega

/-- The tokens of a text. -/
def scan (d : Dialect) (t : Text) : List Token :=
  scanFrom d {} t

@[simp] theorem scanFrom_nil (d : Dialect) (p : Position) : scanFrom d p [] = [] := by
  rw [scanFrom]

theorem scanFrom_cons (d : Dialect) (p : Position) (c : Char) (rest : Text) :
    scanFrom d p (c :: rest) =
      ⟨(form d c rest).1, (c :: rest).take (form d c rest).2, p⟩ ::
        scanFrom d (p.advance ((c :: rest).take (form d c rest).2)) ((c :: rest).drop (form d c rest).2) := by
  rw [scanFrom]

theorem spelling_scanFrom (d : Dialect) (p : Position) (t : Text) : spelling (scanFrom d p t) = t := by
  fun_induction scanFrom d p t with
  | case1 => rfl
  | case2 p c rest f text ih =>
    rw [spelling] at ih ⊢
    rw [List.flatMap_cons, ih]
    exact List.take_append_drop _ _

/-- Scanning loses nothing. -/
theorem spelling_scan (d : Dialect) (t : Text) : spelling (scan d t) = t :=
  spelling_scanFrom d {} t

/-- Every token has a text. -/
theorem text_ne_nil_of_mem_scanFrom {d : Dialect} {p : Position} {t : Text} {k : Token}
    (h : k ∈ scanFrom d p t) : k.text ≠ [] := by
  fun_induction scanFrom d p t with
  | case1 => cases h
  | case2 p c rest f text ih =>
    rcases List.mem_cons.1 h with rfl | h
    · have hpos : 0 < f.2 := form_pos d c rest
      intro hnil
      have hlen : ((c :: rest).take f.2).length = 0 := congrArg List.length hnil
      simp only [List.length_take, List.length_cons] at hlen
      omega
    · exact ih h

end GrammarText
