import GrammarText.Proofs.Layout.Comments
import GrammarText.Proofs.Layout.Trimmed
import GrammarText.Proofs.Layout.Unclosed

/-!
# Comments with even line ends

`Token.evened` drops the blanks at the line ends of a comment. What trimming makes of a text depends only on its
evened tokens (`trimBlanks_eq_of_evened`): a comment is followed by a line end if it ends in a blank
(`trimBlanks_comment`). The rules of two texts with the same evened tokens differ by such blanks and by nothing else
(`forall₂_documentRules`).
-/

namespace GrammarText

/-- The token at no place in particular, a comment without the blanks at its line ends. -/
def Token.evened (t : Token) : Token :=
  { kind := t.kind, text := if t.kind = .comment then trimBlanks true t.text else t.text }

/-- Rules that differ in the line ends of comments. -/
structure Rule.SameEvened (r r' : Rule) : Prop where
  name : r'.name = r.name
  body : r'.body.map Token.evened = r.body.map Token.evened
  comments : List.Forall₂ SameTrimmed r.comments r'.comments

theorem Rule.SameEvened.symm {r r' : Rule} (h : r.SameEvened r') : r'.SameEvened r where
  name := h.name.symm
  body := h.body.symm
  comments := (h.comments.imp fun _ _ => SameTrimmed.symm).flip

section Token

variable {t t' : Token}

@[simp] theorem Token.kind_evened (t : Token) : t.evened.kind = t.kind := rfl

theorem Token.text_evened_of_comment (h : t.kind = .comment) : t.evened.text = trimBlanks true t.text :=
  if_pos h

theorem Token.evened_of_not_comment (h : t.kind ≠ .comment) : t.evened = t.bare := by
  rw [Token.evened, if_neg h, Token.bare]

theorem Token.text_evened_of_not_comment (h : t.kind ≠ .comment) : t.evened.text = t.text :=
  if_neg h

@[simp] theorem Token.isOp_evened (t : Token) (s : Text) : t.evened.isOp s = t.isOp s := by
  by_cases h : t.kind = .comment
  · rw [isOp_eq_false (by simp [h]), isOp_eq_false (by simp [h])]
  · rw [Token.evened_of_not_comment h, Token.isOp_bare]

theorem kind_of_evened (h : t'.evened = t.evened) : t'.kind = t.kind := by
  rw [← Token.kind_evened t', h, Token.kind_evened]

/-- Tokens other than comments are the same, places aside. -/
theorem bare_of_evened (h : t'.evened = t.evened) (hc : t.kind ≠ .comment) : t'.bare = t.bare := by
  have hc' : t'.kind ≠ .comment := by rwa [kind_of_evened h]
  rwa [Token.evened_of_not_comment hc, Token.evened_of_not_comment hc'] at h

/-- Comments are the same once they are trimmed. -/
theorem trimBlanks_of_evened (h : t'.evened = t.evened) (hc : t.kind = .comment) :
    trimBlanks true t'.text = trimBlanks true t.text := by
  have htext := congrArg Token.text h
  rwa [Token.text_evened_of_comment hc, Token.text_evened_of_comment (by rw [kind_of_evened h, hc])] at htext

end Token

/-! ### Texts -/

section Text

variable {s s' : Text}

/-- A comment ends in no blank, unless it is one that the end of its line closes. -/
theorem trimBlanks_comment {x : Text} {e : Bool} (h : Lexeme .ebnf .comment x) (he : ['/', '/'] <+: x → e = true) :
    trimBlanks e (trimBlanks true x) = trimBlanks e x := by
  have hblock : ∀ {second : Char} {rest : Text} (opening : Text), isBlank second = false →
      closesBlock '*' second rest = true → x = opening ++ rest → trimBlanks e (trimBlanks true x) = trimBlanks e x := by
    rintro second rest opening hb hcl rfl
    have hlast : ∀ c ∈ (opening ++ rest).getLast?, isBlank c = false := by
      rw [List.getLast?_append, getLast?_of_closesBlock hcl]
      simpa using hb
    rw [trimBlanks_of_getLast? hlast true e, trimBlanks_trimBlanks]
  cases h with
  | starred _ h => exact hblock ['(', '*'] (by decide) h rfl
  | slashed h => exact hblock ['/', '*'] (by decide) h rfl
  | @line rest => rw [he ⟨rest, rfl⟩, trimBlanks_trimBlanks]

/-- Trimming a text trims its comments. -/
theorem trimBlanks_spelling_evened (s : Text) :
    trimBlanks true (spelling ((lexemes .ebnf s).map Token.evened)) = trimBlanks true s := by
  generalize hts : lexemes .ebnf s = ts
  induction ts generalizing s with
  | nil =>
    have hs := spelling_lexemes .ebnf s
    rw [hts] at hs
    rw [← hs]
    rfl
  | cons t ts ih =>
    obtain ⟨rest, hrest, hlex, hspec⟩ := lexemes_eq_cons hts
    have hstep : trimBlanks (endsLine true (trimBlanks true rest)) t.evened.text =
        trimBlanks (endsLine true (trimBlanks true rest)) t.text := by
      by_cases hc : t.kind = .comment
      · rw [Token.text_evened_of_comment hc]
        cases hcl : t.isClosed with
        | true =>
          obtain ⟨hcomment, hapart⟩ := hspec hcl
          rw [hc] at hcomment hapart
          refine trimBlanks_comment hcomment fun hp => ?_
          cases rest with
          | nil => rfl
          | cons c rest =>
            obtain rfl : c = '\n' := hapart hp c rfl
            rw [trimBlanks_cons_keep (.inr (.inl rfl))]
            rfl
        | false =>
          obtain ⟨-, htext, -⟩ := unclosed_of_lexemes hts hcl
          obtain rfl : rest = [] := by simpa [htext] using hrest
          exact trimBlanks_trimBlanks true t.text
      · rw [Token.text_evened_of_not_comment hc]
    have hspell : spelling ((t :: ts).map Token.evened) = t.evened.text ++ spelling (ts.map Token.evened) := rfl
    rw [hspell, trimBlanks_append, ih rest hlex.symm, hstep, ← trimBlanks_append, ← hrest]

theorem map_evened_lexemes (s : Text) : (lexemes .ebnf s).map Token.evened = (scan .ebnf s).map Token.evened := by
  rw [lexemes, List.map_map]
  rfl

/-- Trimming makes the same of texts with the same evened tokens. -/
theorem trimBlanks_eq_of_evened (h : (scan .ebnf s').map Token.evened = (scan .ebnf s).map Token.evened) :
    trimBlanks true s' = trimBlanks true s := by
  rw [← trimBlanks_spelling_evened s', ← trimBlanks_spelling_evened s, map_evened_lexemes, map_evened_lexemes, h]

end Text

/-! ### Rules -/

section Rules

variable {s s' : Text}

/-- Lists that are related to the same list. -/
theorem forall₂_common {α β γ : Type} {R : α → γ → Prop} {S : β → γ → Prop} {P : α → β → Prop}
    (hP : ∀ a b c, R a c → S b c → P a b) {as : List α} {bs : List β} {cs : List γ} (h : List.Forall₂ R as cs)
    (h' : List.Forall₂ S bs cs) : List.Forall₂ P as bs := by
  induction h generalizing bs with
  | nil =>
    cases h'
    exact .nil
  | cons ha _ ih =>
    cases h' with
    | cons hb h' => exact .cons (hP _ _ _ ha hb) (ih h')

theorem leadingBlank_map_evened (ts : List Token) : leadingBlank (ts.map Token.evened) = leadingBlank ts := by
  cases ts with
  | nil => rfl
  | cons t ts =>
    by_cases hw : t.kind = .whitespace
    · simp [leadingBlank, hw, Token.text_evened_of_not_comment]
    · simp [leadingBlank, hw]

/-- What is kept of a comment before a rule, evened. -/
theorem sameTrimmed_leading {t : Token} {ts : List Token} (h : t :: ts <:+ scan .ebnf s) (hc : t.kind = .comment)
    (hts : ts ≠ []) :
    SameTrimmed (t.text ++ leadingBlank ts) (t.evened.text ++ leadingBlank (ts.map Token.evened)) := by
  obtain ⟨us, hus⟩ := h
  have hlex : lexemes .ebnf s = us.map Token.bare ++ t.bare :: ts.map Token.bare := by
    rw [lexemes, ← hus, List.map_append, List.map_cons]
  obtain ⟨s', hs'⟩ := lexemes_suffix hlex
  have hne : ts.map Token.bare ≠ [] := by simpa using hts
  have hclosed : t.isClosed = true := by
    cases hcl : t.isClosed with
    | true => rfl
    | false => exact absurd (unclosed_of_lexemes hs'.symm hcl).1 hne
  obtain ⟨hcomment, -, hline⟩ := leadingBlank_of_lexemes_cons hs'.symm hc hclosed hne
  rw [leadingBlank_map_bare, Token.text_bare] at hline
  intro e
  have htrim : trimBlanks (endsLine e (trimBlanks e (leadingBlank ts))) (trimBlanks true t.text) =
      trimBlanks (endsLine e (trimBlanks e (leadingBlank ts))) t.text := by
    refine trimBlanks_comment hcomment fun hp => ?_
    obtain ⟨w, hw⟩ := List.head?_eq_some_iff.1 (hline hp)
    rw [hw, trimBlanks_cons_keep (.inr (.inl rfl))]
    rfl
  rw [leadingBlank_map_evened, Token.text_evened_of_comment hc, trimBlanks_append, trimBlanks_append, htrim]

/-- Rules that become the same differ in the line ends of comments. -/
theorem Rule.Mapped.sameEvened {r r' q : Rule} (h : r.Mapped Token.evened SameTrimmed q)
    (h' : r'.Mapped Token.evened SameTrimmed q) : r.SameEvened r' where
  name := h'.name.symm.trans h.name
  body := h'.body.symm.trans h.body
  comments := forall₂_common (fun _ _ _ h h' => h.trans h'.symm) h.comments h'.comments

/-- Texts with the same evened tokens hold the same rules, up to the line ends of comments. -/
theorem forall₂_documentRules (h : (scan .ebnf s').map Token.evened = (scan .ebnf s).map Token.evened) :
    List.Forall₂ Rule.SameEvened (documentRules s) (documentRules s') := by
  have hmapped : ∀ s, List.Forall₂ (Rule.Mapped Token.evened SameTrimmed) (documentRules s)
      (extract ((scan .ebnf s).map Token.evened)) := by
    intro s
    rw [documentRules, extract, extract, List.forall₂_map_left_iff, List.forall₂_map_right_iff]
    refine List.Forall₂.imp (fun _ _ h => h.1) (forall₂_extractFrom_map Token.kind_evened Token.isOp_evened ?_ .nil)
    exact fun t us => sameTrimmed_leading
  have hs' := hmapped s'
  rw [h] at hs'
  exact forall₂_common (fun _ _ _ h h' => h.sameEvened h') (hmapped s) hs'

end Rules

end GrammarText
