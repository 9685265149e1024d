import GrammarText.Proofs.Layout.Restoring

/-!
# Clean documents

A document is clean if nothing in it is left open and a layout may bring the tokens of its bodies
together: then all its rules are legible (`Clean.legible`), and trimming leaves their bodies alone
(`Clean.neatBody`).
-/

namespace GrammarText

/-- A document that a layout preserves. -/
structure Clean (source : Text) : Prop where
  /-- Every literal, class and block comment is terminated. -/
  closed : ∀ t ∈ scan .ebnf source, t.isClosed = true
  /-- No body ends inside parentheses. -/
  balanced : ∀ r ∈ documentRules source, depthAfterAll 0 r.body = 0
  /-- No neighbours in a body, whitespace aside, would be read as something else with nothing in between. -/
  apart : ∀ r ∈ documentRules source, keepsApart (dense r.body) = true
  /-- No identifier of a body consists of blanks. -/
  visible : ∀ r ∈ documentRules source, ∀ t ∈ r.body, t.kind = .identifier → t.text.all isBlank = false
  /-- No literal, class or comment of a body holds a blank at the end of a line. -/
  neat : ∀ r ∈ documentRules source, ∀ t ∈ r.body,
    t.kind = .literal ∨ t.kind = .charClass ∨ t.kind = .comment → blankAtLineEnd t.text = false

/-- Two rules, with comments before, between and after the tokens. -/
def commentedRules : Text :=
  "(* sums *)\nexpr ::= term (('+' | \"-\") term)* // left  \n | [0-9]+ /* digits */ | ();\n\nterm::=x;".toList

theorem clean_commentedRules : Clean commentedRules where
  closed := by decide +kernel
  balanced := by decide +kernel
  apart := by decide +kernel
  visible := by decide +kernel
  neat := by decide +kernel

theorem Token.isLone_bare (t : Token) (c : Char) : t.bare.isLone c = t.isLone c := rfl

section Tokens

variable {t : Token}

theorem lexeme_tidy (h : Lexeme .ebnf t.kind t.text) : Lexeme .ebnf t.tidy.kind t.tidy.text := by
  by_cases hc : t.kind = .comment
  · rw [Token.tidy_of_comment hc]
    rw [hc] at h
    simpa only [hc] using lexeme_rstrip h
  · rwa [Token.tidy_of_not_comment hc]

theorem bare_tidy (h : t.bare = t) : t.tidy.bare = t.tidy := by
  rw [← h]
  by_cases hc : t.kind = .comment
  · rw [Token.tidy_of_comment (by simpa using hc)]
    rfl
  · rw [Token.tidy_of_not_comment (by simpa using hc), Token.bare_bare]

/-- Trimming leaves every token alone that is not blank and holds no blank before a line end. -/
theorem neat_tidy (h : Lexeme .ebnf t.kind t.text) (hw : t.kind ≠ .whitespace)
    (hv : t.kind = .identifier → t.text.all isBlank = false)
    (hn : t.kind = .literal ∨ t.kind = .charClass ∨ t.kind = .comment → blankAtLineEnd t.text = false) :
    Neat t.tidy.text := by
  by_cases hc : t.kind = .comment
  · rw [Token.tidy_of_comment hc]
    exact neat_of_blankAtLineEnd (blankAtLineEnd_of_isPrefix (isPrefix_rstrip _) (hn (.inr (.inr hc)))) (getLast?_rstrip _)
  rw [Token.tidy_of_not_comment hc]
  obtain ⟨k, x, p⟩ := t
  simp only at h hw hv hn hc
  have hlast : ∀ {y : Char} {r : Text} {d : Char}, r.getLast? = some d → isBlank d = false →
      ∀ c ∈ (y :: r).getLast?, isBlank c = false := by
    intro y r d hr hd c hc
    cases r with
    | nil => cases hr
    | cons z r =>
      rw [List.getLast?_cons_cons, hr] at hc
      cases hc
      exact hd
  cases h with
  | @literal mark r hm h =>
    have hmb : isBlank mark = false := by
      rcases hm with rfl | rfl <;> decide
    exact neat_of_blankAtLineEnd (hn (.inl rfl)) (hlast (getLast?_of_closesLiteral h) hmb)
  | charClass h =>
    exact neat_of_blankAtLineEnd (hn (.inr (.inl rfl))) (hlast (getLast?_of_closesClass h) (by decide))
  | action hd => cases hd
  | starred | slashed | line => exact absurd rfl hc
  | longOperator h => exact neat_of_forall (operator_not_blank (.longOperator h))
  | shortOperator h => exact neat_of_forall (operator_not_blank (.shortOperator h))
  | word hs h => exact neat_of_forall (word_not_blank hs h)
  | space => exact absurd rfl hw
  | @stray c hc =>
    refine neat_of_forall fun x hx => ?_
    obtain rfl := List.mem_singleton.1 hx
    simpa using hv rfl

end Tokens

namespace Clean

variable {source : Text} {r : Rule}

theorem closed_lexemes (h : Clean source) : ∀ t ∈ lexemes .ebnf source, t.isClosed = true := by
  intro t ht
  obtain ⟨u, hu, rfl⟩ := List.mem_map.1 ht
  exact h.closed u hu

/-- Every rule of a clean document can be read back from its layout. -/
theorem legible (h : Clean source) (hr : r ∈ extract (lexemes .ebnf source)) : r.Legible := by
  have hfound := hr
  rw [← documentRules_bare] at hfound
  obtain ⟨q, hq, hqr⟩ := List.mem_map.1 hfound
  obtain ⟨⟨r', e⟩, hmem, rfl⟩ := List.mem_map.1 hr
  obtain ⟨⟨t, ht, hkind, htext⟩, hbody, hsub⟩ := extractFrom_spec hmem
  subst hqr
  constructor
  · rw [← htext, ← hkind]
    exact lexeme_of_mem_lexemes ht (h.closed_lexemes t ht)
  · intro t ht
    obtain ⟨ht, hw⟩ := mem_dense.1 ht
    have hl := lexeme_of_mem_lexemes (hsub t ht) (h.closed_lexemes t (hsub t ht))
    exact ⟨lexeme_tidy hl, bare_tidy (bare_of_mem_lexemes (hsub t ht)), by simpa using hw⟩
  · rw [Rule.bare, dense_map Token.kind_bare, keepsApart_map Token.isOp_bare Token.isLone_bare]
    exact h.apart q hq
  · exact hbody
  · exact (depthAfterAll_map Token.isOp_bare 0 q.body).trans (h.balanced q hq)
  · exact leadingComment_of_mem h.closed_lexemes (by simp) hmem

/-- Trimming leaves the bodies of a clean document alone. -/
theorem neatBody (h : Clean source) (hr : r ∈ extract (lexemes .ebnf source)) : r.NeatBody := by
  have hfound := hr
  rw [← documentRules_bare] at hfound
  obtain ⟨q, hq, rfl⟩ := List.mem_map.1 hfound
  obtain ⟨⟨r', e⟩, hmem, hqr⟩ := List.mem_map.1 hr
  obtain ⟨-, -, hsub⟩ := extractFrom_spec hmem
  simp only at hqr
  subst hqr
  intro t ht
  obtain ⟨ht, hw⟩ := mem_dense.1 ht
  have hl := lexeme_of_mem_lexemes (hsub t ht) (h.closed_lexemes t (hsub t ht))
  obtain ⟨u, hu, rfl⟩ := List.mem_map.1 ht
  exact neat_tidy hl hw (h.visible q hq u hu) (h.neat q hq u hu)

end Clean

end GrammarText
