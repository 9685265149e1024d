import GrammarText.Proofs.Layout.Groups
import GrammarText.Proofs.Layout.Thinning
import GrammarText.Proofs.Rule.Leading

/-!
# Trimmed comments

A comment stays a comment when blanks are taken from its end (`lexeme_rstrip`) or from the ends of all its
lines (`lexeme_trimBlanks`). The entries among the comments before a rule, trimmed, are such entries
again (`LeadingComment.trim`).
-/

namespace GrammarText

/-! ### Blanks and the scanner's characters -/

/-- The code points below the first blank beyond ASCII that are blank. -/
theorem isBlank_iff_of_lt {c : Char} (h : c.toNat < 0x85) :
    isBlank c = true ↔ (0x09 ≤ c.toNat ∧ c.toNat ≤ 0x0d) ∨ (0x1c ≤ c.toNat ∧ c.toNat ≤ 0x20) := by
  simp only [isBlank, blankRuns, inRuns]
  split
  · split
    · rw [if_neg (by omega), decide_eq_true_eq]
      omega
    · rw [decide_eq_true_eq]
      omega
  · rw [decide_eq_true_eq]
    omega

theorem isBlank_of_isNamePart {c : Char} (h : isNamePart c = true) : isBlank c = false := by
  have hn : c.toNat = 95 ∨ (65 ≤ c.toNat ∧ c.toNat ≤ 90) ∨ (97 ≤ c.toNat ∧ c.toNat ≤ 122) ∨
      (48 ≤ c.toNat ∧ c.toNat ≤ 57) := by
    rw [isNamePart, isNameStart, Bool.or_eq_true, Bool.or_eq_true, beq_iff_eq, isAlpha_iff, isDigit_iff] at h
    rcases h with (rfl | h | h) | h
    · exact .inl rfl
    · exact .inr (.inl h)
    · exact .inr (.inr (.inl h))
    · exact .inr (.inr (.inr h))
  rw [Bool.eq_false_iff, ne_eq, isBlank_iff_of_lt (by omega)]
  omega

/-- Operators hold no blank. -/
theorem operator_not_blank {x : Text} (h : Lexeme .ebnf .operator x) : ∀ y ∈ x, isBlank y = false := by
  cases h with
  | longOperator h =>
    have hall : ∀ op ∈ Dialect.ebnf.longOperators, ∀ y ∈ op, isBlank y = false := by
      simp [Dialect.longOperators]
      decide
    exact hall x h
  | @shortOperator c h =>
    have hall : ∀ y ∈ Dialect.ebnf.shortOperators, isBlank y = false := by
      simp [Dialect.shortOperators]
      decide
    simpa using hall c h

/-- Words hold no blank. -/
theorem word_not_blank {c : Char} {r : Text} (hc : isNameStart c = true) (hr : ∀ x ∈ r, isNamePart x = true) :
    ∀ y ∈ c :: r, isBlank y = false := by
  intro y hy
  apply isBlank_of_isNamePart
  rcases List.mem_cons.1 hy with rfl | hy
  · rw [isNamePart, hc, Bool.true_or]
  · exact hr y hy

/-! ### How delimited forms end -/

/-- The last character of a delimited form is the one that closes it, in a state as the reader has it
before it is closed. -/
theorem getLast?_of_closesAtEnd {σ : Type} {step : σ → Char → σ} {closed : σ → Bool} {P : σ → Prop} {s : σ} {r : Text}
    (hstep : ∀ s c, P s → closed (step s c) = false → P (step s c)) (hs : P s)
    (h : closesAtEnd step closed s r = true) : ∃ s' c, P s' ∧ r.getLast? = some c ∧ closed (step s' c) = true := by
  induction r generalizing s with
  | nil => cases h
  | cons c r ih =>
    rw [closesAtEnd] at h
    split at h
    · rename_i hcl
      exact ⟨s, c, hs, by rw [List.isEmpty_iff.1 h, List.getLast?_singleton], hcl⟩
    · rename_i hcl
      obtain ⟨s', d, hs', hlast, hd⟩ := ih (hstep s c hs (by simpa using hcl)) h
      refine ⟨s', d, hs', ?_, hd⟩
      cases r with
      | nil => cases hlast
      | cons x r => rwa [List.getLast?_cons_cons]

/-- A literal ends in its mark. -/
theorem getLast?_of_closesLiteral {mark : Char} {r : Text} (h : closesLiteral mark r = true) :
    r.getLast? = some mark := by
  obtain ⟨s, c, hs, hlast, hcl⟩ := getLast?_of_closesAtEnd (P := (· ≠ LiteralState.closed))
    (fun s c _ hcl => by simpa using hcl) (by simp) h
  rw [hlast]
  cases s with
  | inside =>
    simp only [LiteralState.step, beq_iff_eq] at hcl
    split at hcl
    · cases hcl
    · split at hcl
      · rename_i hc
        rw [hc]
      · cases hcl
  | escape => cases hcl
  | closed => exact absurd rfl hs

/-- A character class ends in a bracket. -/
theorem getLast?_of_closesClass {r : Text} (h : closesClass r = true) : r.getLast? = some ']' := by
  obtain ⟨s, c, hs, hlast, hcl⟩ := getLast?_of_closesAtEnd (P := fun s : ClassState => s.depth ≠ 0)
    (fun s c _ hcl => by simpa using hcl) (by simp) h
  rw [hlast]
  simp only [ClassState.step, beq_iff_eq] at hcl
  split at hcl
  · exact absurd hcl hs
  split at hcl
  · exact absurd hcl hs
  split at hcl
  · cases hcl
  split at hcl
  · rename_i hc
    rw [hc]
  · exact absurd hcl hs

/-- A block comment ends in the second sign of its closing mark. -/
theorem getLast?_of_closesBlock {first second : Char} {r : Text} (h : closesBlock first second r = true) :
    r.getLast? = some second := by
  obtain ⟨s, c, hs, hlast, hcl⟩ := getLast?_of_closesAtEnd (P := (· ≠ BlockState.closed))
    (fun s c _ hcl => by simpa using hcl) (by simp) h
  rw [hlast]
  cases s with
  | inside =>
    simp only [BlockState.step, beq_iff_eq] at hcl
    split at hcl <;> cases hcl
  | half =>
    simp only [BlockState.step, beq_iff_eq] at hcl
    split at hcl
    · rename_i hc
      rw [hc]
    · split at hcl <;> cases hcl
  | closed => exact absurd rfl hs

/-! ### Comments -/

/-- A comment without the blanks at its end is a comment. -/
theorem lexeme_rstrip {t : Text} (h : Lexeme .ebnf .comment t) : Lexeme .ebnf .comment (rstrip t) :=
  (h.thin (.inr (.inr rfl)) (thin_rstrip t)).1

/-- A comment without the blanks at the ends of its lines is a comment, of the same form. -/
theorem lexeme_trimBlanks {t : Text} (h : Lexeme .ebnf .comment t) (e : Bool) :
    Lexeme .ebnf .comment (trimBlanks e t) ∧ (['/', '/'] <+: trimBlanks e t → ['/', '/'] <+: t) :=
  h.thin (.inr (.inr rfl)) (@thin_trimBlanks e [] (by simp) t)

/-- An entry among the comments before a rule stays one when its line ends are trimmed. -/
theorem LeadingComment.trim {x : Text} (h : LeadingComment x) : LeadingComment (trimBlanks false x) := by
  obtain ⟨c, w, rfl, hc, hw, hline⟩ := h
  obtain ⟨hc', hline'⟩ := lexeme_trimBlanks hc (endsLine false (trimBlanks false w))
  refine ⟨_, _, trimBlanks_append false c w, hc', fun y hy => hw y ((trimBlanks_sublist _ w).subset hy), fun hp => ?_⟩
  obtain ⟨w', rfl⟩ := List.head?_eq_some_iff.1 (hline (hline' hp))
  rw [trimBlanks_cons_keep (.inr (.inl rfl)), List.head?_cons]

/-- Trimming the comments before a rule trims each of them. -/
theorem trimBlanks_flatten {cs : List Text} (h : ∀ x ∈ cs, LeadingComment x) :
    trimBlanks false cs.flatten = (cs.map (trimBlanks false)).flatten := by
  induction cs with
  | nil => rfl
  | cons x cs ih =>
    have ih' := ih fun y hy => h y (List.mem_cons_of_mem _ hy)
    have hends : endsLine false (cs.map (trimBlanks false)).flatten = false := by
      cases cs with
      | nil => rfl
      | cons y cs =>
        obtain ⟨c, r, hy, hc⟩ := (h y (by simp)).trim.head
        rw [List.map_cons, List.flatten_cons, hy]
        rcases hc with rfl | rfl <;> rfl
    rw [List.flatten_cons, trimBlanks_append, ih', hends, List.map_cons, List.flatten_cons]

end GrammarText
