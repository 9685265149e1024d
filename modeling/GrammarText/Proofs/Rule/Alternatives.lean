import GrammarText.Proofs.Rule.Body
import GrammarText.Proofs.Scan.Lexeme
import GrammarText.Proofs.Text.Lines

/-!
# Alternatives and their content

Splitting a body at its bars looks at operators only: it commutes with dropping whitespace
(`map_dense_splitBars`) and with any change to other tokens (`splitBars_map`), and putting bars back
between the pieces undoes it (`intercalate_splitBars`). The content of a rule is what a layout may not
change.
-/

namespace GrammarText

/-! ### Splitting at bars -/

theorem splitBars_ne_nil (depth : Nat) (ts : List Token) : splitBars depth ts ≠ [] := by
  induction ts generalizing depth with
  | nil => exact List.cons_ne_nil _ _
  | cons t ts ih =>
    rw [splitBars]
    split
    · exact List.cons_ne_nil _ _
    · simpa using ih _

/-- The pieces of a non-empty sequence, as its first token sees them. -/
theorem splitBars_cons_of_not_bar {depth : Nat} {t : Token} (ts : List Token)
    (h : ¬(t.isOp ['|'] = true ∧ depth = 0)) :
    ∃ p ps, splitBars (depthAfter depth t) ts = p :: ps ∧ splitBars depth (t :: ts) = (t :: p) :: ps := by
  obtain ⟨p, ps, hp⟩ := List.exists_cons_of_ne_nil (splitBars_ne_nil (depthAfter depth t) ts)
  refine ⟨p, ps, hp, ?_⟩
  rw [splitBars, if_neg h, hp]
  rfl

/-- Whitespace does not take part in splitting. -/
theorem map_dense_splitBars (depth : Nat) (ts : List Token) :
    (splitBars depth ts).map dense = splitBars depth (dense ts) := by
  induction ts generalizing depth with
  | nil => rfl
  | cons t ts ih =>
    by_cases hb : t.isOp ['|'] = true ∧ depth = 0
    · have ht : t.kind ≠ .whitespace := by
        rintro hk
        simp [isOp_eq_false (show t.kind ≠ .operator by simp [hk])] at hb
      rw [splitBars, if_pos hb, List.map_cons, ih, dense_cons ht, splitBars, if_pos hb]
      rfl
    · obtain ⟨p, ps, hp, hps⟩ := splitBars_cons_of_not_bar ts hb
      have ih' := ih (depthAfter depth t)
      rw [hp, List.map_cons] at ih'
      rw [hps, List.map_cons]
      by_cases ht : t.kind = .whitespace
      · rw [dense_cons_whitespace ht, dense_cons_whitespace ht, ih',
          depthAfter_of_not_operator (by simp [ht])]
      · rw [dense_cons ht, dense_cons ht, splitBars, if_neg hb, ← ih']
        rfl

/-- A change to tokens other than operators does not change where they are split. -/
theorem splitBars_map {f : Token → Token} (ho : ∀ t s, (f t).isOp s = t.isOp s) (depth : Nat)
    (ts : List Token) : splitBars depth (ts.map f) = (splitBars depth ts).map (List.map f) := by
  induction ts generalizing depth with
  | nil => rfl
  | cons t ts ih =>
    have hd : depthAfter depth (f t) = depthAfter depth t := by
      simp [depthAfter, ho]
    rw [List.map_cons, splitBars, splitBars, ho, hd, ih, ih]
    split
    · rfl
    · cases splitBars (depthAfter depth t) ts <;> rfl

/-- The bar between alternatives. -/
def barToken : Token :=
  ⟨.operator, ['|'], {}⟩

theorem eq_barToken {t : Token} (hb : t.bare = t) (h : t.isOp ['|'] = true) : t = barToken := by
  obtain ⟨hk, ht⟩ : t.kind = .operator ∧ t.text = ['|'] := by simpa [Token.isOp] using h
  rw [← hb, Token.bare, barToken, hk, ht]

/-- Bars between the pieces give back what was split. -/
theorem intercalate_splitBars {ts : List Token} (h : ∀ t ∈ ts, t.bare = t) (depth : Nat) :
    [barToken].intercalate (splitBars depth ts) = ts := by
  induction ts generalizing depth with
  | nil => rfl
  | cons t ts ih =>
    have ih' := ih fun u hu => h u (List.mem_cons_of_mem _ hu)
    by_cases hb : t.isOp ['|'] = true ∧ depth = 0
    · rw [splitBars, if_pos hb, List.intercalate_cons_of_ne_nil (splitBars_ne_nil _ _), ih',
        eq_barToken (h t List.mem_cons_self) hb.1]
      rfl
    · obtain ⟨p, ps, hp, hps⟩ := splitBars_cons_of_not_bar ts hb
      rw [hps, List.intercalate_cons_cons_left, ← hp, ih']

/-- Every piece is a stretch of what was split. -/
theorem infix_of_mem_splitBars {depth : Nat} {ts p : List Token} (hp : p ∈ splitBars depth ts) : p <:+: ts := by
  have hfirst : ∀ (ts : List Token) (depth : Nat), ∃ q qs, splitBars depth ts = q :: qs ∧ q <+: ts ∧
      ∀ q' ∈ qs, q' <:+: ts := by
    intro ts
    induction ts with
    | nil => exact fun _ => ⟨[], [], rfl, List.nil_prefix, by simp⟩
    | cons u ts ih =>
      intro depth
      by_cases hb : u.isOp ['|'] = true ∧ depth = 0
      · obtain ⟨q, qs, hq, hpre, hinf⟩ := ih 0
        refine ⟨[], q :: qs, by rw [splitBars, if_pos hb, hq], List.nil_prefix, fun q' hq' => ?_⟩
        rcases List.mem_cons.1 hq' with rfl | hq'
        · exact List.infix_cons hpre.isInfix
        · exact List.infix_cons (hinf q' hq')
      · obtain ⟨q, qs, hq, hqs⟩ := splitBars_cons_of_not_bar ts hb
        obtain ⟨q₁, qs₁, hq₁, hpre, hinf⟩ := ih (depthAfter depth u)
        rw [hq] at hq₁
        cases hq₁
        exact ⟨u :: q, qs, hqs, List.cons_prefix_cons.2 ⟨rfl, hpre⟩, fun q' hq' => List.infix_cons (hinf q' hq')⟩
  obtain ⟨q, qs, hq, hpre, hinf⟩ := hfirst ts depth
  rw [hq] at hp
  rcases List.mem_cons.1 hp with rfl | hp
  · exact hpre.isInfix
  · exact hinf p hp

theorem map_tokens_alternatives (body : List Token) : (alternatives body).map Alternative.tokens = splitBars 0 body := by
  rw [alternatives, List.map_map]
  exact List.zipIdx_map_fst 0 _

/-- What holds of all alternatives is said of the pieces of the body. -/
theorem forall_alternatives {body : List Token} {p : List Token → Prop} :
    (∀ a ∈ alternatives body, p a.tokens) ↔ ∀ piece ∈ splitBars 0 body, p piece := by
  rw [← map_tokens_alternatives, List.forall_mem_map]

/-! ### Content -/

/-- The class and the text of a token. -/
def Token.sign (t : Token) : TokenKind × Text :=
  (t.kind, t.text)

/-- Tokens agree in class and text exactly if they are the same apart from their places. -/
theorem map_sign_eq_iff {ts us : List Token} : ts.map Token.sign = us.map Token.sign ↔ ts.map Token.bare = us.map Token.bare := by
  have hbare : Token.bare = (fun s : TokenKind × Text => (⟨s.1, s.2, {}⟩ : Token)) ∘ Token.sign := rfl
  have hsign : Token.sign = Token.sign ∘ Token.bare := rfl
  constructor
  · intro h
    rw [hbare, ← List.map_map, ← List.map_map, h]
  · intro h
    rw [hsign, ← List.map_map, ← List.map_map, h]

theorem significant_map_bare (ts : List Token) : significant (ts.map Token.bare) = (significant ts).map Token.bare := by
  rw [significant, significant, List.filter_map]
  rfl

/-- The significant tokens of two texts agree in class and text exactly if they are the same apart from their places. -/
theorem map_sign_significant_iff {d : Dialect} {s s' : Text} :
    (significant (scan d s)).map Token.sign = (significant (scan d s')).map Token.sign ↔
      significant (lexemes d s) = significant (lexemes d s') := by
  rw [map_sign_eq_iff, lexemes, lexemes, significant_map_bare, significant_map_bare]

/-- The comments among the tokens, without the blanks at their ends. -/
def commentTexts (ts : List Token) : List Text :=
  (ts.filter (·.kind == .comment)).map fun t => rstrip t.text

/-- What a branch says: its significant tokens, and its comments without the blanks at their ends. -/
def Alternative.content (a : Alternative) : List (TokenKind × Text) × List Text :=
  (a.significant.map Token.sign, commentTexts a.tokens)

/-- What a rule says: its name and what its alternatives say. -/
def Rule.content (r : Rule) : Text × List (List (TokenKind × Text) × List Text) :=
  (r.name, r.alternatives.map Alternative.content)

end GrammarText
