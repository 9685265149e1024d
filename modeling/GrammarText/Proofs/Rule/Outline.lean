import GrammarText.Proofs.Layout.Quiet
import GrammarText.Proofs.Rule.Insertion
import GrammarText.Proofs.Scan.Seam

/-!
# The outline of a document

Which rules are found in a document, their names and what their bodies say are told by its tokens without whitespace
and without what comments say (`grammar_of_outline`): a comment counts only by where it stands. A text whose tokens
are closed keeps its outline in front of a line feed, whatever follows (`outline_append_newline`).
-/

namespace GrammarText

/-! ### What comments say -/

/-- The token, a comment without what it says. -/
def Token.muted (t : Token) : Token :=
  if t.kind = .comment then { t with text := [] } else t

section Muted

variable {t : Token} {ts : List Token}

@[simp] theorem Token.kind_muted (t : Token) : t.muted.kind = t.kind := by
  unfold Token.muted
  split <;> rfl

theorem Token.muted_of_ne (h : t.kind ≠ .comment) : t.muted = t :=
  if_neg h

@[simp] theorem Token.isOp_muted (t : Token) (s : Text) : t.muted.isOp s = t.isOp s := by
  by_cases h : t.kind = .comment
  · rw [isOp_eq_false (by simp [h]), isOp_eq_false (by simp [h])]
  · rw [Token.muted_of_ne h]

theorem significant_map_muted (ts : List Token) : significant (ts.map Token.muted) = significant ts := by
  have htrivia : (fun t : Token => !t.isTrivia) ∘ Token.muted = fun t => !t.isTrivia := by
    funext t
    simp [Token.isTrivia]
  have hkept : ∀ t ∈ ts.filter fun t => !t.isTrivia, t.muted = t := by
    intro t ht
    refine Token.muted_of_ne fun hc => ?_
    simp [Token.isTrivia, hc] at ht
  rw [significant, List.filter_map, htrivia, List.map_congr_left hkept, List.map_id']
  rfl

/-- What comments say plays no part in which rules are found. -/
theorem map_grammar_extract_map_muted (ts : List Token) :
    (extract (ts.map Token.muted)).map Rule.grammar = (extract ts).map Rule.grammar := by
  have hmapped : List.Forall₂ (fun r r' => r.1.Mapped Token.muted (fun _ _ => True) r'.1 ∧ r'.2 = r.2)
      (extractFrom [] ts) (extractFrom [] (ts.map Token.muted)) :=
    forall₂_extractFrom_map Token.kind_muted Token.isOp_muted (fun _ _ _ _ _ => trivial) .nil
  have hgrammar : List.Forall₂ (fun r r' => r'.1.grammar = r.1.grammar) (extractFrom [] ts)
      (extractFrom [] (ts.map Token.muted)) := by
    refine hmapped.imp ?_
    rintro r r' ⟨⟨hname, hbody, -, -⟩, -⟩
    have hn : r'.1.name = r.1.name := hname.trans (by rw [Token.muted_of_ne (by simp [Rule.nameToken])]; rfl)
    rw [Rule.grammar, Rule.grammar, hn, hbody, significant_map_muted]
  rw [extract, extract, List.map_map, List.map_map, ← List.forall₂_eq_eq_eq, List.forall₂_map_left_iff,
    List.forall₂_map_right_iff]
  exact hgrammar.flip

/-- Whitespace plays no part in which rules are found. -/
theorem map_grammar_extract_dense (ts : List Token) : (extract (dense ts)).map Rule.grammar = (extract ts).map Rule.grammar := by
  have hview := map_view_of_dense_eq (dense_dense ts) [] []
  have hgrammar : ∀ us : List Token, (extract us).map Rule.grammar =
      ((extractFrom [] us).map (view (·.kind != .whitespace))).map fun v => (v.1, (significant v.2.1).map Token.sign) := by
    intro us
    rw [extract, List.map_map, List.map_map]
    refine List.map_congr_left fun r _ => ?_
    have hbody : significant (r.1.body.filter (·.kind != .whitespace)) = significant r.1.body := by
      rw [significant, significant, List.filter_filter]
      refine List.filter_congr fun t _ => ?_
      cases ht : t.kind <;> simp [Token.isTrivia, ht]
    simp only [Function.comp_apply, view, Rule.grammar, hbody]
  rw [hgrammar, hgrammar, hview]

end Muted

/-- The tokens of a text without whitespace and without what comments say. -/
def outline (s : Text) : List Token :=
  (dense (lexemes .ebnf s)).map Token.muted

/-- The rules of a document are told by its outline. -/
theorem grammar_of_outline {s s' : Text} (h : outline s = outline s') :
    (documentRules s).map Rule.grammar = (documentRules s').map Rule.grammar := by
  have houtline : ∀ s, (documentRules s).map Rule.grammar = (extract (outline s)).map Rule.grammar := by
    intro s
    rw [outline, map_grammar_extract_map_muted, map_grammar_extract_dense, map_grammar_documentRules]
  rw [houtline, houtline, h]

/-! ### Outlines of lines -/

section Lines

variable {s p t : Text}

theorem outline_newline (s : Text) : outline ('\n' :: s) = outline s :=
  congrArg (List.map Token.muted) (@dense_lexemes_spaces ['\n'] (by simp [isSpace]) s).1

theorem prefix_of_not_space {c : Char} (hp : ∀ x ∈ p, isSpace x = false) (hc : isSpace c = true)
    (h : p <+: s ++ c :: t) : p <+: s := by
  rcases List.prefix_or_prefix_of_prefix h (List.prefix_append s (c :: t)) with hps | ⟨r, rfl⟩
  · exact hps
  · cases r with
    | nil => simp
    | cons x r =>
      -- the character behind `s` is one of `p`
      obtain ⟨rfl, -⟩ := List.cons_prefix_cons.1 ((List.prefix_append_right_inj s).1 h)
      have hx := hp x (by simp)
      rw [hc] at hx
      cases hx

/-- A token stands apart from what followed it also if a line feed and more comes behind that. -/
theorem apart_newline {k : TokenKind} {x rest : Text} (hl : Lexeme .ebnf k x) (hk : k ≠ .whitespace)
    (h : Apart .ebnf k x rest) (s : Text) : Apart .ebnf k x (rest ++ '\n' :: s) := by
  have hword : k = .operator ∨ k = .identifier → Apart .ebnf k x (rest ++ '\n' :: s) := fun hk =>
    h.of_isPrefix hl hk fun p hp hpre => prefix_of_not_space hp (by decide) hpre
  cases k with
  | whitespace => exact absurd rfl hk
  | operator => exact hword (.inl rfl)
  | identifier => exact hword (.inr rfl)
  | comment =>
    intro hline c hc
    cases rest with
    | nil => simpa using hc.symm
    | cons d rest => exact h hline c hc
  | literal | charClass | action => trivial

/-- A text whose tokens are closed is scanned alone in front of a line feed. -/
theorem dense_lexemes_append_newline (hcl : ∀ t ∈ lexemes .ebnf p, t.isClosed = true) (s : Text) :
    dense (lexemes .ebnf (p ++ '\n' :: s)) = dense (lexemes .ebnf p) ++ dense (lexemes .ebnf s) := by
  generalize hts : lexemes .ebnf p = ts at hcl
  induction ts generalizing p with
  | nil =>
    have hnil : p = [] := by
      have hspell := spelling_lexemes .ebnf p
      rw [hts] at hspell
      exact hspell.symm
    rw [hnil, dense_nil, List.nil_append, List.nil_append]
    exact (@dense_lexemes_spaces ['\n'] (by simp [isSpace]) s).1
  | cons t ts ih =>
    obtain ⟨rest, rfl, hrest, hspec⟩ := lexemes_eq_cons hts
    obtain ⟨hl, hap⟩ := hspec (hcl t List.mem_cons_self)
    have hnext := ih hrest.symm fun u hu => hcl u (List.mem_cons_of_mem _ hu)
    rw [List.append_assoc]
    by_cases hk : t.kind = .whitespace
    · rw [hk] at hl
      rw [(dense_lexemes_spaces (isSpace_of_mem_whitespace hl) _).1, hnext, dense_cons_whitespace hk]
    · have hbare : (⟨t.kind, t.text, {}⟩ : Token) = t := bare_of_mem_lexemes (hts ▸ List.mem_cons_self)
      rw [lexemes_append hl (apart_newline hl hk hap s), hbare, dense_cons hk, hnext, dense_cons hk, List.cons_append]

theorem outline_append_newline (hcl : ∀ t ∈ lexemes .ebnf p, t.isClosed = true) (s : Text) :
    outline (p ++ '\n' :: s) = outline p ++ outline s := by
  rw [outline, dense_lexemes_append_newline hcl, List.map_append]
  rfl

end Lines

end GrammarText
