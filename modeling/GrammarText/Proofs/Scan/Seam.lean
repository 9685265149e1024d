import GrammarText.Proofs.Scan.Boundary
import GrammarText.Proofs.Scan.Closing

/-!
# Scanning beyond a cut

In ANTLR a sign is told from what begins like it by one more character. So what may follow a token there is a matter
of the first character that does (`Apart.of_head?`), and the first tokens of a text come again in front of every
text that the last of them stands apart from (`lexemes_spelling_append`).
-/

namespace GrammarText

section Seam

variable {k : TokenKind} {t s s' r : Text} {u : Token} {ts us : List Token}

theorem spelling_append (ts us : List Token) : spelling (ts ++ us) = spelling ts ++ spelling us :=
  List.flatMap_append

theorem pair_prefix_append_iff {x y : Char} (ht : t ≠ []) (h : s'.head? = s.head?) :
    [x, y] <+: t ++ s' ↔ [x, y] <+: t ++ s := by
  have hsingle : ∀ z : Text, [y] <+: z ↔ z.head? = some y := by
    intro z
    cases z <;> simp [eq_comm]
  match t, ht with
  | [c], _ =>
    rw [List.singleton_append, List.singleton_append, List.cons_prefix_cons, List.cons_prefix_cons, hsingle, hsingle, h]
  | c :: d :: t, _ => simp [List.cons_prefix_cons]

theorem KeepsSign.of_head? (ht : t ≠ []) (hs : s'.head? = s.head?) (h : KeepsSign .antlr t s) : KeepsSign .antlr t s' := by
  constructor
  · have hnone := h.1
    simp only [commentForm?, List.isPrefixOf_iff_prefix] at hnone ⊢
    simpa only [pair_prefix_append_iff ht hs] using hnone
  · intro op hop hp
    have hpair : ∃ x y, op = [x, y] := by
      simp only [Dialect.longOperators, List.mem_cons, List.not_mem_nil, or_false] at hop
      rcases hop with rfl | rfl | rfl | rfl <;> exact ⟨_, _, rfl⟩
    obtain ⟨x, y, rfl⟩ := hpair
    exact h.2 _ hop ((pair_prefix_append_iff ht hs).1 hp)

/-- Whether a token ends where it does is seen from the first character behind it. -/
theorem Apart.of_head? (ht : t ≠ []) (hs : s'.head? = s.head?) (h : Apart .antlr k t s) : Apart .antlr k t s' := by
  cases k with
  | whitespace => exact fun x hx => h x (hs ▸ hx)
  | comment => exact fun hline x hx => h hline x (hs ▸ hx)
  | operator => exact KeepsSign.of_head? ht hs h
  | identifier => exact ⟨KeepsSign.of_head? ht hs h.1, fun hword x hx => h.2 hword x (hs ▸ hx)⟩
  | literal | charClass | action => trivial

/-- A token with more tokens behind it is complete, and stands apart from them. -/
theorem lexeme_of_lexemes_append {d : Dialect} (h : lexemes d s = u :: ts) (hts : ts ≠ []) :
    Lexeme d u.kind u.text ∧ Apart d u.kind u.text (spelling ts) := by
  obtain ⟨rest, -, rfl, hlexeme⟩ := lexemes_eq_cons h
  rw [spelling_lexemes]
  cases hcl : u.isClosed with
  | true => exact hlexeme hcl
  | false => exact absurd (eq_nil_of_not_isClosed h hcl).2 hts

/-- The first tokens of a text come again in front of every text that the last of them stands apart from. -/
theorem lexemes_spelling_append (h : lexemes .antlr s = ts ++ us) (hus : us ≠ [])
    (hr : ∀ t ∈ ts.getLast?, Apart .antlr t.kind t.text r) :
    lexemes .antlr (spelling ts ++ r) = ts ++ lexemes .antlr r := by
  induction ts generalizing s with
  | nil => rfl
  | cons t ts ih =>
    obtain ⟨hl, ha⟩ := lexeme_of_lexemes_append h (by simp [hus])
    obtain ⟨ahead, rfl, hts, -⟩ := lexemes_eq_cons h
    have hmem : t ∈ lexemes .antlr (t.text ++ ahead) := by
      rw [h]
      exact List.mem_cons_self
    have hnext : Apart .antlr t.kind t.text (spelling ts ++ r) := by
      cases ts with
      | nil => exact hr t rfl
      | cons v ts =>
        have hv : v.text ≠ [] := (lexeme_of_lexemes_append hts.symm (by simp [hus])).1.ne_nil
        refine ha.of_head? hl.ne_nil ?_
        obtain ⟨c, w, hw⟩ := List.exists_cons_of_ne_nil hv
        simp [spelling, hw]
    have hrest : ∀ u ∈ ts.getLast?, Apart .antlr u.kind u.text r := by
      cases ts with
      | nil => simp
      | cons v ts => exact hr
    change lexemes .antlr (t.text ++ spelling ts ++ r) = t :: (ts ++ lexemes .antlr r)
    rw [List.append_assoc, lexemes_append hl hnext, ih hts.symm hrest]
    exact congrArg (· :: (ts ++ lexemes .antlr r)) (bare_of_mem_lexemes hmem)

/-- The first tokens of a text come again in front of every text that begins like the rest. -/
theorem lexemes_spelling_append_of_head? (h : lexemes .antlr s = ts ++ us) (hus : us ≠ [])
    (hr : r.head? = (spelling us).head?) : lexemes .antlr (spelling ts ++ r) = ts ++ lexemes .antlr r := by
  refine lexemes_spelling_append h hus fun t ht => ?_
  obtain ⟨ts', rfl⟩ : ∃ ts', ts = ts' ++ [t] := by
    obtain ⟨ts', hts⟩ := List.getLast?_eq_some_iff.1 ht
    exact ⟨ts', hts⟩
  rw [List.append_assoc] at h
  obtain ⟨rest, -, hrest⟩ := lexemes_eq_append h
  obtain ⟨hl, ha⟩ := lexeme_of_lexemes_append hrest.symm hus
  exact ha.of_head? hl.ne_nil hr

/-- The text of whitespace consists of spaces. -/
theorem isSpace_of_mem_whitespace {d : Dialect} (h : Lexeme d .whitespace t) : ∀ x ∈ t, isSpace x = true := by
  cases h with
  | space hc h => simpa using ⟨hc, h⟩

/-! ### Tokens taken out of a text -/

section Erased

variable {front mid : List Token}

/-- If the token in front of the tokens that are taken out stands apart from those behind them, all others stay. -/
theorem lexemes_erased (h : lexemes .antlr s = front ++ u :: (mid ++ us)) (hne : mid ++ us ≠ [])
    (hu : Apart .antlr u.kind u.text (spelling us)) :
    lexemes .antlr (spelling (front ++ u :: us)) = front ++ u :: us := by
  have hcut : lexemes .antlr s = (front ++ [u]) ++ (mid ++ us) := by simpa using h
  obtain ⟨r, -, hus⟩ := @lexemes_eq_append _ _ (front ++ u :: mid) us (by simpa using h)
  have hlast : ∀ t ∈ (front ++ [u]).getLast?, Apart .antlr t.kind t.text (spelling us) := by
    intro t ht
    rw [List.getLast?_concat] at ht
    obtain rfl := Option.some.inj ht
    exact hu
  have hseam := lexemes_spelling_append hcut hne hlast
  have hagain : lexemes .antlr (spelling us) = us := by rw [hus, spelling_lexemes]
  rw [hagain, ← spelling_append, List.append_assoc] at hseam
  exact hseam

/-- Whitespace in front of the tokens that are taken out may run together with whitespace behind them. -/
theorem lexemes_erased_whitespace (h : lexemes .antlr s = front ++ u :: (mid ++ us)) (hne : mid ++ us ≠ [])
    (hu : u.kind = .whitespace) :
    ∃ ws ws' vs, (∀ t ∈ ws, t.kind = .whitespace) ∧ (∀ t ∈ ws', t.kind = .whitespace) ∧
      lexemes .antlr (spelling (front ++ u :: us)) = front ++ (ws ++ vs) ∧ us = ws' ++ vs := by
  obtain ⟨r, -, hus⟩ := @lexemes_eq_append _ _ (front ++ u :: mid) us (by simpa using h)
  obtain ⟨_, -, hlast⟩ := lexemes_eq_append h
  obtain ⟨hlexeme, -⟩ := lexeme_of_lexemes_append hlast.symm hne
  have hhead : (u.text ++ r).head? = (spelling (u :: (mid ++ us))).head? := by
    obtain ⟨c, x, hx⟩ := List.exists_cons_of_ne_nil hlexeme.ne_nil
    simp [spelling, hx]
  rw [hu] at hlexeme
  obtain ⟨ws, ws', vs, hws, hws', hgap, hrest⟩ := lexemes_spaces (d := .antlr) (isSpace_of_mem_whitespace hlexeme) r
  have hseam := lexemes_spelling_append_of_head? h (List.cons_ne_nil _ _) hhead
  refine ⟨ws, ws', vs, hws, hws', ?_, hus.trans hrest⟩
  have hr : spelling us = r := by rw [hus, spelling_lexemes]
  rw [hgap] at hseam
  rwa [spelling_append, show spelling (u :: us) = u.text ++ spelling us from rfl, hr]

end Erased

end Seam

end GrammarText
