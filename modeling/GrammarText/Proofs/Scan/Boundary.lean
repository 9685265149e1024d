import GrammarText.Proofs.Scan.Lexeme

/-!
# What may follow a lexeme

Before a space every lexeme ends (`apart_of_gap`), a line comment only at the end of its line; and spaces
before a text change nothing but its first whitespace (`lexemes_spaces`). Where nothing separates two signs,
only a handful of pairs of EBNF run together (`keepsSign_ebnf`).
-/

namespace GrammarText

section Boundary

variable {d : Dialect} {k : TokenKind} {t rest : Text}

theorem longOperators_spec {op : Text} (h : op ∈ d.longOperators) :
    ∃ x y r, op = x :: y :: r ∧ isNameStart x = false ∧ x ≠ '(' ∧ x ≠ '/' ∧ isSpace y = false := by
  cases d <;> simp [Dialect.longOperators] at h
  · subst h
    exact ⟨_, _, _, rfl, by decide, by decide, by decide, by decide⟩
  · rcases h with rfl | rfl | rfl | rfl <;> exact ⟨_, _, _, rfl, by decide, by decide, by decide, by decide⟩

/-- Words begin no comment and no operator. -/
theorem keepsSign_word {c : Char} {r : Text} (hc : isNameStart c = true) : KeepsSign d (c :: r) rest := by
  have hne : ∀ x, isNameStart x = false → c ≠ x := by
    rintro x hx rfl
    simp [hc] at hx
  refine ⟨commentForm?_eq_none (hne _ (by decide)) (hne _ (by decide)), fun op hop hp => ?_⟩
  obtain ⟨x, y, s, rfl, hx, -⟩ := longOperators_spec hop
  exact absurd (List.cons_prefix_cons.1 hp).1.symm (hne x hx)

/-- Operators of several characters end where they end. -/
theorem keepsSign_longOperator (h : t ∈ d.longOperators) : KeepsSign d t rest := by
  constructor
  · obtain ⟨x, y, s, rfl, -, h1, h2, -⟩ := longOperators_spec h
    exact commentForm?_eq_none h1 h2
  · intro op hop hp
    exact longOperator_unique hop h hp (List.prefix_append _ _)

/-- A sign of one character ends before a space. -/
theorem keepsSign_of_gap {c : Char} (hr : ∀ x ∈ rest.head?, isSpace x = true) : KeepsSign d [c] rest := by
  have hne : ∀ x, isSpace x = false → rest.head? ≠ some x := by
    rintro x hx he
    simp [hr x he] at hx
  constructor
  · match rest with
    | [] => cases d <;> simp [commentForm?, List.isPrefixOf]
    | x :: r =>
      have h1 : x ≠ '*' := fun he => hne '*' (by decide) (by simp [he])
      have h2 : x ≠ '/' := fun he => hne '/' (by decide) (by simp [he])
      simp [commentForm?, List.isPrefixOf, h1.symm, h2.symm]
  · intro op hop hp
    obtain ⟨x, y, s, rfl, -, -, -, hy⟩ := longOperators_spec hop
    obtain ⟨z, rfl⟩ : y :: s <+: rest := (List.cons_prefix_cons.1 hp).2
    exact absurd rfl (hne y hy)

/-- Before a space every lexeme ends, a line comment only before a line feed. -/
theorem apart_of_gap (h : Lexeme d k t) (hk : k ≠ .whitespace) (hr : ∀ x ∈ rest.head?, isSpace x = true)
    (hl : k = .comment → ['/', '/'] <+: t → ∀ x ∈ rest.head?, x = '\n') : Apart d k t rest := by
  have hw : ∀ x ∈ rest.head?, isNamePart x = false := by
    intro x hx
    have := hr x hx
    simp only [isSpace, Bool.or_eq_true, beq_iff_eq] at this
    rcases this with ((rfl | rfl) | rfl) | rfl <;> decide
  cases h with
  | literal | charClass | action => trivial
  | starred | slashed | line => exact hl rfl
  | longOperator h => exact keepsSign_longOperator h
  | shortOperator h => exact keepsSign_of_gap hr
  | word hc h => exact ⟨keepsSign_word hc, fun _ => hw⟩
  | space => exact absurd rfl hk
  | stray hc => exact ⟨keepsSign_of_gap hr, fun _ => hw⟩

theorem apart_nil (h : Lexeme d k t) : Apart d k t [] := by
  by_cases hk : k = .whitespace
  · subst hk
    intro x hx
    cases hx
  · exact apart_of_gap h hk (by simp) (by simp)

/-- A lexeme is a single token. -/
theorem lexemes_lexeme (h : Lexeme d k t) : lexemes d t = [⟨k, t, {}⟩] := by
  have := lexemes_append h (apart_nil h)
  rwa [List.append_nil, lexemes_nil] at this

/-- A run of spaces before anything else is a token of its own. -/
theorem lexemes_gap {g : Text} (hg : g ≠ []) (hs : ∀ x ∈ g, isSpace x = true)
    (hr : ∀ x ∈ rest.head?, isSpace x = false) : lexemes d (g ++ rest) = ⟨.whitespace, g, {}⟩ :: lexemes d rest := by
  match g, hg with
  | c :: r, _ => exact lexemes_append (.space (hs c (by simp)) fun x hx => hs x (by simp [hx])) hr

/-- A run of spaces, even of none, is whitespace. -/
theorem lexemes_run {g : Text} (hg : ∀ x ∈ g, isSpace x = true) (hr : ∀ x ∈ rest.head?, isSpace x = false) :
    ∃ ws, (∀ t ∈ ws, t.kind = .whitespace) ∧ lexemes d (g ++ rest) = ws ++ lexemes d rest := by
  cases g with
  | nil => exact ⟨[], by simp, rfl⟩
  | cons c g => exact ⟨[⟨.whitespace, c :: g, {}⟩], by simp, lexemes_gap (List.cons_ne_nil _ _) hg hr⟩

/-- A text is a run of spaces and what begins with none. -/
theorem exists_run (s : Text) :
    ∃ w r, s = w ++ r ∧ (∀ x ∈ w, isSpace x = true) ∧ ∀ y ∈ r.head?, isSpace y = false := by
  refine ⟨s.takeWhile isSpace, s.dropWhile isSpace, List.takeWhile_append_dropWhile.symm, ?_, ?_⟩
  · exact fun x hx => List.mem_takeWhile_imp hx
  · intro y hy
    have h := List.head?_dropWhile_not isSpace s
    rw [Option.mem_def.1 hy] at h
    exact h

/-- Spaces before a text change nothing but the whitespace that its tokens begin with. -/
theorem lexemes_spaces {g : Text} (hg : ∀ x ∈ g, isSpace x = true) (s : Text) :
    ∃ ws ws' us, (∀ t ∈ ws, t.kind = .whitespace) ∧ (∀ t ∈ ws', t.kind = .whitespace) ∧
      lexemes d (g ++ s) = ws ++ us ∧ lexemes d s = ws' ++ us := by
  obtain ⟨w, r, rfl, hw, hr⟩ := exists_run s
  have hgw : ∀ x ∈ g ++ w, isSpace x = true := fun x hx => (List.mem_append.1 hx).elim (hg x) (hw x)
  obtain ⟨ws, hws, heq⟩ := lexemes_run (d := d) hgw hr
  obtain ⟨ws', hws', heq'⟩ := lexemes_run (d := d) hw hr
  rw [List.append_assoc] at heq
  exact ⟨ws, ws', lexemes d r, hws, hws', heq, heq'⟩

/-- Nothing but whitespace begins with a space. -/
theorem Lexeme.head_not_space {c : Char} {r : Text} (h : Lexeme d k (c :: r)) (hk : k ≠ .whitespace) :
    isSpace c = false := by
  cases h with
  | literal hm h => rcases hm with rfl | rfl <;> decide
  | charClass | action | starred | slashed | line => decide
  | longOperator h =>
    have hx : ∀ op ∈ d.longOperators, ∀ x ∈ op.head?, isSpace x = false := by
      cases d <;> simp [Dialect.longOperators] <;> decide
    exact hx _ h c rfl
  | shortOperator h =>
    have hx : ∀ x ∈ d.shortOperators, isSpace x = false := by
      cases d <;> simp [Dialect.shortOperators] <;> decide
    exact hx c h
  | word hc h =>
    cases hs : isSpace c with
    | false => rfl
    | true =>
      simp only [isSpace, Bool.or_eq_true, beq_iff_eq] at hs
      rcases hs with ((rfl | rfl) | rfl) | rfl <;> cases hc
  | space => exact absurd rfl hk
  | stray hc =>
    simp only [isStray, Bool.not_eq_true', Bool.or_eq_false_iff] at hc
    exact hc.2

theorem Lexeme.starts (h : Lexeme d k t) (hk : k ≠ .whitespace) : ∃ c r, t = c :: r ∧ isSpace c = false := by
  obtain ⟨c, r, rfl⟩ := List.exists_cons_of_ne_nil h.ne_nil
  exact ⟨c, r, rfl, h.head_not_space hk⟩

end Boundary

/-! ### Signs of EBNF that run together -/

/-- A sign of one character keeps its end in EBNF unless it opens a comment or begins the defining sign. -/
theorem keepsSign_ebnf {c : Char} {rest : Text} (h1 : c = '(' → rest.head? ≠ some '*')
    (h2 : c = '/' → rest.head? ≠ some '*' ∧ rest.head? ≠ some '/') (h3 : c = ':' → ¬[':', '='] <+: rest) :
    KeepsSign .ebnf [c] rest := by
  constructor
  · match rest with
    | [] => simp [commentForm?, List.isPrefixOf]
    | x :: r =>
      simp only [List.head?_cons, ne_eq, Option.some.injEq] at h1 h2
      simp only [commentForm?, List.cons_append, List.nil_append, List.isPrefixOf, Bool.and_true,
        Bool.and_eq_true, beq_iff_eq]
      rw [if_neg (fun h => h1 h.2.1.symm h.2.2.symm), if_neg (fun h => (h2 h.1.symm).1 h.2.symm),
        if_neg (fun h => (h2 h.1.symm).2 h.2.symm)]
  · intro op hop hp
    obtain rfl : op = [':', ':', '='] := by simpa [Dialect.longOperators] using hop
    obtain ⟨hc, hr⟩ := List.cons_prefix_cons.1 hp
    exact absurd hr (h3 hc.symm)

/-- The semicolon ends where it does, whatever follows. -/
theorem lexemes_semicolon (rest : Text) :
    lexemes .ebnf (';' :: rest) = ⟨.operator, [';'], {}⟩ :: lexemes .ebnf rest :=
  lexemes_append (.shortOperator (by decide)) (keepsSign_ebnf (by simp) (by simp) (by simp))

end GrammarText
