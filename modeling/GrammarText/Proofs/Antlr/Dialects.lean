import GrammarText.Antlr.Convert
import GrammarText.Layout.Words
import GrammarText.Proofs.Antlr.Rest
import GrammarText.Proofs.Layout.Spacing

/-!
# Tokens of ANTLR in EBNF

The dialects differ in their operators. An operator of ANTLR that EBNF has not falls into single characters
(`inEbnf`); every other token that a body keeps is the same token in both. Scanning the text of a token in EBNF
cuts just these tokens wherever the layout lets something follow it (`lexemes_inEbnf`), and what ends a body in
one dialect ends it in the other (`bodyFrom_inEbnf`).
-/

namespace GrammarText.Antlr

/-- What a character that is no part of a longer token is in EBNF. -/
def signKind (c : Char) : TokenKind :=
  if c ∈ Dialect.ebnf.shortOperators then .operator else .identifier

/-- The tokens of EBNF that the text of a token of ANTLR consists of. -/
def inEbnf (t : Token) : List Token :=
  if t.kind = .operator then t.text.map fun c => ⟨signKind c, [c], {}⟩ else [t.bare]

/-- A complete token of the kind that bodies are made of. -/
structure Kept (t : Token) : Prop where
  lexeme : Lexeme .antlr t.kind t.text
  ne_whitespace : t.kind ≠ .whitespace
  ne_comment : t.kind ≠ .comment
  ne_action : t.kind ≠ .action

/-- Whether two neighbours would open a comment of EBNF with nothing in between. -/
def opensComment (t u : Token) : Bool :=
  (t.isOp ['('] && u.isOp ['*']) || (t.isLone '/' && (u.isLone '/' || u.isOp ['*']))

/-- What stands behind the token: a gap, or another token that the layout puts right behind it. -/
def Followed (t : Token) (rest : Text) : Prop :=
  (∀ c ∈ rest.head?, isSpace c = true) ∨
    ∃ u s, rest = u.text ++ s ∧ Kept u ∧ needsSpace (some t) u = false ∧ opensComment t u = false

section Signs

variable {c : Char} {rest : Text}

theorem isStray_ebnf (h : isStray .antlr c = true) : isStray .ebnf c = true := by
  have hs : ∀ x ∈ Dialect.ebnf.shortOperators, x ∈ Dialect.antlr.shortOperators := by
    simp [Dialect.shortOperators]
  simp only [isStray, Bool.not_eq_true', Bool.or_eq_false_iff] at h ⊢
  obtain ⟨⟨⟨⟨⟨⟨h1, h2⟩, h3⟩, -⟩, h5⟩, h6⟩, h7⟩ := h
  refine ⟨⟨⟨⟨⟨⟨h1, h2⟩, h3⟩, rfl⟩, ?_⟩, h6⟩, h7⟩
  cases hc : Dialect.ebnf.shortOperators.contains c with
  | false => rfl
  | true =>
    have := hs c (by simpa using hc)
    simp [this] at h5

theorem sign_of_operator {op : Text} (h : Lexeme .antlr .operator op) :
    ∀ c ∈ op, c ∈ Dialect.ebnf.shortOperators ∨ isStray .ebnf c = true := by
  have hlong : ∀ op ∈ Dialect.antlr.longOperators, ∀ c ∈ op,
      c ∈ Dialect.ebnf.shortOperators ∨ isStray .ebnf c = true := by
    simp [Dialect.longOperators, Dialect.shortOperators]
    decide
  have hshort : ∀ c ∈ Dialect.antlr.shortOperators,
      c ∈ Dialect.ebnf.shortOperators ∨ isStray .ebnf c = true := by
    simp [Dialect.shortOperators]
    decide
  cases h with
  | longOperator h => exact hlong op h
  | shortOperator h => simpa using hshort _ h

/-- A single character is a token if it opens no comment and does not begin the defining sign. -/
theorem lexemes_sign (hc : c ∈ Dialect.ebnf.shortOperators ∨ isStray .ebnf c = true)
    (h1 : c = '(' → rest.head? ≠ some '*') (h2 : c = '/' → rest.head? ≠ some '*' ∧ rest.head? ≠ some '/')
    (h3 : c = ':' → ¬[':', '='] <+: rest) :
    lexemes .ebnf (c :: rest) = ⟨signKind c, [c], {}⟩ :: lexemes .ebnf rest := by
  have hsign := keepsSign_ebnf h1 h2 h3
  by_cases hs : c ∈ Dialect.ebnf.shortOperators
  · rw [signKind, if_pos hs]
    exact lexemes_append (.shortOperator hs) hsign
  · have hstray := hc.resolve_left hs
    have hname : isNameStart c = false := by
      simp only [isStray, Bool.not_eq_true', Bool.or_eq_false_iff] at hstray
      exact hstray.1.2
    rw [signKind, if_neg hs]
    exact lexemes_append (.stray hstray) ⟨hsign, fun hn => by simp [hname] at hn⟩

theorem eq_of_head_star {k : TokenKind} {r : Text} (h : Lexeme .antlr k ('*' :: r)) : k = .operator ∧ r = [] := by
  cases h with
  | literal hm => exact absurd hm (by decide)
  | longOperator h => simp [Dialect.longOperators] at h
  | shortOperator => exact ⟨rfl, rfl⟩
  | word hc => cases hc
  | space hc => cases hc
  | stray hc => cases hc

theorem eq_of_head_slash {k : TokenKind} {r : Text} (h : Lexeme .antlr k ('/' :: r)) (hk : k ≠ .comment) :
    k = .identifier ∧ r = [] := by
  cases h with
  | literal hm => exact absurd hm (by decide)
  | slashed | line => exact absurd rfl hk
  | longOperator h => simp [Dialect.longOperators] at h
  | shortOperator h => exact absurd h (by decide)
  | word hc => cases hc
  | space hc => cases hc
  | stray => exact ⟨rfl, rfl⟩

end Signs

section Followed

variable {t : Token} {rest : Text}

/-- Behind words, and behind operators that open no parenthesis, the layout puts little without a gap. -/
theorem Followed.head (h : Followed t rest) (hp : t.isPunctuation = false) (ho : t.isOp ['('] = false) :
    ∀ c ∈ rest.head?, isSpace c = true ∨ c ∈ [')', '?', '*', '+', ','] := by
  intro c hc
  rcases h with h | ⟨u, s, rfl, -, hglue, -⟩
  · exact .inl (h c hc)
  · simp only [needsSpace, hp, ho, Bool.false_and, Bool.or_false, Bool.not_eq_false'] at hglue
    simp only [Token.isOneOf, Token.isOp, List.any_cons, List.any_nil, Bool.or_false, Bool.or_eq_true,
      Bool.and_eq_true, beq_iff_eq] at hglue
    right
    rcases hglue with ⟨-, hu⟩ | ⟨-, hu⟩ | ⟨-, hu⟩ | ⟨-, hu⟩ | ⟨-, hu⟩
    all_goals
      rw [hu] at hc
      cases hc
      decide

/-- No character follows that would open a comment. -/
theorem Followed.opens (h : Followed t rest) :
    (t.isOp ['('] = true → rest.head? ≠ some '*') ∧
      (t.isLone '/' = true → rest.head? ≠ some '*' ∧ rest.head? ≠ some '/') := by
  have hgap : ∀ x, isSpace x = false → (∀ c ∈ rest.head?, isSpace c = true) → rest.head? ≠ some x := by
    intro x hx hr he
    simp [hr x he] at hx
  rcases h with h | ⟨u, s, rfl, hu, -, hopens⟩
  · exact ⟨fun _ => hgap '*' rfl h, fun _ => ⟨hgap '*' rfl h, hgap '/' rfl h⟩⟩
  · have hlex := hu.lexeme
    have hstar : (u.text ++ s).head? = some '*' → u.isOp ['*'] = true := by
      intro hh
      obtain ⟨y, r, hy⟩ := List.exists_cons_of_ne_nil hlex.ne_nil
      obtain rfl : y = '*' := by simpa [hy] using hh
      rw [hy] at hlex
      obtain ⟨hk, rfl⟩ := eq_of_head_star hlex
      simp [Token.isOp, hk, hy]
    have hslash : (u.text ++ s).head? = some '/' → u.isLone '/' = true := by
      intro hh
      obtain ⟨y, r, hy⟩ := List.exists_cons_of_ne_nil hlex.ne_nil
      obtain rfl : y = '/' := by simpa [hy] using hh
      rw [hy] at hlex
      obtain ⟨hk, rfl⟩ := eq_of_head_slash hlex hu.ne_comment
      simp [Token.isLone, hk, hy]
    simp only [opensComment, Bool.or_eq_false_iff, Bool.and_eq_false_iff] at hopens
    constructor
    · intro ht hh
      simp [ht, hstar hh] at hopens
    · intro ht
      constructor
      · intro hh
        simp [ht, hstar hh] at hopens
      · intro hh
        simp [ht, hslash hh] at hopens

/-- What the layout puts there goes on no word and completes no sign. -/
theorem ends_of_follows {c : Char} (h : isSpace c = true ∨ c ∈ [')', '?', '*', '+', ',']) :
    isNamePart c = false ∧ c ≠ ':' ∧ c ≠ '=' := by
  rcases h with hs | hs
  · simp only [isSpace, Bool.or_eq_true, beq_iff_eq] at hs
    rcases hs with ((rfl | rfl) | rfl) | rfl <;> decide
  · simp only [List.mem_cons, List.mem_nil_iff, or_false] at hs
    rcases hs with rfl | rfl | rfl | rfl | rfl <;> decide

/-- A long operator is read character by character. -/
theorem lexemes_longOperator {x : Text} (hx : x ∈ Dialect.antlr.longOperators)
    (hrest : ∀ y ∈ rest.head?, y ≠ ':' ∧ y ≠ '=') (p : Position) :
    lexemes .ebnf (x ++ rest) = inEbnf ⟨.operator, x, p⟩ ++ lexemes .ebnf rest := by
  have hsigns := sign_of_operator (.longOperator hx)
  have hpair : ∀ c d : Char, c ∉ ['(', '/'] → d ∉ ['(', '/'] → x = [c, d] →
      (c = ':' → ¬[':', '='] <+: d :: rest) → (d = ':' → ¬[':', '='] <+: rest) →
      lexemes .ebnf (x ++ rest) = inEbnf ⟨.operator, x, p⟩ ++ lexemes .ebnf rest := by
    rintro c d hc hd rfl h1 h2
    simp only [List.mem_cons, List.mem_nil_iff, or_false, not_or] at hc hd
    have hlast := lexemes_sign (hsigns d (by simp)) (fun he => absurd he hd.1) (fun he => absurd he hd.2) h2
    have hfirst := lexemes_sign (hsigns c (by simp)) (fun he => absurd he hc.1) (fun he => absurd he hc.2) h1
    rw [List.cons_append, List.cons_append, List.nil_append, hfirst, hlast]
    rfl
  simp only [Dialect.longOperators, List.mem_cons, List.mem_nil_iff, or_false] at hx
  rcases hx with rfl | rfl | rfl | rfl
  · exact hpair _ _ (by decide) (by decide) rfl (fun he => absurd he (by decide)) (fun he => absurd he (by decide))
  · exact hpair _ _ (by decide) (by decide) rfl (fun he => absurd he (by decide)) (fun he => absurd he (by decide))
  · exact hpair _ _ (by decide) (by decide) rfl (fun he => absurd he (by decide)) (fun he => absurd he (by decide))
  · refine hpair _ _ (by decide) (by decide) rfl (fun _ hp => ?_) (fun _ hp => ?_)
    · obtain ⟨z, rfl⟩ := (List.cons_prefix_cons.1 hp).2
      exact (hrest '=' rfl).2 rfl
    · obtain ⟨z, rfl⟩ := hp
      exact (hrest ':' rfl).1 rfl

/-- The text of a token is read as its tokens of EBNF, whatever the layout lets follow. -/
theorem lexemes_inEbnf (ht : Kept t) (h : Followed t rest) :
    lexemes .ebnf (t.text ++ rest) = inEbnf t ++ lexemes .ebnf rest := by
  obtain ⟨hparen, hslash⟩ := h.opens
  have hends := fun hp ho y hy => ends_of_follows (h.head hp ho y hy)
  obtain ⟨hlex, hspace, hcomment, haction⟩ := ht
  obtain ⟨k, x, p⟩ := t
  simp only at hlex hspace hcomment haction ⊢
  cases hlex with
  | literal hm hx => exact lexemes_append (.literal hm hx) trivial
  | charClass hx => exact lexemes_append (.charClass hx) trivial
  | action => exact absurd rfl haction
  | starred | slashed | line => exact absurd rfl hcomment
  | space => exact absurd rfl hspace
  | @word c r hc hx =>
    have hp : (⟨.identifier, c :: r, p⟩ : Token).isPunctuation = false := by
      show (!(isLetter c || c == '_')) = false
      rw [isLetter_of_isNameStart hc]
      rfl
    exact lexemes_append (.word hc hx) ⟨keepsSign_word hc, fun _ y hy => (hends hp rfl y hy).1⟩
  | @stray c hc =>
    have hsign := @lexemes_sign c rest (.inr (isStray_ebnf hc)) ?_ ?_ ?_
    · have hs : c ∉ Dialect.ebnf.shortOperators := by
        intro hm
        have := isStray_ebnf hc
        simp [isStray, hm] at this
      rw [List.cons_append, List.nil_append, hsign, signKind, if_neg hs]
      rfl
    · rintro rfl
      cases hc
    · rintro rfl
      exact hslash rfl
    · rintro rfl
      cases hc
  | @shortOperator c hc =>
    have hsign := @lexemes_sign c rest (sign_of_operator (.shortOperator hc) c (by simp)) ?_ ?_ ?_
    · exact hsign
    · rintro rfl
      exact hparen rfl
    · rintro rfl
      exact absurd hc (by decide)
    · rintro rfl ⟨z, rfl⟩
      exact (hends rfl rfl ':' rfl).2.1 rfl
  | longOperator hop =>
    have hopens : (⟨.operator, x, p⟩ : Token).isOp ['('] = false := by
      have : ∀ op ∈ Dialect.antlr.longOperators, op ≠ ['('] := by decide
      simpa [Token.isOp] using this x hop
    exact lexemes_longOperator hop (fun y hy => (hends rfl hopens y hy).2) p

end Followed

/-! ### Bodies -/

section Bodies

variable {t : Token} {ts : List Token}

theorem spelling_inEbnf (t : Token) : spelling (inEbnf t) = t.text := by
  unfold inEbnf
  split
  · simp [spelling, List.flatMap_map]
  · simp [spelling]

theorem isTrivia_of_mem_inEbnf (ht : Kept t) {u : Token} (hu : u ∈ inEbnf t) : u.isTrivia = false := by
  unfold inEbnf at hu
  split at hu
  · obtain ⟨c, -, rfl⟩ := List.mem_map.1 hu
    unfold signKind
    split <;> rfl
  · obtain rfl := List.mem_singleton.1 hu
    simp [Token.isTrivia, ht.ne_whitespace, ht.ne_comment]

theorem isOp_definingSign_of_mem_inEbnf {u : Token} (hu : u ∈ inEbnf t) : u.isOp definingSign = false := by
  unfold inEbnf at hu
  split at hu
  · obtain ⟨c, -, rfl⟩ := List.mem_map.1 hu
    simp [Token.isOp, definingSign]
  · rename_i hk
    obtain rfl := List.mem_singleton.1 hu
    exact isOp_eq_false hk _

/-- ANTLR has no defining sign. -/
theorem isOp_definingSign (h : t.kind = .operator → Lexeme .antlr .operator t.text) : t.isOp definingSign = false := by
  cases hk : t.isOp definingSign with
  | false => rfl
  | true =>
    simp only [Token.isOp, Bool.and_eq_true, beq_iff_eq] at hk
    have hl := h hk.1
    rw [hk.2] at hl
    generalize hd : definingSign = x at hl
    cases hl with
    | longOperator h => simp [Dialect.longOperators, ← hd, definingSign] at h
    | shortOperator => cases hd

theorem isOp_definingSign_of_mem_scan {s : Text} (h : t ∈ scan .antlr s) : t.isOp definingSign = false := by
  apply isOp_definingSign
  intro hk
  have hm : t.bare ∈ lexemes .antlr s := List.mem_map_of_mem h
  have hl := lexeme_of_mem_lexemes hm (by simp [Token.isClosed, hk])
  rwa [Token.kind_bare, Token.text_bare, hk] at hl

/-- Every rule that is read from a text is made of the tokens of the text. -/
theorem isRead_of_mem_readGrammar {source : GrammarSource} {r : AntlrRule} (h : r ∈ (readGrammar source).rules) :
    IsRead (scan .antlr source.text) r := by
  obtain ⟨st, hst, hr⟩ := List.mem_filterMap.1 h
  cases st with
  | rule q =>
    cases hr
    exact isRead_of_mem_readStatements (fun t => isOp_definingSign_of_mem_scan) hst
  | _ => cases hr

theorem isOp_definingSign_of_kept (ht : Kept t) : t.isOp definingSign = false :=
  isOp_definingSign fun hk => hk ▸ ht.lexeme

/-- The token is one in EBNF too, or it falls into two that no parenthesis and no semicolon is among. -/
theorem inEbnf_cases (ht : Kept t) :
    (∃ u, inEbnf t = [u] ∧ ∀ x ∈ [';', '(', ')'], u.isOp [x] = t.isOp [x]) ∨
      ∃ u v, inEbnf t = [u, v] ∧ ∀ w ∈ [t, u, v], ∀ x ∈ [';', '(', ')'], w.isOp [x] = false := by
  by_cases hk : t.kind = .operator
  · obtain ⟨hl, -, -, -⟩ := ht
    obtain ⟨k, y, p⟩ := t
    obtain rfl : k = .operator := hk
    simp only at hl
    cases hl with
    | longOperator h =>
      right
      simp only [Dialect.longOperators, List.mem_cons, List.mem_nil_iff, or_false] at h
      rcases h with rfl | rfl | rfl | rfl
      all_goals exact ⟨_, _, rfl, by simp [Token.isOp]⟩
    | @shortOperator c h =>
      left
      refine ⟨_, rfl, fun x hx => ?_⟩
      by_cases hcx : c = x
      · subst hcx
        have hs : ∀ c ∈ [';', '(', ')'], signKind c = .operator := by
          simp [signKind, Dialect.shortOperators]
        simp [Token.isOp, hs c hx]
      · simp [Token.isOp, hcx]
  · exact .inl ⟨t.bare, by rw [inEbnf, if_neg hk], fun x _ => Token.isOp_bare t [x]⟩

theorem bodyFrom_cons {depth : Nat} (h : ∀ u ∈ ts, u.isOp definingSign = false) :
    bodyFrom depth (t :: ts) = (!(t.isOp [';'] && depth == 0) && bodyFrom (depthAfter depth t) ts) := by
  rw [bodyFrom, startsRule_eq_false h, Bool.and_false, Bool.not_false, Bool.and_true]

theorem isOp_definingSign_of_mem_flatMap {u : Token} (hu : u ∈ ts.flatMap inEbnf) : u.isOp definingSign = false := by
  obtain ⟨t, -, hu⟩ := List.mem_flatMap.1 hu
  exact isOp_definingSign_of_mem_inEbnf hu

/-- A body ends in EBNF where it ends in ANTLR, and as many parentheses are open. -/
theorem bodyFrom_inEbnf (h : ∀ t ∈ ts, Kept t) (depth : Nat) :
    bodyFrom depth (ts.flatMap inEbnf) = bodyFrom depth ts ∧
      depthAfterAll depth (ts.flatMap inEbnf) = depthAfterAll depth ts := by
  induction ts generalizing depth with
  | nil => exact ⟨rfl, rfl⟩
  | cons t ts ih =>
    have ht := h t List.mem_cons_self
    have hts := fun u hu => h u (List.mem_cons_of_mem t hu)
    have hsign : ∀ u ∈ ts, u.isOp definingSign = false := fun u hu => isOp_definingSign_of_kept (hts u hu)
    have hsign' : ∀ u ∈ ts.flatMap inEbnf, u.isOp definingSign = false := fun u => isOp_definingSign_of_mem_flatMap
    rw [bodyFrom_cons hsign, depthAfterAll_cons, List.flatMap_cons]
    rcases inEbnf_cases ht with ⟨u, hu, hop⟩ | ⟨u, v, huv, hop⟩
    · have hd : depthAfter depth u = depthAfter depth t := by
        rw [depthAfter, depthAfter, hop '(' (by simp), hop ')' (by simp)]
      rw [hu, List.singleton_append, bodyFrom_cons hsign', depthAfterAll_cons, hop ';' (by simp), hd]
      obtain ⟨hb, hdepth⟩ := ih hts (depthAfter depth t)
      exact ⟨by rw [hb], hdepth⟩
    · have hd : ∀ w ∈ [t, u, v], ∀ depth, depthAfter depth w = depth := by
        intro w hw depth
        simp [depthAfter, hop w hw '(' (by simp), hop w hw ')' (by simp)]
      have hv : ∀ w ∈ v :: ts.flatMap inEbnf, w.isOp definingSign = false := by
        intro w hw
        rcases List.mem_cons.1 hw with rfl | hw
        · exact isOp_definingSign_of_mem_inEbnf (t := t) (by simp [huv])
        · exact hsign' w hw
      rw [huv, List.cons_append, List.singleton_append, bodyFrom_cons hv, bodyFrom_cons hsign', depthAfterAll_cons,
        depthAfterAll_cons, hd u (by simp), hd v (by simp), hd t (by simp), hop u (by simp) ';' (by simp),
        hop v (by simp) ';' (by simp), hop t (by simp) ';' (by simp)]
      obtain ⟨hb, hdepth⟩ := ih hts depth
      exact ⟨by simp [hb], hdepth⟩

end Bodies

end GrammarText.Antlr
