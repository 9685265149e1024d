import GrammarText.Antlr.Convert
import GrammarText.Proofs.Antlr.Dialects
import GrammarText.Proofs.Layout.Joining
import GrammarText.Proofs.Rule.Leading

/-!
# A converted rule read back

A rule is written in EBNF as one line: the comment that marks a fragment, the name, the defining sign, the body
with normal spacing, and a semicolon. Whatever follows, this line is read as a rule of the same name and the
same body, token by token (`extractFrom_ebnf`).
-/

namespace GrammarText.Antlr

/-! ### Spaced tokens -/

theorem spacedTokens_starts {t : Token} (ht : Kept t) (ts : List Token) :
    ∃ c s, spacedTokens (t :: ts) = c :: s ∧ isSpace c = false := by
  obtain ⟨c, s, hc, hsp⟩ := ht.lexeme.starts ht.ne_whitespace
  obtain ⟨z, hz⟩ := spacedTokens_cons t ts
  exact ⟨c, s ++ z, by rw [hz, hc, List.cons_append], hsp⟩

/-- A spaced body in front of a gap is read as its tokens of EBNF. -/
theorem lexemes_spacedTokens {ts : List Token} (hk : ∀ t ∈ ts, Kept t)
    (ha : ts.IsChain fun t u => opensComment t u = false) (rest : Text) (hgap : ∀ x ∈ rest.head?, isSpace x = true) :
    ∃ us, lexemes .ebnf (spacedTokens ts ++ rest) = us ++ lexemes .ebnf rest ∧ dense us = ts.flatMap inEbnf := by
  have hdense : ∀ {t : Token}, Kept t → dense (inEbnf t) = inEbnf t := by
    intro t ht
    refine dense_eq_self fun u hu hw => ?_
    have := isTrivia_of_mem_inEbnf ht hu
    simp [Token.isTrivia, hw] at this
  induction ts with
  | nil => exact ⟨[], rfl, rfl⟩
  | cons t ts ih =>
    have ht := hk t List.mem_cons_self
    have hts := fun u hu => hk u (List.mem_cons_of_mem t hu)
    cases ts with
    | nil =>
      refine ⟨inEbnf t, lexemes_inEbnf ht (.inl hgap), ?_⟩
      rw [hdense ht, List.flatMap_cons, List.flatMap_nil, List.append_nil]
    | cons u ts =>
      obtain ⟨us, hus, hd⟩ := ih hts ha.tail
      obtain ⟨c, s, hc, hsp⟩ := spacedTokens_starts (hts u List.mem_cons_self) ts
      rw [spacedTokens]
      by_cases hs : needsSpace (some t) u = true
      · -- a space comes next
        have hfollow : Followed t (' ' :: (spacedTokens (u :: ts) ++ rest)) := .inl (by simp [isSpace])
        have hread := lexemes_inEbnf ht hfollow
        have hspace : lexemes .ebnf (' ' :: (spacedTokens (u :: ts) ++ rest)) =
            ⟨.whitespace, [' '], {}⟩ :: lexemes .ebnf (spacedTokens (u :: ts) ++ rest) :=
          lexemes_gap (g := [' ']) (by simp) (by simp [isSpace]) (by simpa [hc] using hsp)
        refine ⟨inEbnf t ++ ⟨.whitespace, [' '], {}⟩ :: us, ?_, ?_⟩
        · rw [if_pos hs, List.append_assoc, List.append_assoc, List.singleton_append, hread, hspace, hus]
          simp
        · rw [dense_append, dense_cons_whitespace rfl, hdense ht, hd]
          rfl
      · -- the next token comes right away
        have hfollow : Followed t (spacedTokens (u :: ts) ++ rest) := by
          obtain ⟨z, hz⟩ := spacedTokens_cons u ts
          refine .inr ⟨u, z ++ rest, by rw [hz, List.append_assoc], hts u List.mem_cons_self, by simpa using hs, ?_⟩
          exact ha.rel
        refine ⟨inEbnf t ++ us, ?_, ?_⟩
        · rw [if_neg hs, List.nil_append, List.append_assoc, lexemes_inEbnf ht hfollow, hus, List.append_assoc]
        · rw [dense_append, hdense ht, hd]
          rfl

/-! ### Rules -/

/-- A rule that can be said in EBNF: nothing in its body is left open, and no neighbours in it open a comment. -/
structure Convertible (r : AntlrRule) : Prop where
  /-- Every literal and every class is terminated. -/
  closed : ∀ t ∈ r.body, t.kind = .literal ∨ t.kind = .charClass → t.isClosed = true
  /-- The body does not end inside parentheses. -/
  balanced : depthAfterAll 0 r.body = 0
  /-- Whitespace aside, no opening parenthesis stands before a star, and no slash before a slash or a star. -/
  apart : (dense r.body).IsChain fun t u => opensComment t u = false

instance (r : AntlrRule) : Decidable (Convertible r) :=
  decidable_of_iff ((∀ t ∈ r.body, t.kind = .literal ∨ t.kind = .charClass → t.isClosed = true) ∧
      depthAfterAll 0 r.body = 0 ∧ (dense r.body).IsChain fun t u => opensComment t u = false)
    ⟨fun h => ⟨h.1, h.2.1, h.2.2⟩, fun h => ⟨h.closed, h.balanced, h.apart⟩⟩

/-- A rule of a document that says the same as a rule of ANTLR. -/
structure Says (r : AntlrRule) (q : Rule) : Prop where
  name : q.name = r.name
  body : spelling (significant q.body) = spelling (significant r.body)
  fragment : q.comments.getLast? = some fragmentMark ↔ r.isFragment = true

section Rule

variable {r : AntlrRule} {s rest : Text}

theorem kept_of_mem_body (hr : IsRead (scan .antlr s) r) (hc : Convertible r) : ∀ t ∈ dense r.body, Kept t := by
  intro t ht
  obtain ⟨hm, hw⟩ := mem_dense.1 ht
  obtain ⟨hs, h1, h2⟩ := hr.kept t hm
  refine ⟨?_, hw, h1, h2⟩
  have hcl : t.bare.isClosed = true := by
    rw [Token.isClosed_bare]
    cases hk : t.kind with
    | literal => exact hc.closed t hm (.inl hk)
    | charClass => exact hc.closed t hm (.inr hk)
    | comment => exact absurd hk h1
    | action => exact absurd hk h2
    | whitespace | identifier | operator => simp [Token.isClosed, hk]
  have hbare : t.bare ∈ lexemes .antlr s := List.mem_map_of_mem hs
  have hl := lexeme_of_mem_lexemes hbare hcl
  rwa [Token.kind_bare, Token.text_bare] at hl

theorem lexeme_name (hr : IsRead (scan .antlr s) r) : Lexeme .ebnf .identifier r.name := by
  obtain ⟨t, ht, hk, hn⟩ := hr.name
  have hbare : t.bare ∈ lexemes .antlr s := List.mem_map_of_mem ht
  have hl := lexeme_of_mem_lexemes hbare (by simp [Token.isClosed, hk])
  rw [Token.kind_bare, Token.text_bare, hk, hn] at hl
  generalize r.name = x at hl
  cases hl with
  | word hc h => exact .word hc h
  | stray hc => exact .stray (isStray_ebnf hc)

theorem lexeme_gap {k : TokenKind} {x : Text} (h : Lexeme .ebnf k x) (hw : k ≠ .whitespace) (hc : k ≠ .comment)
    {c : Char} (hn : isSpace c = false) (rest : Text) :
    lexemes .ebnf (x ++ ' ' :: c :: rest) = ⟨k, x, {}⟩ :: ⟨.whitespace, [' '], {}⟩ :: lexemes .ebnf (c :: rest) := by
  have hgap := @lexemes_gap .ebnf (c :: rest) [' '] (by simp) (by simp [isSpace]) (by simpa using hn)
  have hapart : Apart .ebnf k x (' ' :: c :: rest) :=
    apart_of_gap h hw (by simp [isSpace]) fun hk => absurd hk hc
  rw [lexemes_append h hapart]
  exact congrArg _ hgap

/-- The tokens of a converted rule, its fragment mark aside. -/
theorem lexemes_ebnf (hr : IsRead (scan .antlr s) r) (hc : Convertible r) (rest : Text) :
    ∃ us, lexemes .ebnf (ruleHead r.name ++
          ((if (joinTokens r.body).isEmpty then [] else ' ' :: joinTokens r.body) ++ ' ' :: ';' :: rest)) =
        us ++ ⟨.operator, [';'], {}⟩ :: lexemes .ebnf rest ∧
      dense us = ⟨.identifier, r.name, {}⟩ :: ⟨.operator, definingSign, {}⟩ :: (dense r.body).flatMap inEbnf := by
  have hkept := kept_of_mem_body hr hc
  have hsign : Lexeme .ebnf .operator definingSign := .longOperator (by decide)
  have hsemi := lexemes_semicolon rest
  have hname := lexeme_gap (lexeme_name hr) (by decide) (by decide) (c := ':') rfl
  have hhead : ∀ t : Text, ruleHead r.name ++ t = r.name ++ ' ' :: ':' :: (':' :: '=' :: t) := by
    intro t
    simp [ruleHead]
  rw [joinTokens_eq fun t ht => (hr.kept t ht).2.1, hhead, hname]
  cases hd : dense r.body with
  | nil =>
    have hs := lexeme_gap hsign (by decide) (by decide) (c := ';') rfl rest
    refine ⟨[⟨.identifier, r.name, {}⟩, ⟨.whitespace, [' '], {}⟩, ⟨.operator, definingSign, {}⟩,
      ⟨.whitespace, [' '], {}⟩], ?_, rfl⟩
    rw [hsemi] at hs
    exact congrArg (⟨.identifier, r.name, {}⟩ :: ⟨.whitespace, [' '], {}⟩ :: ·) hs
  | cons t ts =>
    rw [hd] at hkept
    have hchain := hc.apart
    rw [hd] at hchain
    obtain ⟨c, z, hcz, hsp⟩ := spacedTokens_starts (hkept t List.mem_cons_self) ts
    obtain ⟨us, hus, hdense⟩ := lexemes_spacedTokens hkept hchain (' ' :: ';' :: rest) (by simp [isSpace])
    have hs := lexeme_gap hsign (by decide) (by decide) hsp (z ++ ' ' :: ';' :: rest)
    have hgap : lexemes .ebnf (' ' :: ';' :: rest) = ⟨.whitespace, [' '], {}⟩ :: lexemes .ebnf (';' :: rest) :=
      lexemes_gap (g := [' ']) (by simp) (by simp [isSpace]) (by simp [isSpace])
    rw [← List.cons_append, ← hcz, hus, hgap, hsemi] at hs
    refine ⟨⟨.identifier, r.name, {}⟩ :: ⟨.whitespace, [' '], {}⟩ :: ⟨.operator, definingSign, {}⟩ ::
      ⟨.whitespace, [' '], {}⟩ :: (us ++ [⟨.whitespace, [' '], {}⟩]), ?_, ?_⟩
    · have hne : (spacedTokens (t :: ts)).isEmpty = false := by rw [hcz]; rfl
      rw [hne]
      simpa [definingSign] using hs
    · rw [dense_cons (by simp), dense_cons_whitespace rfl, dense_cons (by simp), dense_cons_whitespace rfl,
        dense_append, hdense]
      simp [dense]

theorem leadingComment_fragmentMark : LeadingComment fragmentMark :=
  ⟨"(* fragment *)".toList, [' '], by decide, .starred rfl (by decide), by simp [isSpace], by decide⟩

theorem spelling_flatMap_inEbnf (ts : List Token) : spelling (ts.flatMap inEbnf) = spelling ts := by
  induction ts with
  | nil => rfl
  | cons t ts ih =>
    have happ : ∀ us vs : List Token, spelling (us ++ vs) = spelling us ++ spelling vs :=
      fun us vs => List.flatMap_append
    rw [List.flatMap_cons, happ, spelling_inEbnf, ih]
    rfl

/-- A converted rule is found as a rule of the same name and the same body. -/
theorem extractFrom_ebnf (hr : IsRead (scan .antlr s) r) (hc : Convertible r) {pending : List Text}
    (hp : pending.getLast? ≠ some fragmentMark) (rest : Text) :
    ∃ q, Says r q ∧ extractFrom pending (lexemes .ebnf (r.ebnf ++ rest)) =
      (q, .terminated) :: extractFrom [] (lexemes .ebnf rest) := by
  obtain ⟨us, hus, hd⟩ := lexemes_ebnf hr hc rest
  have hkept := kept_of_mem_body hr hc
  obtain ⟨hb, hdepth⟩ := bodyFrom_inEbnf hkept 0
  rw [bodyFrom_dense] at hb
  rw [depthAfterAll_dense] at hdepth
  obtain ⟨body, hbody, -, hfound⟩ := @extractFrom_rule_append us _ (lexemes .ebnf rest) _ _ ⟨.operator, [';'], {}⟩
    (pending ++ if r.isFragment then [fragmentMark] else []) hd rfl rfl (hb.trans hr.body) (hdepth.trans hc.balanced) rfl
  refine ⟨⟨r.name, body, pending ++ if r.isFragment then [fragmentMark] else [], {}⟩, ⟨rfl, ?_, ?_⟩, ?_⟩
  · -- neither body has comments
    have hq : ∀ t ∈ body, t.kind ≠ .comment := by
      intro t ht hk
      have hm : t ∈ dense body := mem_dense.2 ⟨ht, by simp [hk]⟩
      rw [hbody] at hm
      obtain ⟨u, hu, hm⟩ := List.mem_flatMap.1 hm
      have := isTrivia_of_mem_inEbnf (hkept u hu) hm
      simp [Token.isTrivia, hk] at this
    rw [significant_eq_dense hq, hbody, spelling_flatMap_inEbnf, significant_eq_dense fun t ht => (hr.kept t ht).2.1]
  · cases r.isFragment with
    | true => simp
    | false => simpa using hp
  · have htext : r.ebnf ++ rest = (if r.isFragment then [fragmentMark] else []).flatten ++ (ruleHead r.name ++
        ((if (joinTokens r.body).isEmpty then [] else ' ' :: joinTokens r.body) ++ ' ' :: ';' :: rest)) := by
      rw [AntlrRule.ebnf]
      cases r.isFragment <;> simp
    have hhead : ∀ y ∈ (ruleHead r.name ++ ((if (joinTokens r.body).isEmpty then [] else ' ' :: joinTokens r.body) ++
        ' ' :: ';' :: rest)).head?, isSpace y = false := by
      have hn := lexeme_name hr
      obtain ⟨c, z, hcz, hsp⟩ := hn.starts (by decide)
      simpa [ruleHead, hcz] using hsp
    have hmark : ∀ x ∈ (if r.isFragment then [fragmentMark] else []), LeadingComment x := by
      intro x hx
      split at hx
      · obtain rfl := List.mem_singleton.1 hx
        exact leadingComment_fragmentMark
      · cases hx
    rw [htext, extractFrom_leading hmark hhead, hus, hfound]

end Rule

end GrammarText.Antlr
