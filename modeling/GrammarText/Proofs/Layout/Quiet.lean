import GrammarText.Proofs.Layout.Comments
import GrammarText.Proofs.Rule.Extraction

/-!
# Documents without rules

A document has no rule if nowhere, whitespace aside, an identifier stands in front of the defining sign
(`extractFrom_eq_nil_iff`). A text of closed tokens that has no rule has none after its blanks were thinned:
thinning drops blank characters that stand for themselves, and leaves every other token a token of its
kind (`Quiet.thin`).
-/

namespace GrammarText

/-- Whether no identifier stands directly in front of the defining sign. -/
def noRule : List Token → Bool
  | t :: u :: ts => !(t.kind == .identifier && u.isOp definingSign) && noRule (u :: ts)
  | _ => true

theorem noRule_dense_cons (t : Token) (ts : List Token) :
    noRule (dense (t :: ts)) = (!startsRule t ts && noRule (dense ts)) := by
  by_cases hw : t.kind = .whitespace
  · simp [dense_cons_whitespace hw, startsRule_eq, hw]
  · rw [dense_cons hw, startsRule_eq]
    cases dense ts with
    | nil => simp [noRule]
    | cons u us => simp [noRule]

/-- Rules are found exactly where an identifier stands in front of the defining sign. -/
theorem extractFrom_eq_nil_iff (pending : List Text) (ts : List Token) :
    extractFrom pending ts = [] ↔ noRule (dense ts) = true := by
  induction ts generalizing pending with
  | nil => simp [noRule]
  | cons t ts ih =>
    rw [noRule_dense_cons, Bool.and_eq_true, Bool.not_eq_true']
    rcases extractFrom_cases pending t ts with ⟨hk, heq⟩ | ⟨body, hk, ha, heq⟩ | ⟨-, hs, heq⟩
    · have hs : startsRule t ts = false := by simp [startsRule, hk]
      rw [heq, ih]
      simp [hs]
    · have hs : startsRule t ts = true := by simp [startsRule, hk, ha]
      simp [heq, hs]
    · rw [heq, ih]
      simp [hs]

theorem noRule_of_append {ts us : List Token} (h : noRule (ts ++ us) = true) : noRule us = true := by
  induction ts with
  | nil => exact h
  | cons t ts ih =>
    apply ih
    cases hts : ts ++ us with
    | nil => rfl
    | cons u vs =>
      rw [List.cons_append, hts, noRule, Bool.and_eq_true] at h
      exact h.2

/-! ### Thinned sequences of tokens -/

/-- The second sequence has the tokens of the first, changed in their texts only, without some identifiers. -/
inductive Thinned : List Token → List Token → Prop where
  | nil : Thinned [] []
  | keep {t t' : Token} {ts ts' : List Token} (hk : t'.kind = t.kind)
      (ho : t'.isOp definingSign = t.isOp definingSign) (h : Thinned ts ts') : Thinned (t :: ts) (t' :: ts')
  | drop {t : Token} {ts ts' : List Token} (hk : t.kind = .identifier) (h : Thinned ts ts') : Thinned (t :: ts) ts'

/-- A defining sign at the beginning was there before, unless it had an identifier in front of it. -/
theorem Thinned.head_sign {ts us : List Token} {u : Token} (h : Thinned ts (u :: us)) (hn : noRule ts = true)
    (hu : u.isOp definingSign = true) : ∃ v vs, ts = v :: vs ∧ v.isOp definingSign = true := by
  generalize hus : u :: us = us' at h
  induction h with
  | nil => cases hus
  | keep hk ho h =>
    cases hus
    exact ⟨_, _, rfl, ho ▸ hu⟩
  | @drop t ts ts' hk h ih =>
    cases ts with
    | nil =>
      subst hus
      cases h
    | cons v vs =>
      rw [noRule, Bool.and_eq_true] at hn
      obtain ⟨v', vs', hv, hsign⟩ := ih hn.2 hus
      cases hv
      simp [hk, hsign] at hn

theorem noRule_thinned {ts ts' : List Token} (h : Thinned ts ts') (hn : noRule ts = true) : noRule ts' = true := by
  induction h with
  | nil => rfl
  | @keep t t' ts ts' hk ho h ih =>
    have hts : noRule ts = true := @noRule_of_append [t] _ hn
    cases ts' with
    | nil => rfl
    | cons u us =>
      rw [noRule, ih hts, Bool.and_true, Bool.not_eq_true', Bool.and_eq_false_iff]
      cases hu : u.isOp definingSign with
      | false => exact .inr rfl
      | true =>
        obtain ⟨v, vs, rfl, hv⟩ := h.head_sign hts hu
        simp only [noRule, hv, Bool.and_true, Bool.and_eq_true, Bool.not_eq_true'] at hn
        rw [hk]
        exact .inl hn.1
  | @drop t ts ts' hk h ih => exact ih (@noRule_of_append [t] _ hn)

/-! ### Thinning a text -/

section Apart

variable {c : Char} {rest rest' : Text}

/-- A sign keeps its end if nothing but spaces came to stand behind it. -/
theorem KeepsSign.of_isPrefix (h : KeepsSign .ebnf [c] rest)
    (hp : ∀ p : Text, (∀ x ∈ p, isSpace x = false) → p <+: rest' → p <+: rest) : KeepsSign .ebnf [c] rest' := by
  have hhead : ∀ x, isSpace x = false → rest'.head? = some x → ∃ z, rest = x :: z := by
    intro x hx hh
    obtain ⟨z, hz⟩ := List.head?_eq_some_iff.1 hh
    obtain ⟨z', hz'⟩ := hp [x] (by simpa using hx) ⟨z, hz.symm⟩
    exact ⟨z', hz'.symm⟩
  refine keepsSign_ebnf ?_ ?_ ?_
  · rintro rfl hh
    obtain ⟨z, rfl⟩ := hhead '*' (by decide) hh
    cases h.1
  · rintro rfl
    constructor
    · intro hh
      obtain ⟨z, rfl⟩ := hhead '*' (by decide) hh
      cases h.1
    · intro hh
      obtain ⟨z, rfl⟩ := hhead '/' (by decide) hh
      cases h.1
  · rintro rfl hh
    obtain ⟨z, rfl⟩ := hp [':', '='] (by simp [isSpace]) hh
    have := h.2 [':', ':', '='] (by decide) ⟨z, rfl⟩
    cases this

theorem isSpace_eq_false_of_isNamePart (h : isNamePart c = true) : isSpace c = false := by
  cases hs : isSpace c with
  | false => rfl
  | true =>
    have hb := isBlank_of_isSpace hs
    rw [isBlank_of_isNamePart h] at hb
    cases hb

/-- Signs and words end where they did if nothing but spaces came to stand behind them. -/
theorem Apart.of_isPrefix {k : TokenKind} {x : Text} (hl : Lexeme .ebnf k x) (hk : k = .operator ∨ k = .identifier)
    (h : Apart .ebnf k x rest) (hp : ∀ p : Text, (∀ x ∈ p, isSpace x = false) → p <+: rest' → p <+: rest) :
    Apart .ebnf k x rest' := by
  cases hl with
  | longOperator hm => exact keepsSign_longOperator hm
  | shortOperator => exact KeepsSign.of_isPrefix h hp
  | word hc =>
    refine ⟨keepsSign_word hc, fun hn y hy => ?_⟩
    cases hy' : isNamePart y with
    | false => rfl
    | true =>
      obtain ⟨z, hz⟩ := List.head?_eq_some_iff.1 hy
      obtain ⟨z', rfl⟩ := hp [y] (by simpa using isSpace_eq_false_of_isNamePart hy') ⟨z, hz.symm⟩
      rw [h.2 hn y rfl] at hy'
      cases hy'
  | stray hc =>
    refine ⟨KeepsSign.of_isPrefix h.1 hp, fun hn => ?_⟩
    simp only [List.head?_cons, Option.any_some] at hn
    simp [isStray, hn] at hc
  | _ => simp at hk

end Apart

theorem isClosed_of_whitespace {t : Token} (h : t.kind = .whitespace) : t.isClosed = true := by
  simp [Token.isClosed, h]

theorem isClosed_of_lexeme {k : TokenKind} {x : Text} (h : Lexeme .ebnf k x) :
    Token.isClosed ⟨k, x, {}⟩ = true := by
  cases h with
  | literal _ h => exact h
  | charClass h => exact h
  | action hd => cases hd
  | starred _ h => exact h
  | slashed h => exact h
  | _ => rfl

/-- A run of spaces adds nothing to the tokens but whitespace. -/
theorem dense_lexemes_spaces {g : Text} (hg : ∀ x ∈ g, isSpace x = true) (s : Text) :
    dense (lexemes .ebnf (g ++ s)) = dense (lexemes .ebnf s) ∧
      ((∀ t ∈ lexemes .ebnf s, t.isClosed = true) → ∀ t ∈ lexemes .ebnf (g ++ s), t.isClosed = true) := by
  have hdense : ∀ {ws : List Token}, (∀ t ∈ ws, t.kind = .whitespace) → dense ws = [] := by
    intro ws hws
    simpa [dense] using hws
  obtain ⟨ws, ws', us, hws, hws', heq, heq'⟩ := lexemes_spaces (d := .ebnf) hg s
  rw [heq, heq']
  refine ⟨by rw [dense_append, dense_append, hdense hws, hdense hws'], fun hcl t ht => ?_⟩
  rcases List.mem_append.1 ht with ht | ht
  · exact isClosed_of_whitespace (hws t ht)
  · exact hcl t (List.mem_append_right _ ht)

/-- What thinning leaves of a token: whitespace stays whitespace or goes, a blank that stands for itself may
go, and every other token is still a token of its kind that ends where it did. -/
theorem thin_token {k : TokenKind} {x x' rest rest' after : Text} (hl : Lexeme .ebnf k x)
    (hap : Apart .ebnf k x rest) (hx : Thin (rest' ++ after) x x') (hr : Thin after rest rest')
    (ha : ∀ d ∈ after.head?, d = '\n') :
    (k = .whitespace ∧ ∀ y ∈ x', isSpace y = true) ∨ (k = .identifier ∧ x' = []) ∨
      (k ≠ .whitespace ∧ Lexeme .ebnf k x' ∧ Apart .ebnf k x' (rest' ++ after) ∧ (k = .operator → x' = x)) := by
  have hprefix : ∀ p : Text, (∀ y ∈ p, isSpace y = false) → p <+: rest' ++ after → p <+: rest :=
    fun p hp hpre => prefix_of_thin hr (fun d hd => ha d hd ▸ rfl) hp hpre
  have hplain : (k = .operator ∨ k = .identifier) → x' = x →
      k ≠ .whitespace ∧ Lexeme .ebnf k x' ∧ Apart .ebnf k x' (rest' ++ after) ∧ (k = .operator → x' = x) := by
    rintro hk rfl
    exact ⟨by rcases hk with rfl | rfl <;> decide, hl, hap.of_isPrefix hl hk hprefix, fun _ => rfl⟩
  by_cases hk : k = .literal ∨ k = .charClass ∨ k = .comment
  · obtain ⟨hx', hline⟩ := hl.thin hk hx
    refine .inr (.inr ⟨?_, hx', ?_, ?_⟩)
    · rcases hk with rfl | rfl | rfl <;> decide
    · rcases hk with rfl | rfl | rfl
      · trivial
      · trivial
      · exact fun hp => hr.head_newline ha (hap (hline hp))
    · rcases hk with rfl | rfl | rfl <;> simp
  · cases hl with
    | literal | charClass | starred | slashed | line => simp at hk
    | action hd => cases hd
    | longOperator h =>
      exact .inr (.inr (hplain (.inl rfl) (hx.eq_of_not_blank (operator_not_blank (.longOperator h)))))
    | shortOperator h =>
      exact .inr (.inr (hplain (.inl rfl) (hx.eq_of_not_blank (operator_not_blank (.shortOperator h)))))
    | word hc h => exact .inr (.inr (hplain (.inr rfl) (hx.eq_of_not_blank (word_not_blank hc h))))
    | @space c r hc h =>
      refine .inl ⟨rfl, hx.forall (fun y hy => ?_) fun _ => rfl⟩
      rcases List.mem_cons.1 hy with rfl | hy
      · exact hc
      · exact h y hy
    | @stray c hc =>
      cases hx with
      | keep h =>
        cases h
        exact .inr (.inr (hplain (.inr rfl) rfl))
      | tab => cases hc
      | drop _ _ _ h =>
        cases h
        exact .inr (.inl ⟨rfl, rfl⟩)

/-- The tokens of a thinned text. -/
theorem thinned_lexemes {after s s' : Text} (ha : ∀ d ∈ after.head?, d = '\n') (hsp : ∀ x ∈ after, isSpace x = true)
    (hcl : ∀ t ∈ lexemes .ebnf s, t.isClosed = true) (h : Thin after s s') :
    (∀ t ∈ lexemes .ebnf (s' ++ after), t.isClosed = true) ∧
      Thinned (dense (lexemes .ebnf s)) (dense (lexemes .ebnf (s' ++ after))) := by
  generalize hts : lexemes .ebnf s = ts at hcl
  induction ts generalizing s s' with
  | nil =>
    have hnil : s = [] := by
      have := spelling_lexemes .ebnf s
      rw [hts] at this
      exact this.symm
    subst hnil
    cases h with
    | nil =>
      have hrun := dense_lexemes_spaces hsp []
      rw [List.append_nil, lexemes_nil] at hrun
      rw [List.nil_append, hrun.1]
      exact ⟨hrun.2 (by simp), .nil⟩
  | cons t ts ih =>
    obtain ⟨rest, rfl, hrest, hspec⟩ := lexemes_eq_cons hts
    obtain ⟨hl, hap⟩ := hspec (hcl t List.mem_cons_self)
    obtain ⟨x, r, rfl, hx, hr⟩ := h.split
    obtain ⟨hcl', hth⟩ := ih hr hrest.symm fun u hu => hcl u (List.mem_cons_of_mem _ hu)
    rw [List.append_assoc]
    rcases thin_token hl hap hx hr ha with ⟨hk, hspace⟩ | ⟨hk, rfl⟩ | ⟨hk, hx', hap', hop⟩
    · obtain ⟨hd, hc⟩ := dense_lexemes_spaces hspace (r ++ after)
      rw [hd, dense_cons_whitespace hk]
      exact ⟨hc hcl', hth⟩
    · rw [List.nil_append, dense_cons (by simp [hk])]
      exact ⟨hcl', .drop hk hth⟩
    · have hsign : Token.isOp ⟨t.kind, x, {}⟩ definingSign = t.isOp definingSign := by
        by_cases ho : t.kind = .operator
        · rw [hop ho]
          rfl
        · rw [isOp_eq_false ho, isOp_eq_false (show (⟨t.kind, x, {}⟩ : Token).kind ≠ _ from ho)]
      rw [lexemes_append hx' hap', dense_cons hk, dense_cons (show (⟨t.kind, x, {}⟩ : Token).kind ≠ _ from hk)]
      refine ⟨fun u hu => ?_, .keep rfl hsign hth⟩
      rcases List.mem_cons.1 hu with rfl | hu
      · exact isClosed_of_lexeme hx'
      · exact hcl' u hu

/-! ### Quiet texts -/

/-- A text of closed tokens without rules. -/
structure Quiet (s : Text) : Prop where
  closed : ∀ t ∈ lexemes .ebnf s, t.isClosed = true
  noRule : noRule (dense (lexemes .ebnf s)) = true

theorem Quiet.thin {after s s' : Text} (hs : Quiet s) (ha : ∀ d ∈ after.head?, d = '\n')
    (hsp : ∀ x ∈ after, isSpace x = true) (h : Thin after s s') : Quiet (s' ++ after) := by
  obtain ⟨hcl, hth⟩ := thinned_lexemes ha hsp hs.closed h
  exact ⟨hcl, noRule_thinned hth hs.noRule⟩

/-- What begins with a blank is whitespace or that blank. -/
theorem forall_isBlank {k : TokenKind} {x : Text} (h : Lexeme .ebnf k x) (hx : ∃ c ∈ x.head?, isBlank c = true) :
    ∀ y ∈ x, isBlank y = true := by
  obtain ⟨c, hc, hb⟩ := hx
  cases h with
  | literal hm =>
    cases hc
    rcases hm with rfl | rfl <;> cases hb
  | action hd => cases hd
  | charClass | starred | slashed | line =>
    cases hc
    cases hb
  | longOperator h =>
    rw [operator_not_blank (.longOperator h) c (List.mem_of_mem_head? hc)] at hb
    cases hb
  | shortOperator h =>
    rw [operator_not_blank (.shortOperator h) c (List.mem_of_mem_head? hc)] at hb
    cases hb
  | word hn hr =>
    rw [word_not_blank hn hr c (List.mem_of_mem_head? hc)] at hb
    cases hb
  | space hs hr =>
    intro y hy
    rcases List.mem_cons.1 hy with rfl | hy
    · exact isBlank_of_isSpace hs
    · exact isBlank_of_isSpace (hr y hy)
  | stray =>
    cases hc
    intro y hy
    obtain rfl := List.mem_singleton.1 hy
    exact hb

theorem Quiet.lstrip {s : Text} (h : Quiet s) : Quiet (lstrip s) := by
  generalize hts : lexemes .ebnf s = ts
  induction ts generalizing s with
  | nil =>
    have hnil : s = [] := by
      have := spelling_lexemes .ebnf s
      rw [hts] at this
      exact this.symm
    subst hnil
    exact h
  | cons t ts ih =>
    obtain ⟨hcl, hn⟩ := h
    rw [hts] at hcl hn
    obtain ⟨rest, rfl, hrest, hspec⟩ := lexemes_eq_cons hts
    obtain ⟨hl, -⟩ := hspec (hcl t List.mem_cons_self)
    by_cases hb : ∃ c ∈ t.text.head?, isBlank c = true
    · have hquiet : Quiet rest := by
        subst hrest
        refine ⟨fun u hu => hcl u (List.mem_cons_of_mem _ hu), ?_⟩
        have hd : dense (t :: lexemes .ebnf rest) = dense [t] ++ dense (lexemes .ebnf rest) := dense_append [t] _
        rw [hd] at hn
        exact noRule_of_append hn
      rw [lstrip_append (forall_isBlank hl hb)]
      exact ih hquiet hrest.symm
    · obtain ⟨c, r, hc⟩ := List.exists_cons_of_ne_nil hl.ne_nil
      have hcb : ¬isBlank c = true := fun hcb => hb ⟨c, by rw [hc]; rfl, hcb⟩
      have hself : GrammarText.lstrip (t.text ++ rest) = t.text ++ rest := by
        rw [hc, List.cons_append, GrammarText.lstrip, List.dropWhile_cons_of_neg hcb]
      rw [hself]
      rw [← hts] at hcl hn
      exact ⟨hcl, hn⟩

/-- A text without rules has none after its whitespace was normalized. -/
theorem Quiet.normalizeWhitespace {s : Text} (h : Quiet s) : Quiet (normalizeWhitespace s) := by
  have hsqueezed := @Quiet.thin [] _ _ h (by simp) (by simp) (thin_squeezeGaps s)
  rw [List.append_nil] at hsqueezed
  have hstripped := @Quiet.thin [] _ _ hsqueezed.lstrip (by simp) (by simp) (thin_rstrip _)
  rwa [List.append_nil] at hstripped

end GrammarText
