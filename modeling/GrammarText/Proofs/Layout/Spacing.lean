import GrammarText.Proofs.Layout.Groups
import GrammarText.Proofs.Scan.Boundary

/-!
# Spacing keeps tokens apart

A layout glues the tokens of a word without a space. In EBNF only few neighbours run together that way:
an opening parenthesis with a star, two slashes, a slash with a star, and the three signs of which the
defining sign consists. Where no such neighbours stand in a sequence of tokens (`keepsApart`), every
word of its layout scans to the tokens that it was made of (`solid_of_mem_wordGroups`).
-/

namespace GrammarText

/-- Whether the token is the given character, which no form covers. -/
def Token.isLone (t : Token) (c : Char) : Bool :=
  t.kind == .identifier && t.text == [c]

/-- Whether the first tokens would be read as something else with nothing in between. -/
def runsTogether : List Token → Bool
  | t :: u :: ts =>
    (t.isOp ['('] && u.isOp ['*']) || (t.isLone '/' && (u.isLone '/' || u.isOp ['*'])) ||
      (t.isLone ':' && u.isLone ':' && ts.head?.any (·.isLone '='))
  | _ => false

/-- Whether nowhere in the sequence neighbours would be read as something else with nothing in between. -/
def keepsApart : List Token → Bool
  | [] => true
  | t :: ts => !runsTogether (t :: ts) && keepsApart ts

theorem runsTogether_append {ts us : List Token} (h : runsTogether ts = true) :
    runsTogether (ts ++ us) = true := by
  match ts with
  | t :: u :: v :: ts => exact h
  | [t, u] =>
    cases us with
    | nil => exact h
    | cons v us =>
      simp only [runsTogether, List.head?_nil, Option.any_none, Bool.and_false, Bool.or_false, List.cons_append,
        List.nil_append] at h ⊢
      rw [h, Bool.true_or]

theorem keepsApart_of_append {ts us : List Token} (h : keepsApart (ts ++ us) = true) :
    keepsApart ts = true ∧ keepsApart us = true := by
  induction ts with
  | nil => exact ⟨rfl, h⟩
  | cons t ts ih =>
    simp only [List.cons_append, keepsApart, Bool.and_eq_true, Bool.not_eq_true'] at h ⊢
    obtain ⟨hr, hts⟩ := h
    refine ⟨⟨?_, (ih hts).1⟩, (ih hts).2⟩
    cases hrt : runsTogether (t :: ts) with
    | false => rfl
    | true =>
      have := @runsTogether_append _ us hrt
      rw [List.cons_append, hr] at this
      cases this

theorem keepsApart_of_isInfix {ts us : List Token} (hi : ts <:+: us) (h : keepsApart us = true) :
    keepsApart ts = true := by
  obtain ⟨before, after, rfl⟩ := hi
  exact (keepsApart_of_append (keepsApart_of_append h).1).2

@[simp] theorem Token.isLone_tidy (t : Token) (c : Char) : t.tidy.isLone c = t.isLone c := by
  by_cases h : t.kind = .comment
  · simp only [Token.isLone, Token.kind_tidy, h]
    rfl
  · rw [Token.tidy_of_not_comment h]

/-- Changing tokens so that signs stay what they are changes no neighbours. -/
theorem keepsApart_map {f : Token → Token} (ho : ∀ t s, (f t).isOp s = t.isOp s)
    (hl : ∀ t c, (f t).isLone c = t.isLone c) (ts : List Token) : keepsApart (ts.map f) = keepsApart ts := by
  induction ts with
  | nil => rfl
  | cons t ts ih =>
    have hr : runsTogether ((t :: ts).map f) = runsTogether (t :: ts) := by
      match ts with
      | [] => rfl
      | [u] => simp [runsTogether, ho, hl]
      | u :: v :: ts => simp [runsTogether, ho, hl]
    rw [List.map_cons] at hr ⊢
    rw [keepsApart, keepsApart, hr, ih]

/-! ### What a lexeme of EBNF begins with -/

/-- A sign that can run together with its neighbours is a token of its own, the beginning of a comment, or
the beginning of the defining sign. -/
theorem eq_of_head_sign {k : TokenKind} {c : Char} {r : Text} (hc : c ∈ ['*', '/', ':', '='])
    (h : Lexeme .ebnf k (c :: r)) :
    k = .comment ∨ c :: r = definingSign ∨ r = [] ∧ k = if c = '*' then .operator else .identifier := by
  have hstart : isNameStart c = false ∧ isSpace c = false ∧ c ≠ '\'' ∧ c ≠ '"' ∧ c ≠ '[' := by
    simp only [List.mem_cons, List.mem_nil_iff, or_false] at hc
    rcases hc with rfl | rfl | rfl | rfl <;> decide
  obtain ⟨hname, hspace, h1, h2, h3⟩ := hstart
  cases h with
  | literal hm => exact absurd hm (by simp [h1, h2])
  | charClass => exact absurd rfl h3
  | action hd => cases hd
  | starred | slashed | line => exact .inl rfl
  | longOperator h => exact .inr (.inl (by simpa [Dialect.longOperators, definingSign] using h))
  | shortOperator h =>
    refine .inr (.inr ⟨rfl, ?_⟩)
    simp only [List.mem_cons, List.mem_nil_iff, or_false] at hc
    rcases hc with rfl | rfl | rfl | rfl
    · rfl
    all_goals simp [Dialect.shortOperators] at h
  | word hc => simp [hname] at hc
  | space hc => simp [hspace] at hc
  | stray h =>
    refine .inr (.inr ⟨rfl, ?_⟩)
    by_cases hs : c = '*'
    · subst hs
      cases h
    · rw [if_neg hs]

theorem isLetter_of_isNameStart {c : Char} (h : isNameStart c = true) : (isLetter c || c == '_') = true := by
  rw [isNameStart, Bool.or_eq_true] at h
  rcases h with h | h
  · rw [h, Bool.or_true]
  · have hn := (isAlpha_iff c).1 h
    have hl : isLetter c = true := by
      rw [isLetter, letterRuns, inRuns]
      split
      · rw [inRuns, if_neg (by omega), decide_eq_true_eq]
        omega
      · rw [decide_eq_true_eq]
        omega
    rw [hl, Bool.true_or]

/-! ### Glued tokens -/

section Glue

variable {t u : Token} {g : List Token} {rest : Text}

/-- A token other than a comment that begins like a sign is that sign. -/
theorem sign_of_head {c : Char} (hu : Lexeme .ebnf u.kind u.text) (hk : u.kind ≠ .comment)
    (hc : c ∈ ['*', '/', ':', '=']) (hd : u.text ≠ definingSign) (h : (u.text ++ rest).head? = some c) :
    if c = '*' then u.isOp ['*'] = true else u.isLone c = true := by
  obtain ⟨y, r, hy⟩ := List.exists_cons_of_ne_nil hu.ne_nil
  obtain rfl : y = c := by simpa [hy] using h
  rw [hy] at hu
  rcases eq_of_head_sign hc hu with hcom | hdef | ⟨rfl, hkind⟩
  · exact absurd hcom hk
  · exact absurd (hy.trans hdef) hd
  · split
    · rename_i hs
      simp [Token.isOp, hkind, hy, hs]
    · rename_i hs
      simp [Token.isLone, hkind, hy, hs]

/-- The defining sign begins with a colon. -/
theorem ne_definingSign_of_head {c : Char} (hc : c ≠ ':') (h : (u.text ++ rest).head? = some c) :
    u.text ≠ definingSign := by
  intro hd
  rw [hd] at h
  exact hc (Option.some.inj h).symm

/-- The rest of a defining sign would need a colon and an equals sign of their own. -/
theorem not_definingSign_tail (hg : ∀ v ∈ u :: g, Lexeme .ebnf v.kind v.text ∧ v.kind ≠ .comment)
    (hr : (u.isLone ':' && g.head?.any (·.isLone '=')) = false) (hrest : ∀ x ∈ rest.head?, isSpace x = true) :
    ¬[':', '='] <+: u.text ++ (spelling g ++ rest) := by
  rintro ⟨s, hs⟩
  obtain ⟨hu, huc⟩ := hg u List.mem_cons_self
  have hdef : u.text ≠ definingSign := by
    intro hd
    simp [hd, definingSign] at hs
  have hl : u.isLone ':' = true := sign_of_head hu huc (by decide) hdef (show _ = some ':' by rw [← hs]; rfl)
  have hut : u.text = [':'] := by
    simp only [Token.isLone, Bool.and_eq_true, beq_iff_eq] at hl
    exact hl.2
  have hhead : (spelling g ++ rest).head? = some '=' := by
    rw [hut] at hs
    simp only [List.cons_append, List.nil_append, List.cons.injEq, true_and] at hs
    rw [← hs]
    rfl
  cases g with
  | nil => exact absurd (hrest '=' hhead) (by decide)
  | cons v g =>
    obtain ⟨hv, hvc⟩ := hg v (by simp)
    have hhead' : (v.text ++ (spelling g ++ rest)).head? = some '=' := by
      simpa [spelling] using hhead
    have hlv : v.isLone '=' = true :=
      sign_of_head hv hvc (by decide) (ne_definingSign_of_head (by decide) hhead') hhead'
    rw [hl, List.head?_cons, Option.any_some, hlv] at hr
    cases hr

/-- The operators that are glued to what stands before them do not go on a word. -/
theorem head_of_isOneOf (h : u.isOneOf [[')'], ['?'], ['*'], ['+'], [',']] = true) :
    ∀ x ∈ (u.text ++ rest).head?, isNamePart x = false := by
  simp only [Token.isOneOf, Token.isOp, List.any_cons, List.any_nil, Bool.or_false, Bool.or_eq_true,
    Bool.and_eq_true, beq_iff_eq] at h
  rcases h with ⟨-, h⟩ | ⟨-, h⟩ | ⟨-, h⟩ | ⟨-, h⟩ | ⟨-, h⟩ <;> simp [h] <;> decide

/-- A token that the next one is glued to ends where it does. -/
theorem apart_glued (ht : Lexeme .ebnf t.kind t.text) (htc : t.kind ≠ .comment) (htw : t.kind ≠ .whitespace)
    (hg : ∀ v ∈ u :: g, Lexeme .ebnf v.kind v.text ∧ v.kind ≠ .comment) (hglue : needsSpace (some t) u = false)
    (hr : runsTogether (t :: u :: g) = false) (hrest : ∀ x ∈ rest.head?, isSpace x = true) :
    Apart .ebnf t.kind t.text (u.text ++ (spelling g ++ rest)) := by
  obtain ⟨hu, huc⟩ := hg u List.mem_cons_self
  simp only [runsTogether, Bool.or_eq_false_iff] at hr
  obtain ⟨⟨hparen, hslash⟩, hcolon⟩ := hr
  have hstar : (u.text ++ (spelling g ++ rest)).head? = some '*' → u.isOp ['*'] = true :=
    fun h => sign_of_head hu huc (by decide) (ne_definingSign_of_head (by decide) h) h
  have hlone : (u.text ++ (spelling g ++ rest)).head? = some '/' → u.isLone '/' = true :=
    fun h => sign_of_head hu huc (by decide) (ne_definingSign_of_head (by decide) h) h
  obtain ⟨k, x, p⟩ := t
  simp only at ht htc htw
  cases ht with
  | literal | charClass => trivial
  | action hd => cases hd
  | starred | slashed | line => exact absurd rfl htc
  | space => exact absurd rfl htw
  | longOperator h => exact keepsSign_longOperator h
  | @shortOperator c h =>
    refine keepsSign_ebnf ?_ ?_ ?_
    · rintro rfl hs
      rw [hstar hs] at hparen
      simp [Token.isOp] at hparen
    · rintro rfl
      simp [Dialect.shortOperators] at h
    · rintro rfl
      simp [Dialect.shortOperators] at h
  | @word c r hc h =>
    refine ⟨keepsSign_word hc, fun _ => head_of_isOneOf ?_⟩
    simpa [needsSpace, Token.isOp, Token.isPunctuation, isLetter_of_isNameStart hc] using hglue
  | @stray c hc =>
    refine ⟨keepsSign_ebnf ?_ ?_ ?_, fun hn => ?_⟩
    · rintro rfl
      cases hc
    · rintro rfl
      constructor
      · intro hs
        rw [hstar hs] at hslash
        simp [Token.isLone] at hslash
      · intro hs
        rw [hlone hs] at hslash
        simp [Token.isLone] at hslash
    · rintro rfl
      exact not_definingSign_tail hg (by simpa [Token.isLone] using hcolon) hrest
    · simp only [List.head?_cons, Option.any_some] at hn
      simp [isStray, hn] at hc

end Glue

/-! ### Words -/

/-- A token that can stand in a word: complete, and no whitespace. -/
structure Written (t : Token) : Prop where
  lexeme : Lexeme .ebnf t.kind t.text
  bare : t.bare = t
  ne_whitespace : t.kind ≠ .whitespace

theorem Written.lexemes_append {t : Token} {rest : Text} (h : Written t) (ha : Apart .ebnf t.kind t.text rest) :
    lexemes .ebnf (t.text ++ rest) = t :: lexemes .ebnf rest := by
  rw [GrammarText.lexemes_append h.lexeme ha, show (⟨t.kind, t.text, {}⟩ : Token) = t from h.bare]

/-- The tokens of a word that is read as them wherever a gap follows. A line comment ends with its line. -/
structure Solid (g : List Token) : Prop where
  ne_nil : g ≠ []
  written : ∀ t ∈ g, Written t
  reads : ∀ rest : Text, (∀ x ∈ rest.head?, isSpace x = true) →
    (['/', '/'] <+: spelling g → ∀ x ∈ rest.head?, x = '\n') → lexemes .ebnf (spelling g ++ rest) = g ++ lexemes .ebnf rest

/-- A word begins with no space. -/
theorem Solid.starts {g : List Token} (h : Solid g) : ∃ c r, spelling g = c :: r ∧ isSpace c = false := by
  obtain ⟨t, g', rfl⟩ := List.exists_cons_of_ne_nil h.ne_nil
  have ht := h.written t List.mem_cons_self
  obtain ⟨c, r, hc, hsp⟩ := ht.lexeme.starts ht.ne_whitespace
  exact ⟨c, r ++ spelling g', by simp [spelling, hc], hsp⟩

theorem Solid.dense_eq {g : List Token} (h : Solid g) : dense g = g :=
  dense_eq_self fun t ht => (h.written t ht).ne_whitespace

theorem solid_singleton {t : Token} (h : Written t) : Solid [t] where
  ne_nil := List.cons_ne_nil _ _
  written := by simpa using h
  reads := by
    intro rest hgap hline
    have hs : spelling [t] = t.text := by simp [spelling]
    rw [hs] at hline ⊢
    exact h.lexemes_append (apart_of_gap h.lexeme h.ne_whitespace hgap fun _ => hline)

section Words

variable {g ts : List Token} {line : List (List Token)}

/-- Glued tokens, none a comment, are read as they are. -/
theorem lexemes_glued (hw : ∀ t ∈ g, Written t) (hc : ∀ t ∈ g, t.kind ≠ .comment)
    (hglue : g.IsChain fun t u => needsSpace (some t) u = false) (ha : keepsApart g = true) (rest : Text)
    (hgap : ∀ x ∈ rest.head?, isSpace x = true) :
    lexemes .ebnf (spelling g ++ rest) = g ++ lexemes .ebnf rest := by
  induction g with
  | nil => rfl
  | cons t g ih =>
    have ht := hw t List.mem_cons_self
    have htc := hc t List.mem_cons_self
    have hrest := ih (fun u hu => hw u (List.mem_cons_of_mem _ hu)) (fun u hu => hc u (List.mem_cons_of_mem _ hu))
      hglue.tail (keepsApart_of_append (show keepsApart ([t] ++ g) = true from ha)).2
    have hapart : Apart .ebnf t.kind t.text (spelling g ++ rest) := by
      cases g with
      | nil => exact apart_of_gap ht.lexeme ht.ne_whitespace hgap fun hk => absurd hk htc
      | cons u g =>
        have hr : runsTogether (t :: u :: g) = false := by
          rw [keepsApart, Bool.and_eq_true, Bool.not_eq_true'] at ha
          exact ha.1
        have hg : ∀ v ∈ u :: g, Lexeme .ebnf v.kind v.text ∧ v.kind ≠ .comment :=
          fun v hv => ⟨(hw v (List.mem_cons_of_mem _ hv)).lexeme, hc v (List.mem_cons_of_mem _ hv)⟩
        have := apart_glued ht.lexeme htc ht.ne_whitespace hg hglue.rel hr hgap
        simpa [spelling] using this
    have hspell : spelling (t :: g) ++ rest = t.text ++ (spelling g ++ rest) := by
      simp [spelling]
    rw [hspell, ht.lexemes_append hapart, hrest]
    rfl

/-- Glued tokens, none a comment, do not begin like a line comment. -/
theorem not_line_of_glued (hw : ∀ t ∈ g, Written t) (hc : ∀ t ∈ g, t.kind ≠ .comment)
    (ha : keepsApart g = true) : ¬['/', '/'] <+: spelling g := by
  rintro ⟨s, hs⟩
  match g with
  | [] => cases hs
  | t :: g =>
    have ht := hw t List.mem_cons_self
    have hsl : ∀ {v : Token} {vs : List Token}, Written v → v.kind ≠ .comment →
        (spelling (v :: vs)).head? = some '/' → v.isLone '/' = true := by
      intro v vs hv hvc hh
      change (v.text ++ spelling vs).head? = some '/' at hh
      exact sign_of_head hv.lexeme hvc (by decide) (ne_definingSign_of_head (by decide) hh) hh
    have htl : t.isLone '/' = true := hsl ht (hc t List.mem_cons_self) (by rw [← hs]; rfl)
    have htt : t.text = ['/'] := by
      simp only [Token.isLone, Bool.and_eq_true, beq_iff_eq] at htl
      exact htl.2
    have hg : (spelling g).head? = some '/' := by
      have : t.text ++ spelling g = ['/', '/'] ++ s := hs.symm
      rw [htt] at this
      simp only [List.cons_append, List.nil_append, List.cons.injEq, true_and] at this
      rw [this]
      rfl
    cases g with
    | nil => cases hg
    | cons u g =>
      have hul := hsl (hw u (by simp)) (hc u (by simp)) hg
      simp [keepsApart, runsTogether, htl, hul] at ha

/-- A line of groups is read as its tokens, word for word. -/
theorem solid_of_groupLine (h : GroupLine line) (hg : g ∈ line) (hw : ∀ t ∈ g, Written t)
    (ha : keepsApart g = true) : Solid g := by
  by_cases hc : ∃ t ∈ g, t.kind = .comment
  · obtain ⟨t, ht, hk⟩ := hc
    rw [h.alone g hg t ht hk] at hg
    obtain rfl := List.mem_singleton.1 hg
    exact solid_singleton (hw t ht)
  · have hc' : ∀ t ∈ g, t.kind ≠ .comment := fun t ht hk => hc ⟨t, ht, hk⟩
    exact ⟨(h.groups g hg).1, hw, fun rest hgap _ => lexemes_glued hw hc' (h.groups g hg).2 ha rest hgap⟩

theorem infix_of_mem_wordGroups (hl : line ∈ wordGroups ts) (hg : g ∈ line) : g <:+: ts := by
  have hm : g ∈ (wordGroups ts).flatten := List.mem_flatten.2 ⟨line, hl, hg⟩
  obtain ⟨before, after, h⟩ := List.append_of_mem hm
  have hf := flatten_wordGroups ts
  rw [h, List.flatten_append, List.flatten_cons] at hf
  exact ⟨before.flatten, after.flatten, by rw [← hf, List.append_assoc]⟩

/-- Every word of a layout is read as its tokens. -/
theorem solid_of_mem_wordGroups (hw : ∀ t ∈ ts, Written t) (ha : keepsApart ts = true)
    (hl : line ∈ wordGroups ts) (hg : g ∈ line) : Solid g := by
  have hi := infix_of_mem_wordGroups hl hg
  exact solid_of_groupLine (wordGroups_spec ts line hl) hg (fun t ht => hw t (hi.subset ht)) (keepsApart_of_isInfix hi ha)

/-- A word that begins like a line comment is one, and stands alone in its line. -/
theorem eq_of_line (hw : ∀ t ∈ ts, Written t) (ha : keepsApart ts = true) (hl : line ∈ wordGroups ts)
    (hg : g ∈ line) (hp : ['/', '/'] <+: spelling g) : ∃ t, t.kind = .comment ∧ g = [t] ∧ line = [[t]] := by
  have hi := infix_of_mem_wordGroups hl hg
  by_cases hc : ∃ t ∈ g, t.kind = .comment
  · obtain ⟨t, ht, hk⟩ := hc
    have hline := (wordGroups_spec ts line hl).alone g hg t ht hk
    rw [hline] at hg
    exact ⟨t, hk, List.mem_singleton.1 hg, hline⟩
  · have hc' : ∀ t ∈ g, t.kind ≠ .comment := fun t ht hk => hc ⟨t, ht, hk⟩
    exact absurd hp (not_line_of_glued (fun t ht => hw t (hi.subset ht)) hc' (keepsApart_of_isInfix hi ha))

end Words

end GrammarText
