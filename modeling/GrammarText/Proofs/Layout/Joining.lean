import GrammarText.Proofs.Layout.Rows
import GrammarText.Proofs.Layout.Spacing
import Mathlib.Data.List.Flatten

/-!
# Joined tokens read back

Tokens without comments are joined on one line, with a space where one belongs (`joinTokens_eq`). Read back, the
first of them is what it was unless it runs together with what comes right behind it
(`lexemes_spacedTokens_cons`); where neighbours do run together they are lost, since a comment swallows both or they
make a defining sign (`significant_ne_of_runsTogether`). So joining keeps the tokens of a text exactly if no
neighbours in it run together.
-/

namespace GrammarText

/-! ### Normal spacing on one line -/

/-- The tokens with a space where one belongs. -/
def spacedTokens : List Token → Text
  | [] => []
  | [t] => t.text
  | t :: u :: ts => t.text ++ ((if needsSpace (some t) u then [' '] else []) ++ spacedTokens (u :: ts))

theorem joinWords_wordLines {ts : List Token} (hne : ts ≠ []) (hc : ∀ t ∈ ts, t.kind ≠ .comment) :
    ∃ w ws, wordLines ts = [w :: ws] ∧ joinWords (w :: ws) = spacedTokens ts := by
  fun_induction wordLines ts with
  | case1 => exact absurd rfl hne
  | case2 t =>
    have ht : (t.kind == .comment) = false := by simpa using hc t List.mem_cons_self
    rw [ht]
    exact ⟨t.text, [], rfl, by simp [spacedTokens]⟩
  | case3 t u ts lines ht ih => exact absurd (beq_iff_eq.1 ht) (hc t (by simp))
  | case4 t u ts lines ht hu ih => exact absurd (beq_iff_eq.1 hu) (hc u (by simp))
  | case5 t u ts lines ht hu hs ih =>
    obtain ⟨w, ws, hl, hj⟩ := ih (List.cons_ne_nil _ _) fun v hv => hc v (List.mem_cons_of_mem _ hv)
    refine ⟨t.text, w :: ws, by simp [lines, hl], ?_⟩
    rw [joinWords_cons (List.cons_ne_nil _ _), hj, spacedTokens, if_pos hs]
    rfl
  | case6 t u ts lines ht hu hs ih =>
    obtain ⟨w, ws, hl, hj⟩ := ih (List.cons_ne_nil _ _) fun v hv => hc v (List.mem_cons_of_mem _ hv)
    refine ⟨t.text ++ w, ws, by simp [lines, hl], ?_⟩
    rw [spacedTokens, if_neg hs, List.nil_append, ← hj]
    cases ws with
    | nil => simp
    | cons v vs =>
      rw [joinWords_cons (List.cons_ne_nil _ _), joinWords_cons (List.cons_ne_nil _ _), List.append_assoc]

/-- Tokens without comments stand on one line. -/
theorem joinTokens_eq {ts : List Token} (hc : ∀ t ∈ ts, t.kind ≠ .comment) :
    joinTokens ts = spacedTokens (dense ts) := by
  have hd : layoutLines ts = wordLines (dense ts) := rfl
  rw [joinTokens, hd]
  cases hts : dense ts with
  | nil => rfl
  | cons t us =>
    have hc' : ∀ u ∈ t :: us, u.kind ≠ .comment := by
      rw [← hts]
      exact fun u hu => hc u (mem_dense.1 hu).1
    obtain ⟨w, ws, hl, hj⟩ := joinWords_wordLines (List.cons_ne_nil t us) hc'
    rw [hl, List.map_singleton, hj]
    simp [joinLines]

theorem spacedTokens_cons (t : Token) (ts : List Token) : ∃ s, spacedTokens (t :: ts) = t.text ++ s := by
  cases ts with
  | nil => exact ⟨[], by simp [spacedTokens]⟩
  | cons u ts => exact ⟨_, rfl⟩

/-- Without comments what is significant is what is not whitespace. -/
theorem significant_eq_dense {ts : List Token} (h : ∀ t ∈ ts, t.kind ≠ .comment) : significant ts = dense ts := by
  refine List.filter_congr fun t ht => ?_
  rw [Token.isTrivia, beq_eq_false_iff_ne.2 (h t ht), Bool.or_false]
  rfl

theorem spacedTokens_map_bare (ts : List Token) : spacedTokens (ts.map Token.bare) = spacedTokens ts := by
  fun_induction spacedTokens ts with
  | case1 => rfl
  | case2 t => rfl
  | case3 t u ts ih =>
    have hs : needsSpace (some t.bare) u.bare = needsSpace (some t) u := rfl
    rw [List.map_cons, List.map_cons] at *
    rw [spacedTokens, hs, ih, Token.text_bare]

/-! ### Reading the first token back -/

section Reading

variable {t u : Token} {ts us : List Token}

/-- A line is its first token, what is glued to it, and a space or nothing. -/
theorem exists_glued (u : Token) (ts : List Token) : ∃ g rest, g <+: ts ∧
    spacedTokens (u :: ts) = u.text ++ (spelling g ++ rest) ∧ ∀ x ∈ rest.head?, isSpace x = true := by
  induction ts generalizing u with
  | nil => exact ⟨[], [], List.nil_prefix, by simp [spacedTokens, spelling], by simp⟩
  | cons v ts ih =>
    rw [spacedTokens]
    by_cases hs : needsSpace (some u) v = true
    · rw [if_pos hs]
      exact ⟨[], ' ' :: spacedTokens (v :: ts), List.nil_prefix, rfl, by simp [isSpace]⟩
    · obtain ⟨g, rest, hg, heq, hrest⟩ := ih v
      refine ⟨v :: g, rest, List.cons_prefix_cons.2 ⟨rfl, hg⟩, ?_, hrest⟩
      rw [if_neg hs, heq]
      simp [spelling]

/-- What runs together with fewer tokens behind it runs together with more. -/
theorem not_runsTogether_of_isPrefix (hp : ts <+: us) (h : runsTogether us = false) : runsTogether ts = false := by
  obtain ⟨vs, rfl⟩ := hp
  cases hr : runsTogether ts with
  | false => rfl
  | true =>
    rw [runsTogether_append hr] at h
    cases h

/-- The first token of a line is read back, unless it runs together with the next ones. -/
theorem lexemes_spacedTokens_cons (hw : ∀ v ∈ t :: us, Written v ∧ v.kind ≠ .comment)
    (hr : runsTogether (t :: us) = false) :
    significant (lexemes .ebnf (spacedTokens (t :: us))) = t :: significant (lexemes .ebnf (spacedTokens us)) := by
  obtain ⟨ht, htc⟩ := hw t List.mem_cons_self
  have hkeep : ∀ vs : List Token, significant (t :: vs) = t :: significant vs := by
    intro vs
    apply List.filter_cons_of_pos
    simp [Token.isTrivia, ht.ne_whitespace, htc]
  cases us with
  | nil =>
    have hread := ht.lexemes_append (apart_nil ht.lexeme)
    have hone : spacedTokens [t] = t.text ++ [] := by simp [spacedTokens]
    rw [hone, hread, hkeep]
    rfl
  | cons u us =>
    rw [spacedTokens]
    by_cases hs : needsSpace (some t) u = true
    · -- a space comes next
      obtain ⟨z, hz⟩ := spacedTokens_cons u us
      obtain ⟨hu, -⟩ := hw u (by simp)
      obtain ⟨c, r, hc, hsp⟩ := hu.lexeme.starts hu.ne_whitespace
      have hspace : lexemes .ebnf ([' '] ++ spacedTokens (u :: us)) =
          ⟨.whitespace, [' '], {}⟩ :: lexemes .ebnf (spacedTokens (u :: us)) :=
        lexemes_gap (List.cons_ne_nil _ _) (by simp [isSpace]) (by simpa [hz, hc] using hsp)
      have hapart : Apart .ebnf t.kind t.text ([' '] ++ spacedTokens (u :: us)) :=
        apart_of_gap ht.lexeme ht.ne_whitespace (by simp [isSpace]) fun hk => absurd hk htc
      rw [if_pos hs, ht.lexemes_append hapart, hspace, hkeep]
      rfl
    · -- the next token comes right away
      obtain ⟨g, rest, hg, heq, hrest⟩ := exists_glued u us
      have hshort : runsTogether (t :: u :: g) = false := by
        refine not_runsTogether_of_isPrefix ?_ hr
        simpa [List.cons_prefix_cons] using hg
      have hlexemes : ∀ v ∈ u :: g, Lexeme .ebnf v.kind v.text ∧ v.kind ≠ .comment := by
        intro v hv
        have hmem : v ∈ t :: u :: us := List.mem_cons_of_mem _ ((List.cons_prefix_cons.2 ⟨rfl, hg⟩).subset hv)
        exact ⟨(hw v hmem).1.lexeme, (hw v hmem).2⟩
      have hapart := apart_glued ht.lexeme htc ht.ne_whitespace hlexemes (by simpa using hs) hshort hrest
      rw [if_neg hs, List.nil_append, heq, ht.lexemes_append hapart, hkeep]

end Reading

/-! ### Neighbours that run together -/

section Lost

variable {t u : Token} {ts ks : List Token}

/-- The number of characters that are no spaces. -/
def inkLength (s : Text) : Nat :=
  s.countP fun c => !isSpace c

theorem inkLength_append (s r : Text) : inkLength (s ++ r) = inkLength s + inkLength r :=
  List.countP_append

/-- Spacing adds spaces only. -/
theorem inkLength_spacedTokens (ts : List Token) : inkLength (spacedTokens ts) = inkLength (spelling ts) := by
  fun_induction spacedTokens ts with
  | case1 => rfl
  | case2 t => simp [spelling]
  | case3 t u ts ih =>
    have hspace : inkLength (if needsSpace (some t) u then [' '] else []) = 0 := by
      split <;> rfl
    have hspell : spelling (t :: u :: ts) = t.text ++ spelling (u :: ts) := rfl
    rw [inkLength_append, inkLength_append, hspace, ih, hspell, inkLength_append, Nat.zero_add]

theorem inkLength_significant_le (ts : List Token) : inkLength (spelling (significant ts)) ≤ inkLength (spelling ts) := by
  apply List.Sublist.countP_le
  exact List.Sublist.flatMap List.filter_sublist _

/-- A text that begins with a comment has less in its significant tokens than in itself. -/
theorem inkLength_significant_lt {s : Text} {f : CommentForm} (h : commentForm? .ebnf s = some f) :
    inkLength (spelling (significant (lexemes .ebnf s))) < inkLength s := by
  match s with
  | [] => cases h
  | c :: rest =>
    have hspace : isSpace c = false := by
      have hopen := opening_of_commentForm? h
      cases f with
      | starred => rw [← (List.cons_prefix_cons.1 hopen.2).1]; decide
      | slashed | line => rw [← (List.cons_prefix_cons.1 hopen).1]; decide
    -- the first token is a comment, which is not significant
    have hspell := spelling_lexemes .ebnf (c :: rest)
    rw [lexemes_cons, form_comment h] at hspell ⊢
    obtain ⟨n, hn⟩ : ∃ n, f.restLength (rest.drop 1) + 2 = n + 1 := ⟨_, rfl⟩
    rw [hn] at hspell ⊢
    have hdrop : ∀ us : List Token, significant (⟨.comment, (c :: rest).take (n + 1), {}⟩ :: us) = significant us :=
      fun us => List.filter_cons_of_neg (by simp [Token.isTrivia])
    have hle := inkLength_significant_le (lexemes .ebnf ((c :: rest).drop (n + 1)))
    have hink : inkLength (c :: rest) = inkLength (c :: rest.take n) + inkLength (spelling (lexemes .ebnf (rest.drop n))) := by
      rw [← inkLength_append, ← hspell]
      rfl
    have hpos : 0 < inkLength (c :: rest.take n) := by
      simp [inkLength, hspace]
    rw [hdrop]
    simp only [List.drop_succ_cons] at hle ⊢
    omega

theorem significant_ne_of_commentForm? {f : CommentForm} (h : commentForm? .ebnf (spacedTokens ks) = some f) :
    significant (lexemes .ebnf (spacedTokens ks)) ≠ ks := by
  intro heq
  have hlt := inkLength_significant_lt h
  rw [heq, inkLength_spacedTokens] at hlt
  exact Nat.lt_irrefl _ hlt

theorem spacedTokens_glued (h : needsSpace (some t) u = false) (ts : List Token) :
    ∃ s, spacedTokens (t :: u :: ts) = t.text ++ (u.text ++ s) := by
  obtain ⟨s, hs⟩ := spacedTokens_cons u ts
  refine ⟨s, ?_⟩
  rw [spacedTokens, if_neg (by simp [h]), hs]
  rfl

theorem isLone_iff {c : Char} : t.isLone c = true ↔ t.kind = .identifier ∧ t.text = [c] := by
  rw [Token.isLone, Bool.and_eq_true, beq_iff_eq, beq_iff_eq]

/-- No space is put between two stray signs, and none in front of a star. -/
theorem needsSpace_lone {a b : Char} (ha : (isLetter a || a == '_') = false) (hb : (isLetter b || b == '_') = false)
    (ht : t.isLone a = true) (hu : u.isLone b = true) : needsSpace (some t) u = false := by
  obtain ⟨htk, htt⟩ := isLone_iff.1 ht
  obtain ⟨huk, hut⟩ := isLone_iff.1 hu
  have hpt : t.isPunctuation = true := by simp [Token.isPunctuation, htk, htt, ha]
  have hpu : u.isPunctuation = true := by simp [Token.isPunctuation, huk, hut, hb]
  rw [needsSpace, hpt, hpu, Bool.and_true, Bool.or_true, Bool.not_true]

theorem needsSpace_star (hu : u.isOp ['*'] = true) : needsSpace (some t) u = false := by
  simp [needsSpace, Token.isOneOf, hu]

/-- Neighbours that run together are not read back. -/
theorem significant_ne_of_runsTogether (h : runsTogether ks = true) :
    significant (lexemes .ebnf (spacedTokens ks)) ≠ ks := by
  match ks with
  | [] | [t] => cases h
  | t :: u :: ts =>
    simp only [runsTogether, Bool.or_eq_true, Bool.and_eq_true] at h
    have htext : ∀ {v : Token} {c : Char}, v.isOp [c] = true → v.text = [c] := by
      intro v c hv
      rw [Token.isOp, Bool.and_eq_true, beq_iff_eq, beq_iff_eq] at hv
      exact hv.2
    rcases h with (⟨ht, hu⟩ | ⟨ht, hu | hu⟩) | ⟨⟨ht, hu⟩, hv⟩
    · obtain ⟨s, hs⟩ := spacedTokens_glued (needsSpace_star hu) ts
      apply significant_ne_of_commentForm? (f := .starred)
      rw [hs, htext ht, htext hu]
      rfl
    · obtain ⟨s, hs⟩ := spacedTokens_glued (needsSpace_lone (by decide) (by decide) ht hu) ts
      apply significant_ne_of_commentForm? (f := .line)
      rw [hs, (isLone_iff.1 ht).2, (isLone_iff.1 hu).2]
      rfl
    · obtain ⟨s, hs⟩ := spacedTokens_glued (needsSpace_star hu) ts
      apply significant_ne_of_commentForm? (f := .slashed)
      rw [hs, (isLone_iff.1 ht).2, htext hu]
      rfl
    · -- the three signs are read as one token, which is an operator
      obtain ⟨v, vs, rfl, hv⟩ : ∃ v vs, ts = v :: vs ∧ v.isLone '=' = true := by
        cases ts with
        | nil => cases hv
        | cons v vs => exact ⟨v, vs, rfl, hv⟩
      obtain ⟨s, hs⟩ := spacedTokens_glued (needsSpace_lone (by decide) (by decide) hu hv) vs
      have hline : spacedTokens (t :: u :: v :: vs) = definingSign ++ s := by
        rw [spacedTokens, if_neg (by simp [needsSpace_lone (by decide) (by decide) ht hu]), hs, (isLone_iff.1 ht).2,
          (isLone_iff.1 hu).2, (isLone_iff.1 hv).2]
        rfl
      have hsign : definingSign ∈ Dialect.longOperators .ebnf := by decide
      rw [hline, lexemes_append (.longOperator hsign) (keepsSign_longOperator hsign)]
      intro heq
      obtain ⟨htk, -⟩ := isLone_iff.1 ht
      rw [← (List.cons.inj heq).1] at htk
      cases htk

end Lost

/-! ### Reading a line back -/

section Joined

/-- A line is read back as its tokens exactly if no neighbours in it run together. -/
theorem significant_spacedTokens_iff {ks : List Token} (hw : ∀ t ∈ ks, Written t ∧ t.kind ≠ .comment) :
    significant (lexemes .ebnf (spacedTokens ks)) = ks ↔ keepsApart ks = true := by
  induction ks with
  | nil => simp [spacedTokens, keepsApart, significant]
  | cons t us ih =>
    rw [keepsApart, Bool.and_eq_true, Bool.not_eq_true']
    cases hr : runsTogether (t :: us) with
    | true => simp [significant_ne_of_runsTogether hr]
    | false =>
      rw [lexemes_spacedTokens_cons hw hr, List.cons.injEq, ih fun v hv => hw v (List.mem_cons_of_mem _ hv)]
      simp

/-- Joining the tokens of a text without comments, in which everything is terminated, gives a text of the same
significant tokens exactly if no neighbours among them run together: an opening parenthesis and a star, two slashes or
a slash and a star, and the three signs that the defining sign consists of. -/
theorem joinTokens_reads_iff (source : Text)
    (h : ∀ t ∈ scan .ebnf source, t.kind ≠ .comment ∧ t.isClosed = true) :
    (significant (scan .ebnf (joinTokens (scan .ebnf source)))).map Token.sign =
        (significant (scan .ebnf source)).map Token.sign ↔
      keepsApart (significant (scan .ebnf source)) = true := by
  have hcomment : ∀ t ∈ scan .ebnf source, t.kind ≠ .comment := fun t ht => (h t ht).1
  have hwritten : ∀ t ∈ significant (lexemes .ebnf source), Written t ∧ t.kind ≠ .comment := by
    intro t ht
    obtain ⟨hmem, htrivia⟩ := List.mem_filter.1 ht
    obtain ⟨t', ht', rfl⟩ := List.mem_map.1 hmem
    simp only [Token.isTrivia, Bool.not_eq_true', Bool.or_eq_false_iff, beq_eq_false_iff_ne] at htrivia
    exact ⟨⟨lexeme_of_mem_lexemes hmem (h t' ht').2, bare_of_mem_lexemes hmem, htrivia.1⟩, htrivia.2⟩
  have hline : joinTokens (scan .ebnf source) = spacedTokens (significant (lexemes .ebnf source)) := by
    rw [joinTokens_eq hcomment, ← significant_eq_dense hcomment, lexemes, significant_map_bare, spacedTokens_map_bare]
  have hapart : keepsApart (significant (lexemes .ebnf source)) = keepsApart (significant (scan .ebnf source)) := by
    rw [lexemes, significant_map_bare]
    exact keepsApart_map Token.isOp_bare (fun _ _ => rfl) _
  rw [map_sign_significant_iff, hline, ← hapart]
  exact significant_spacedTokens_iff hwritten

/-- A rule with more spaces than it needs, and with fewer. -/
def unevenRule : Text :=
  "x ::=( a|b )*c , d ?'a'. . [ z ];".toList

theorem joinTokens_reads_iff_unevenRule :
    (∀ t ∈ scan .ebnf unevenRule, t.kind ≠ .comment ∧ t.isClosed = true) ∧
      joinTokens (scan .ebnf unevenRule) = "x ::= (a | b)* c, d? 'a' .. [ z ] ;".toList ∧
        (significant (scan .ebnf (joinTokens (scan .ebnf unevenRule)))).map Token.sign =
          (significant (scan .ebnf unevenRule)).map Token.sign := by
  have h : ∀ t ∈ scan .ebnf unevenRule, t.kind ≠ .comment ∧ t.isClosed = true := by decide +kernel
  exact ⟨h, by decide +kernel, (joinTokens_reads_iff unevenRule h).2 (by decide +kernel)⟩

/-- A star behind an opening parenthesis is lost: joined, they open a comment. -/
theorem spacedStar_lost :
    ¬∀ source : Text, (∀ t ∈ scan .ebnf source, t.kind ≠ .comment ∧ t.isClosed = true) →
      (significant (scan .ebnf (joinTokens (scan .ebnf source)))).map Token.sign =
        (significant (scan .ebnf source)).map Token.sign := by
  intro h
  have hread := h "( * a".toList (by decide +kernel)
  revert hread
  decide +kernel

end Joined

end GrammarText
