import GrammarText.Proofs.Antlr.Shape

/-!
# Reading what has the right shape

Each function that passes over a span passes over exactly the tokens that make one, whatever follows them; and a
body of the right shape is read up to its semicolon, and keeps what its shape says (`readKept_bodyTokens`).
-/

namespace GrammarText.Antlr

section Trivia

variable {gap ts : List Token} {t : Token}

theorem skipTrivia_append (hg : Trivia gap) (ts : List Token) : skipTrivia (gap ++ ts) = skipTrivia ts := by
  induction gap with
  | nil => rfl
  | cons t gap ih =>
    have ht : t.isTrivia = true := hg t List.mem_cons_self
    rw [List.cons_append, skipTrivia, List.dropWhile_cons_of_pos ht]
    exact ih fun u hu => hg u (List.mem_cons_of_mem _ hu)

theorem skipTrivia_cons_trivia (ht : t.isTrivia = true) (ts : List Token) : skipTrivia (t :: ts) = skipTrivia ts :=
  List.dropWhile_cons_of_pos ht

theorem skipTrivia_cons (ht : t.isTrivia = false) (ts : List Token) : skipTrivia (t :: ts) = t :: ts :=
  List.dropWhile_cons_of_neg (by simp [ht])

theorem skipTrivia_skipTrivia (ts : List Token) : skipTrivia (skipTrivia ts) = skipTrivia ts := by
  induction ts with
  | nil => rfl
  | cons t ts ih =>
    cases ht : t.isTrivia with
    | true => rw [skipTrivia_cons_trivia ht, ih]
    | false => rw [skipTrivia_cons ht, skipTrivia_cons ht]

theorem not_trivia_of_skipTrivia {rest : List Token} (h : skipTrivia ts = t :: rest) : t.isTrivia = false := by
  have hhead := List.head?_dropWhile_not Token.isTrivia ts
  rw [show ts.dropWhile Token.isTrivia = t :: rest from h] at hhead
  exact hhead

theorem isTrivia_eq_false (h1 : t.kind ≠ .whitespace) (h2 : t.kind ≠ .comment) : t.isTrivia = false := by
  simp [Token.isTrivia, h1, h2]

theorem isTrivia_eq_false_of_kind {k : TokenKind} (h : t.kind = k) (h1 : k ≠ .whitespace) (h2 : k ≠ .comment) :
    t.isTrivia = false :=
  isTrivia_eq_false (h ▸ h1) (h ▸ h2)

theorem isOp_of_isTrivia (h : t.isTrivia = true) (s : Text) : t.isOp s = false :=
  isOp_eq_false (kind_ne_of_isTrivia h).1 s

/-- The token behind a gap is the next one. -/
theorem skipTrivia_gap (hg : Trivia gap) (ht : t.isTrivia = false) (ts : List Token) :
    skipTrivia (gap ++ t :: ts) = t :: ts := by
  rw [skipTrivia_append hg, skipTrivia_cons ht]

theorem skipTrivia_append_cons (us : List Token) (ht : t.isTrivia = false) (ts : List Token) :
    skipTrivia (us ++ t :: ts) = skipTrivia us ++ t :: ts := by
  induction us with
  | nil => exact skipTrivia_cons ht ts
  | cons u us ih =>
    cases hu : u.isTrivia with
    | true => rw [List.cons_append, skipTrivia_cons_trivia hu, skipTrivia_cons_trivia hu, ih]
    | false => rw [List.cons_append, skipTrivia_cons hu, skipTrivia_cons hu, List.cons_append]

/-- What is next at the end of a span is next in it, or the token behind it. -/
theorem nextIs_append_cons {p : Token → Bool} {us : List Token} (hu : nextIs p us = false) (ht : t.isTrivia = false)
    (hp : p t = false) (ts : List Token) : nextIs p (us ++ t :: ts) = false := by
  rw [nextIs, next?] at hu ⊢
  rw [skipTrivia_append_cons us ht]
  cases hs : skipTrivia us with
  | nil => simpa using hp
  | cons v vs => simpa [hs] using hu

theorem nextIs_append (hg : Trivia gap) (p : Token → Bool) (ts : List Token) : nextIs p (gap ++ ts) = nextIs p ts := by
  rw [nextIs, next?, skipTrivia_append hg]
  rfl

theorem nextIs_cons (ht : t.isTrivia = false) (p : Token → Bool) (ts : List Token) : nextIs p (t :: ts) = p t := by
  rw [nextIs, next?, skipTrivia_cons ht]
  rfl

theorem dropNext_gap (hg : Trivia gap) (ht : t.isTrivia = false) (ts : List Token) : dropNext (gap ++ t :: ts) = ts := by
  rw [dropNext, skipTrivia_gap hg ht]
  rfl

theorem dropNextIf_gap {p : Token → Bool} (hg : Trivia gap) (ht : t.isTrivia = false) (hp : p t = true)
    (ts : List Token) : dropNextIf p (gap ++ t :: ts) = ts := by
  rw [dropNextIf, skipTrivia_gap hg ht]
  exact if_pos hp

theorem dropNextIf_eq {p : Token → Bool} (h : nextIs p ts = false) : dropNextIf p ts = skipTrivia ts := by
  rw [nextIs, next?] at h
  unfold dropNextIf
  split
  · rename_i t rest hs
    rw [hs] at h
    rw [if_neg (by simpa using h), hs]
  · rename_i hs
    exact hs.symm

theorem dropNextWhile_append {p : Token → Bool} {us : List Token} (hu : ∀ t ∈ us, t.isTrivia = true ∨ p t = true)
    (ht : t.isTrivia = false) (hp : p t = false) (ts : List Token) : dropNextWhile p (us ++ t :: ts) = t :: ts := by
  induction us with
  | nil => exact List.dropWhile_cons_of_neg (by simp [ht, hp])
  | cons u us ih =>
    have hpos : (u.isTrivia || p u) = true := by simpa using hu u List.mem_cons_self
    rw [List.cons_append, dropNextWhile, List.dropWhile_cons, if_pos hpos]
    exact ih fun v hv => hu v (List.mem_cons_of_mem _ hv)

theorem skipThroughSemicolon_append {us : List Token} (hu : ∀ t ∈ us, t.isOp [';'] = false)
    (ht : t.isOp [';'] = true) (ts : List Token) : skipThroughSemicolon (us ++ t :: ts) = ts := by
  induction us with
  | nil =>
    rw [skipThroughSemicolon, List.nil_append, List.dropWhile_cons_of_neg (by simp [ht])]
    rfl
  | cons u us ih =>
    have hpos : (!u.isOp [';']) = true := by simp [hu u List.mem_cons_self]
    rw [List.cons_append, skipThroughSemicolon, List.dropWhile_cons, if_pos hpos]
    exact ih fun v hv => hu v (List.mem_cons_of_mem _ hv)

end Trivia

/-! ### Spans that a body drops -/

section Spans

variable {ts : List Token}

theorem skipParenthesized_close {q : Token} (hq : q.isOp [')'] = true) (depth : Nat) (ts : List Token) :
    skipParenthesized depth (q :: ts) = if depth ≤ 1 then ts else skipParenthesized (depth - 1) ts := by
  have hp : q.isOp ['('] = false := isOp_eq_of_isOp hq ['(']
  rw [skipParenthesized, hp, hq]
  rfl

/-- Tokens whose parentheses match close none that was open before. -/
theorem skipParenthesized_balanced {us : List Token} (h : Balanced us) {depth : Nat} (hd : 0 < depth) (ts : List Token) :
    skipParenthesized depth (us ++ ts) = skipParenthesized depth ts := by
  induction h generalizing depth ts with
  | nil => rfl
  | @cons t us ho hc _ ih =>
    rw [List.cons_append, skipParenthesized, ho, hc]
    exact ih hd ts
  | @group p q us vs hp _ hq _ ihu ih =>
    rw [List.cons_append, List.append_assoc, List.cons_append, skipParenthesized, if_pos hp,
      ihu (Nat.succ_pos depth), skipParenthesized_close hq, if_neg (by omega), Nat.succ_sub_one]
    exact ih hd ts

theorem skipElementOptions_append {os : List Token} {q : Token}
    (ho : ∀ t ∈ os, t.isOp ['>'] = false ∧ t.isOp [';'] = false) (hq : q.isOp ['>'] = true) (ts : List Token) :
    skipElementOptions (os ++ q :: ts) = ts := by
  induction os with
  | nil =>
    have hs : q.isOp [';'] = false := isOp_eq_of_isOp hq [';']
    rw [List.nil_append, skipElementOptions, hs, hq]
    rfl
  | cons t os ih =>
    obtain ⟨h1, h2⟩ := ho t List.mem_cons_self
    rw [List.cons_append, skipElementOptions, h1, h2]
    exact ih fun u hu => ho u (List.mem_cons_of_mem _ hu)

/-- The arguments of a command are passed over, if what follows would not be taken for some. -/
theorem skipArguments_append {args : List Token} (ha : CommandArguments args) (hn : nextIs (·.isOp ['(']) ts = false) :
    (if nextIs (·.isOp ['(']) (args ++ ts) then skipParenthesized 0 (args ++ ts) else args ++ ts) = ts := by
  cases ha with
  | none => rw [List.nil_append, hn]; rfl
  | @some gap args p q hg hp ha hq =>
    have hnt := isTrivia_eq_false_of_isOp hp
    have hskip : ∀ us : List Token, skipParenthesized 0 (gap ++ p :: us) = skipParenthesized 1 us := by
      intro us
      clear hn
      induction gap with
      | nil => rw [List.nil_append, skipParenthesized, if_pos hp]
      | cons t gap ih =>
        have ht : t.isTrivia = true := hg t List.mem_cons_self
        rw [List.cons_append, skipParenthesized, isOp_of_isTrivia ht, isOp_of_isTrivia ht]
        exact ih fun u hu => hg u (List.mem_cons_of_mem _ hu)
    have happ : gap ++ p :: (args ++ [q]) ++ ts = gap ++ p :: (args ++ q :: ts) := by simp
    rw [happ, nextIs_append hg, nextIs_cons hnt, if_pos hp, hskip, skipParenthesized_balanced ha Nat.one_pos,
      skipParenthesized_close hq, if_pos (Nat.le_refl 1)]

theorem skipLexerCommands_cons {us rest : List Token} {name : Token} (hs : skipTrivia us = name :: rest)
    (hn : name.kind = .identifier) :
    skipLexerCommands us =
      match skipTrivia (if nextIs (·.isOp ['(']) rest then skipParenthesized 0 rest else rest) with
      | [] => []
      | u :: more => if u.isOp [','] then skipLexerCommands more else u :: more := by
  rw [skipLexerCommands]
  split
  · rename_i h
    rw [h] at hs
    cases hs
  · rename_i t rest' h
    rw [h] at hs
    cases hs
    rw [if_pos (by simpa using hn)]
    dsimp only
    split
    · rename_i h'
      rw [h']
    · rename_i h'
      rw [h']

/-- Lexer commands are passed over, and with them the gap behind them. -/
theorem skipLexerCommands_append {cs : List Token} (hc : CommandTokens cs)
    (hn : nextIs (fun t => t.isOp ['('] || t.isOp [',']) ts = false) :
    skipLexerCommands (cs ++ ts) = skipTrivia ts := by
  have hnext : nextIs (·.isOp ['(']) ts = false ∧ nextIs (·.isOp [',']) ts = false := by
    rw [nextIs] at hn ⊢
    rw [nextIs]
    cases hx : next? ts with
    | none => exact ⟨rfl, rfl⟩
    | some u => simpa [hx] using hn
  induction hc with
  | @last gap args name hg hname ha =>
    have hnt := isTrivia_eq_false_of_kind hname (by decide) (by decide)
    rw [List.append_assoc, List.cons_append, skipLexerCommands_cons (skipTrivia_gap hg hnt _) hname,
      skipArguments_append ha hnext.1]
    have hcomma := hnext.2
    rw [nextIs, next?] at hcomma
    split
    · rename_i hs
      exact hs.symm
    · rename_i u more hs
      rw [hs] at hcomma
      rw [if_neg (by simpa using hcomma), hs]
  | @next gap args gap' us name comma hg hname ha hg' hcomma h ih =>
    have hnt := isTrivia_eq_false_of_kind hname (by decide) (by decide)
    have hct := isTrivia_eq_false_of_isOp hcomma
    have happ : gap ++ name :: (args ++ (gap' ++ comma :: us)) ++ ts =
        gap ++ name :: (args ++ (gap' ++ comma :: (us ++ ts))) := by simp
    have hparen : nextIs (·.isOp ['(']) (gap' ++ comma :: (us ++ ts)) = false := by
      rw [nextIs_append hg', nextIs_cons hct]
      exact isOp_eq_of_isOp hcomma ['(']
    rw [happ, skipLexerCommands_cons (skipTrivia_gap hg hnt _) hname, skipArguments_append ha hparen,
      skipTrivia_gap hg' hct]
    dsimp only
    rw [if_pos hcomma]
    exact ih

end Spans

/-! ### Bodies -/

section Bodies

variable {phrase : Bool} {ts ks rest : List Token} {semi : Token}

theorem IsElement.not_trivia {t : Token} (h : IsElement phrase t) : t.isTrivia = false := by
  rcases h with h | h | ⟨h, -⟩ | ⟨h, -⟩ <;> exact isTrivia_eq_false_of_kind h (by decide) (by decide)

theorem IsElement.isOp {t : Token} (h : IsElement phrase t) :
    ∀ s ∈ ([[';'], ['-', '>'], ['#'], ['<'], ['='], ['+', '=']] : List Text), t.isOp s = false := by
  intro s hs
  rcases h with h | h | ⟨h, -⟩ | ⟨-, h⟩
  · exact isOp_eq_false (by simp [h]) s
  · exact isOp_eq_false (by simp [h]) s
  · exact isOp_eq_false (by simp [h]) s
  · cases ho : t.isOp s with
    | false => rfl
    | true =>
      simp only [Token.isOp, Bool.and_eq_true, beq_iff_eq] at ho
      exact absurd (ho.2 ▸ hs) h

/-- What a body begins with: a gap token, or a token that is no sign of a label. -/
theorem BodyTokens.shape (h : BodyTokens phrase ts ks) : ts = [] ∨ ∃ t us, ts = t :: us ∧
    ((t.isTrivia = true ∧ BodyTokens phrase us ks) ∨ (t.isTrivia = false ∧ isLabelSign t = false)) := by
  have hsign : ∀ {t : Token} {s : Text}, t.isOp s = true → s ≠ ['='] → s ≠ ['+', '='] →
      t.isTrivia = false ∧ isLabelSign t = false := by
    intro t s ht h1 h2
    refine ⟨isTrivia_eq_false_of_isOp ht, ?_⟩
    rw [isLabelSign, isOp_eq_of_isOp ht, isOp_eq_of_isOp ht]
    simp [h1, h2]
  have hkind : ∀ {t : Token} {k : TokenKind}, t.kind = k → k ≠ .whitespace → k ≠ .comment → k ≠ .operator →
      t.isTrivia = false ∧ isLabelSign t = false := by
    rintro t k rfl hw hc ho
    refine ⟨isTrivia_eq_false_of_kind rfl hw hc, ?_⟩
    rw [isLabelSign, isOp_eq_false ho, isOp_eq_false ho]
    rfl
  cases h with
  | nil => exact .inl rfl
  | trivia ht h => exact .inr ⟨_, _, rfl, .inl ⟨ht, h⟩⟩
  | element ht _ =>
    refine .inr ⟨_, _, rfl, .inr ⟨ht.not_trivia, ?_⟩⟩
    rw [isLabelSign, ht.isOp ['='] (by simp), ht.isOp ['+', '='] (by simp)]
    rfl
  | call _ ht _ _ => exact .inr ⟨_, _, rfl, .inr (hkind ht (by decide) (by decide) (by decide))⟩
  | action ha _ _ => exact .inr ⟨_, _, rfl, .inr (hkind ha (by decide) (by decide) (by decide))⟩
  | predicate ha _ _ => exact .inr ⟨_, _, rfl, .inr (hkind ha (by decide) (by decide) (by decide))⟩
  | label hn _ _ _ => exact .inr ⟨_, _, rfl, .inr (hkind hn (by decide) (by decide) (by decide))⟩
  | caption hs _ _ _ => exact .inr ⟨_, _, rfl, .inr (hsign hs (by decide) (by decide))⟩
  | options hp _ _ _ => exact .inr ⟨_, _, rfl, .inr (hsign hp (by decide) (by decide))⟩
  | commands ha _ _ _ => exact .inr ⟨_, _, rfl, .inr (hsign ha (by decide) (by decide))⟩

/-- The first significant token of a body is no sign of a label. -/
theorem nextIs_isLabelSign (h : BodyTokens phrase ts ks) (hs : semi.isOp [';'] = true) (rest : List Token) :
    nextIs isLabelSign (ts ++ semi :: rest) = false := by
  induction ts with
  | nil =>
    rw [List.nil_append, nextIs_cons (isTrivia_eq_false_of_isOp hs), isLabelSign, isOp_eq_of_isOp hs, isOp_eq_of_isOp hs]
    rfl
  | cons t us ih =>
    obtain hnil | ⟨u, vs, heq, hu⟩ := h.shape
    · cases hnil
    · cases heq
      rw [List.cons_append]
      rcases hu with ⟨ht, h⟩ | ⟨ht, hl⟩
      · rw [nextIs, next?, skipTrivia_cons_trivia ht]
        exact ih h
      · rw [nextIs_cons ht, hl]

/-- Without the gap in front a body is a body. -/
theorem BodyTokens.skipTrivia (h : BodyTokens phrase ts ks) : BodyTokens phrase (skipTrivia ts) ks := by
  induction ts with
  | nil => exact h
  | cons t us ih =>
    obtain hnil | ⟨u, vs, heq, hu⟩ := h.shape
    · cases hnil
    · cases heq
      rcases hu with ⟨ht, h⟩ | ⟨ht, -⟩
      · rw [skipTrivia_cons_trivia ht]
        exact ih h
      · rw [skipTrivia_cons ht]
        exact h

/-! One equation for each thing that reading a body can do with a token. -/

theorem readKept_dropped {depth : Nat} {last : Option Token} {t : Token} {us : List Token}
    (h : afterDropped? phrase last t us = some rest) :
    readKept phrase depth last (t :: us) = readKept phrase depth last rest := by
  rw [readKept]
  split
  · rename_i r hr
    rw [hr] at h
    cases h
    rfl
  · rename_i hr
    rw [hr] at h
    cases h

theorem readKept_kept {depth : Nat} {last : Option Token} {t : Token} {us : List Token}
    (h : afterDropped? phrase last t us = none) (hs : ¬(t.isOp [';'] = true ∧ depth = 0)) :
    readKept phrase depth last (t :: us) =
      (t :: (readKept phrase (depthAfter depth t) (some t) us).1, (readKept phrase (depthAfter depth t) (some t) us).2) := by
  rw [readKept]
  split
  · rename_i r hr
    rw [hr] at h
    cases h
  · rw [if_neg hs]

theorem afterDropped?_operator {last : Option Token} {t : Token} {us : List Token} (hk : t.kind = .operator)
    (h : ∀ s ∈ ([['-', '>'], ['#'], ['<']] : List Text), t.isOp s = false) : afterDropped? phrase last t us = none := by
  simp [afterDropped?, hk, h]

/-- The semicolon outside parentheses ends a body. -/
theorem readKept_semicolon {last : Option Token} (hs : semi.isOp [';'] = true) (rest : List Token) :
    readKept phrase 0 last (semi :: rest) = ([], rest) := by
  have hk := kind_of_isOp hs
  have hnone : afterDropped? phrase last semi rest = none :=
    afterDropped?_operator hk fun s hm => by
      rw [isOp_eq_of_isOp hs]
      revert hm s
      simp
  rw [readKept]
  split
  · rename_i r hr
    rw [hr] at hnone
    cases hnone
  · rw [if_pos ⟨hs, rfl⟩]

theorem afterDropped?_word {last : Option Token} {t : Token} {us : List Token} (hk : t.kind = .identifier)
    (hn : nextIs isLabelSign us = false) : afterDropped? phrase last t us = none := by
  have hop : ∀ s, t.isOp s = false := isOp_eq_false (by simp [hk])
  simp [afterDropped?, hk, hop, hn]

theorem afterDropped?_element {last : Option Token} {t : Token} {us : List Token} (ht : IsElement phrase t)
    (hn : nextIs isLabelSign us = false) : afterDropped? phrase last t us = none := by
  have hop := ht.isOp
  rcases ht with hk | hk | ⟨hk, hp⟩ | ⟨hk, -⟩
  · exact afterDropped?_word hk hn
  · simp [afterDropped?, hk, isOp_eq_false]
  · simp [afterDropped?, hk, hp, isOp_eq_false]
  · exact afterDropped?_operator hk fun s hm => hop s (by simp at hm ⊢; tauto)

/-! What is passed over, one statement for each thing that a body has beside its elements. -/

section Dropped

variable {last : Option Token} {t u : Token} {us gap : List Token}

theorem afterDropped?_comment (ht : t.kind = .comment) : afterDropped? phrase last t us = some us := by
  simp [afterDropped?, ht]

theorem afterDropped?_whitespace (ht : t.kind = .whitespace) : afterDropped? phrase last t us = none := by
  have hop : ∀ s, t.isOp s = false := isOp_eq_false (by simp [ht])
  simp [afterDropped?, ht, hop]

theorem afterDropped?_arguments (ht : t.kind = .identifier) (hu : u.kind = .charClass) :
    afterDropped? true (some t) u us = some us := by
  have hop : ∀ s, u.isOp s = false := isOp_eq_false (by simp [hu])
  simp [afterDropped?, ht, hu, hop]

theorem afterDropped?_action (ht : t.kind = .action) (hn : ∀ u ∈ us.head?, u.isOp ['?'] = false) :
    afterDropped? phrase last t us = some us := by
  cases us with
  | nil => simp [afterDropped?, ht]
  | cons u us => simp [afterDropped?, ht, hn u rfl]

theorem afterDropped?_predicate (ht : t.kind = .action) (hu : u.isOp ['?'] = true) :
    afterDropped? phrase last t (u :: us) = some us := by
  simp [afterDropped?, ht, hu]

theorem afterDropped?_label (ht : t.kind = .identifier) (hg : Trivia gap)
    (hu : u.isOp ['='] = true ∨ u.isOp ['+', '='] = true) : afterDropped? phrase last t (gap ++ u :: us) = some us := by
  have hop : ∀ s, t.isOp s = false := isOp_eq_false (by simp [ht])
  have hut : u.isTrivia = false := hu.elim isTrivia_eq_false_of_isOp isTrivia_eq_false_of_isOp
  have hsign : nextIs isLabelSign (gap ++ u :: us) = true := by
    rw [nextIs_append hg, nextIs_cons hut, isLabelSign, Bool.or_eq_true]
    exact hu
  simp [afterDropped?, ht, hop, hsign, dropNext_gap hg hut]

theorem afterDropped?_caption (ht : t.isOp ['#'] = true) (hg : Trivia gap) (hu : u.kind = .identifier) :
    afterDropped? phrase last t (gap ++ u :: us) = some us := by
  have hut : u.isTrivia = false := isTrivia_eq_false_of_kind hu (by decide) (by decide)
  have hname : dropNextIf (·.kind == .identifier) (gap ++ u :: us) = us := dropNextIf_gap hg hut (by simp [hu]) _
  simp [afterDropped?, kind_of_isOp ht, isOp_eq_of_isOp ht, hname]

theorem afterDropped?_options (ht : t.isOp ['<'] = true)
    (hg : ∀ v ∈ gap, v.isOp ['>'] = false ∧ v.isOp [';'] = false) (hu : u.isOp ['>'] = true) :
    afterDropped? phrase last t (gap ++ u :: us) = some us := by
  simp [afterDropped?, kind_of_isOp ht, isOp_eq_of_isOp ht, skipElementOptions_append hg hu]

theorem afterDropped?_commands {cs : List Token} (ht : t.isOp ['-', '>'] = true) (hc : CommandTokens cs)
    (hn : nextIs (fun u => u.isOp ['('] || u.isOp [',']) us = false) :
    afterDropped? phrase last t (cs ++ us) = some (skipTrivia us) := by
  simp [afterDropped?, kind_of_isOp ht, ht, skipLexerCommands_append hc hn]

end Dropped

/-- What reading a body of the right shape gives: the tokens that its shape says, with whitespace in between, and
what follows its semicolon. -/
def ReadsAs (ks rest : List Token) (r : List Token × List Token) : Prop :=
  r.2 = rest ∧ significant r.1 = ks ∧ ∀ t ∈ r.1, t.kind ≠ .comment

theorem ReadsAs.cons {t : Token} {r : List Token × List Token} (ht : t.isTrivia = false) (h : ReadsAs ks rest r) :
    ReadsAs (t :: ks) rest (t :: r.1, r.2) := by
  obtain ⟨h1, h2, h3⟩ := h
  have hc : t.kind ≠ .comment := by
    rintro hk
    simp [Token.isTrivia, hk] at ht
  refine ⟨h1, ?_, fun u hu => ?_⟩
  · rw [← h2]
    simp [significant, ht]
  · rcases List.mem_cons.1 hu with rfl | hu
    · exact hc
    · exact h3 u hu

theorem ReadsAs.whitespace {t : Token} {r : List Token × List Token} (ht : t.kind = .whitespace)
    (h : ReadsAs ks rest r) : ReadsAs ks rest (t :: r.1, r.2) := by
  obtain ⟨h1, h2, h3⟩ := h
  refine ⟨h1, ?_, fun u hu => ?_⟩
  · rw [← h2]
    simp [significant, Token.isTrivia, ht]
  · rcases List.mem_cons.1 hu with rfl | hu
    · simp [ht]
    · exact h3 u hu

/-- A body of the right shape is read up to its semicolon, and keeps what its shape says. -/
theorem readKept_bodyTokens (h : BodyTokens phrase ts ks) {depth : Nat} (hd : depthAfterAll depth ks = 0)
    (hs : semi.isOp [';'] = true) (last : Option Token) (rest : List Token) :
    ReadsAs ks rest (readKept phrase depth last (ts ++ semi :: rest)) := by
  -- By length and not by shape: lexer commands take the trivia behind them along.
  induction hn : ts.length using Nat.strongRecOn generalizing ts ks depth last with
  | ind n ih =>
    subst hn
    cases h with
    | nil =>
      rw [depthAfterAll_nil] at hd
      subst hd
      rw [List.nil_append, readKept_semicolon hs]
      exact ⟨rfl, rfl, by simp⟩
    | @trivia t us _ ht h =>
      rw [List.cons_append]
      by_cases hc : t.kind = .comment
      · rw [readKept_dropped (afterDropped?_comment hc)]
        exact ih us.length (by simp) h hd last rfl
      · have hw : t.kind = .whitespace := by
          simpa [Token.isTrivia, hc] using ht
        have hdepth : depthAfter depth t = depth := depthAfter_of_not_operator (by simp [hw]) depth
        rw [readKept_kept (afterDropped?_whitespace hw) (by simp [isOp_of_isTrivia ht]), hdepth]
        exact (ih us.length (by simp) h hd (some t) rfl).whitespace hw
    | @element t us ks ht h =>
      have hlabel := nextIs_isLabelSign h hs rest
      rw [List.cons_append, readKept_kept (afterDropped?_element ht hlabel) (by simp [ht.isOp [';']])]
      exact (ih us.length (by simp) h hd (some t) rfl).cons ht.not_trivia
    | @call t args us ks hp ht ha h =>
      subst hp
      have hlen : us.length < (t :: args :: us).length := by
        simp only [List.length_cons]
        omega
      have hlabel : nextIs isLabelSign (args :: (us ++ semi :: rest)) = false := by
        rw [nextIs_cons (isTrivia_eq_false_of_kind ha (by decide) (by decide)), isLabelSign,
          isOp_eq_false (by simp [ha]), isOp_eq_false (by simp [ha])]
        rfl
      rw [List.cons_append, List.cons_append, readKept_kept (afterDropped?_word ht hlabel)
        (by simp [isOp_eq_false, ht]), readKept_dropped (afterDropped?_arguments ht ha)]
      exact (ih us.length hlen h hd (some t) rfl).cons (isTrivia_eq_false_of_kind ht (by decide) (by decide))
    | @action a us _ ha hq h =>
      have hnext : ∀ u ∈ (us ++ semi :: rest).head?, u.isOp ['?'] = false := by
        cases us with
        | nil =>
          intro u hu
          cases hu
          exact isOp_eq_of_isOp hs ['?']
        | cons u us => exact hq
      rw [List.cons_append, readKept_dropped (afterDropped?_action ha hnext)]
      exact ih us.length (by simp) h hd last rfl
    | @predicate a q us _ ha hq h =>
      rw [List.cons_append, List.cons_append, readKept_dropped (afterDropped?_predicate ha hq)]
      exact ih us.length (by simp only [List.length_cons]; omega) h hd last rfl
    | @label name sign gap us _ hname hg hsign h =>
      rw [List.cons_append, List.append_assoc, List.cons_append, readKept_dropped (afterDropped?_label hname hg hsign)]
      exact ih us.length (by simp only [List.length_append, List.length_cons]; omega) h hd last rfl
    | @caption sign name gap us _ hsign hg hname h =>
      rw [List.cons_append, List.append_assoc, List.cons_append,
        readKept_dropped (afterDropped?_caption hsign hg hname)]
      exact ih us.length (by simp only [List.length_append, List.length_cons]; omega) h hd last rfl
    | @options p q os us _ hp ho hq h =>
      rw [List.cons_append, List.append_assoc, List.cons_append, readKept_dropped (afterDropped?_options hp ho hq)]
      exact ih us.length (by simp only [List.length_append, List.length_cons]; omega) h hd last rfl
    | @commands arrow cs us _ ha hc hnext h =>
      have hst := isTrivia_eq_false_of_isOp hs
      have hsemi : (semi.isOp ['('] || semi.isOp [',']) = false := by
        rw [isOp_eq_of_isOp hs, isOp_eq_of_isOp hs]
        rfl
      have hlen : (Antlr.skipTrivia us).length < (arrow :: (cs ++ us)).length := by
        have := length_skipTrivia_le us
        simp only [List.length_append, List.length_cons]
        omega
      rw [List.cons_append, List.append_assoc,
        readKept_dropped (afterDropped?_commands ha hc (nextIs_append_cons hnext hst hsemi rest)),
        skipTrivia_append_cons us hst]
      exact ih _ hlen h.skipTrivia hd last rfl

end Bodies

end GrammarText.Antlr
