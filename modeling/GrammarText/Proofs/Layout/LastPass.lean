import GrammarText.Proofs.Layout.Idempotence
import GrammarText.Proofs.Layout.Unclosed

/-!
# The last pass and the tokens

The last pass over a formatted document trims its line ends and ends it with a line feed, and knows nothing of tokens.
`Passed` says what it makes of them, one after the other: whitespace and comments stay what they are, every other token
loses its blanks at line ends, a blank that stands for itself may go altogether, and a literal or a class that is never
closed takes in the line feed (`passed_lexemes`). So the significant tokens are the same afterwards exactly if none of
them had a blank to lose and none takes in the line feed (`Passed.eq_significant_iff`).
-/

namespace GrammarText

/-! ### Blanks at line ends -/

section Blanks

/-- What trimming leaves alone has no blank before a line feed, nor at its own end if that is a line end. -/
theorem trimBlanks_eq_self_iff {e : Bool} {t : Text} : trimBlanks e t = t ↔
    blankAtLineEnd t = false ∧ (e = true → ∀ c ∈ t.getLast?, isBlank c = false ∨ c = '\n') := by
  have hlength : ∀ c r, trimBlanks e r ≠ c :: r := by
    intro c r heq
    have hle := (trimBlanks_sublist e r).length_le
    rw [heq, List.length_cons] at hle
    omega
  induction t with
  | nil => simp [blankAtLineEnd]
  | cons c r ih =>
    have hcons : trimBlanks e (c :: r) = c :: r ↔
        (isBlank c = false ∨ c = '\n' ∨ endsLine e r = false) ∧ trimBlanks e r = r := by
      obtain ⟨hb, hc, hends, h⟩ | ⟨hkeep, h⟩ := trimBlanks_cons e c r
      · rw [h]
        refine ⟨fun heq => absurd heq (hlength c r), ?_⟩
        rintro ⟨hkeep, heq⟩
        rw [heq] at hends
        simp [hb, hc, hends] at hkeep
      · rw [h, List.cons.injEq]
        refine ⟨fun heq => ⟨?_, heq.2⟩, fun heq => ⟨rfl, heq.2⟩⟩
        rwa [heq.2] at hkeep
    refine hcons.trans ((and_congr_right fun _ => ih).trans ?_)
    cases r with
    | nil => cases e <;> simp [blankAtLineEnd, endsLine]
    | cons d s =>
      rw [List.getLast?_cons_cons]
      simp only [blankAtLineEnd, endsLine, Bool.or_eq_false_iff, Bool.and_eq_false_iff, bne_eq_false_iff_eq]
      constructor
      · rintro ⟨hc, hs, hl⟩
        exact ⟨⟨or_assoc.2 hc, hs⟩, hl⟩
      · rintro ⟨⟨hc, hs⟩, hl⟩
        exact ⟨or_assoc.1 hc, hs, hl⟩

/-- Trimming drops no line feed. -/
theorem count_trimBlanks (e : Bool) (t : Text) : (trimBlanks e t).count '\n' = t.count '\n' := by
  induction t with
  | nil => rfl
  | cons c r ih =>
    obtain ⟨-, hc, -, h⟩ | ⟨-, h⟩ := trimBlanks_cons e c r
    · rw [h, ih, List.count_cons_of_ne hc]
    · rw [h, List.count_cons, List.count_cons, ih]

/-- Whether the token has no blank to lose if `rest` follows it: none stands before a line feed, and the token does not
end in one if nothing but blanks is left of its line. -/
def Token.keepsBlanks (t : Token) (rest : Text) : Bool :=
  !blankAtLineEnd t.text &&
    (!endsLine true (trimBlanks true rest) || t.text.getLast?.all fun c => !isBlank c || c == '\n')

/-- Whether no significant token has a blank to lose when the line ends are trimmed. -/
def keepsBlanks : List Token → Bool
  | [] => true
  | t :: ts => (t.isTrivia || t.keepsBlanks (spelling ts)) && keepsBlanks ts

variable {o : LayoutOptions}

/-- What trimming leaves of a text that `rest` follows. -/
def trimmedBefore (o : LayoutOptions) (rest t : Text) : Text :=
  if o.trimLines then trimBlanks (endsLine true (trimBlanks true rest)) t else t

theorem trimmedLines_append (o : LayoutOptions) (s rest : Text) :
    trimmedLines o (s ++ rest) = trimmedBefore o rest s ++ trimmedLines o rest := by
  unfold trimmedLines trimmedBefore
  split
  · exact trimBlanks_append true s rest
  · rfl

theorem trimmedBefore_eq_self_iff {t : Token} {rest : Text} :
    trimmedBefore o rest t.text = t.text ↔ (o.trimLines = true → t.keepsBlanks rest = true) := by
  unfold trimmedBefore
  split
  · rename_i h
    rw [trimBlanks_eq_self_iff]
    cases hlast : t.text.getLast? <;> cases hends : endsLine true (trimBlanks true rest) <;>
      simp [h, Token.keepsBlanks, hlast, hends]
  · rename_i h
    simp [h]

theorem thin_trimmedLines {after : Text} (ha : ∀ d ∈ after.head?, d = '\n') (t : Text) : Thin after t (trimmedLines o t) := by
  unfold trimmedLines
  split
  · apply thin_trimBlanks
    intro _ d hd
    rw [ha d hd]
    rfl
  · exact thin_refl after t

theorem thin_trimmedBefore {after : Text} (ha : ∀ d ∈ after.head?, d = '\n') (rest t : Text) :
    Thin (trimmedLines o rest ++ after) t (trimmedBefore o rest t) := by
  unfold trimmedBefore trimmedLines
  split
  · -- what is left behind the text begins with a line feed if it counts as a line end
    apply thin_trimBlanks
    intro hends d hd
    cases hrest : trimBlanks true rest with
    | nil =>
      rw [hrest] at hd
      rw [ha d hd]
      rfl
    | cons c r =>
      rw [hrest] at hends hd
      obtain rfl : c = d := by simpa using hd
      rw [endsLine, beq_iff_eq] at hends
      rw [hends]
      rfl
  · exact thin_refl _ t

end Blanks

/-! ### What the last pass makes of tokens -/

/-- The significant tokens of a text with trimmed line ends and `after` behind it, token by token of the text. -/
inductive Passed (o : LayoutOptions) (after : Text) : List Token → List Token → Prop where
  | nil : Passed o after [] []
  /-- Whitespace and comments stay whitespace and comments. -/
  | trivia {t : Token} {ts ks : List Token} (ht : t.isTrivia = true) (h : Passed o after ts ks) :
      Passed o after (t :: ts) ks
  /-- A token that is closed stays a token of its class, without its blanks at line ends. -/
  | kept {t : Token} {ts ks : List Token} (ht : t.isTrivia = false) (hcl : t.isClosed = true)
      (h : Passed o after ts ks) : Passed o after (t :: ts) (⟨t.kind, trimmedBefore o (spelling ts) t.text, {}⟩ :: ks)
  /-- A blank that stands for itself is dropped at a line end. -/
  | lost {t : Token} {ts ks : List Token} (ht : t.isTrivia = false)
      (hlost : trimmedBefore o (spelling ts) t.text ≠ t.text) (h : Passed o after ts ks) : Passed o after (t :: ts) ks
  /-- A literal or a class that is never closed takes in all that comes. -/
  | unclosed {t : Token} (ht : t.isTrivia = false) (hcl : t.isClosed = false) :
      Passed o after [t] [⟨t.kind, trimmedLines o t.text ++ after, {}⟩]

section Passed

variable {o : LayoutOptions} {after : Text} {ts ks : List Token}

theorem significant_append_trivia {ws us : List Token} (h : ∀ t ∈ ws, t.isTrivia = true) :
    significant (ws ++ us) = significant us := by
  have hnil : significant ws = [] := by
    rw [significant, List.filter_eq_nil_iff]
    intro t ht
    simp [h t ht]
  rw [significant, List.filter_append, ← significant, hnil]
  rfl

/-- A run of spaces in front of a text adds no significant token. -/
theorem significant_lexemes_spaces {g : Text} (hg : ∀ x ∈ g, isSpace x = true) (s : Text) :
    significant (lexemes .ebnf (g ++ s)) = significant (lexemes .ebnf s) := by
  have htrivia : ∀ {ws : List Token}, (∀ t ∈ ws, t.kind = .whitespace) → ∀ t ∈ ws, t.isTrivia = true := by
    intro ws hws t ht
    simp [Token.isTrivia, hws t ht]
  obtain ⟨ws, ws', us, hws, hws', heq, heq'⟩ := lexemes_spaces (d := .ebnf) hg s
  rw [heq, heq', significant_append_trivia (htrivia hws), significant_append_trivia (htrivia hws')]

theorem significant_cons_trivia {t : Token} (ht : t.isTrivia = true) (ts : List Token) :
    significant (t :: ts) = significant ts :=
  List.filter_cons_of_neg (by simp [ht])

theorem significant_cons {t : Token} (ht : t.isTrivia = false) (ts : List Token) :
    significant (t :: ts) = t :: significant ts :=
  List.filter_cons_of_pos (by simp [ht])

/-- The tokens of a trimmed text with a line feed or nothing behind it. -/
theorem passed_lexemes (ha : ∀ d ∈ after.head?, d = '\n') (hsp : ∀ x ∈ after, isSpace x = true) (s : Text) :
    Passed o after (lexemes .ebnf s) (significant (lexemes .ebnf (trimmedLines o s ++ after))) := by
  generalize hts : lexemes .ebnf s = ts
  induction ts generalizing s with
  | nil =>
    have hnil : s = [] := by
      have hspell := spelling_lexemes .ebnf s
      rw [hts] at hspell
      exact hspell.symm
    have hempty : trimmedLines o [] = [] := by
      unfold trimmedLines
      split <;> rfl
    have hspaces := significant_lexemes_spaces hsp []
    rw [List.append_nil, lexemes_nil] at hspaces
    rw [hnil, hempty, List.nil_append, hspaces]
    exact .nil
  | cons t ts ih =>
    cases hcl : t.isClosed with
    | false =>
      obtain ⟨rfl, hs, hopen⟩ := unclosed_of_lexemes hts hcl
      have hblank : ∀ x ∈ after, isBlank x = true := fun x hx => isBlank_of_isSpace (hsp x hx)
      rw [lexemes_unclosed ((hopen.thin (thin_trimmedLines ha s)).append hblank)]
      cases ht : t.isTrivia with
      | true =>
        rw [significant_cons_trivia (show Token.isTrivia ⟨t.kind, _, {}⟩ = true from ht)]
        exact .trivia ht .nil
      | false =>
        rw [significant_cons (show Token.isTrivia ⟨t.kind, _, {}⟩ = false from ht), ← hs]
        exact .unclosed ht hcl
    | true =>
      obtain ⟨rest, rfl, hrest, hspec⟩ := lexemes_eq_cons hts
      obtain ⟨hl, hap⟩ := hspec hcl
      have hspell : spelling ts = rest := by rw [hrest, spelling_lexemes]
      have hpassed := ih rest hrest.symm
      rw [trimmedLines_append, List.append_assoc]
      rcases thin_token hl hap (thin_trimmedBefore ha rest t.text) (thin_trimmedLines ha rest) ha with
        ⟨hk, hspace⟩ | ⟨hk, hnil⟩ | ⟨hk, hx, hap', -⟩
      · rw [significant_lexemes_spaces hspace]
        exact .trivia (by simp [Token.isTrivia, hk]) hpassed
      · rw [hnil]
        refine .lost (by simp [Token.isTrivia, hk]) ?_ hpassed
        rw [hspell, hnil]
        exact hl.ne_nil.symm
      · rw [lexemes_append hx hap']
        cases ht : t.isTrivia with
        | true =>
          rw [significant_cons_trivia (show Token.isTrivia ⟨t.kind, _, {}⟩ = true from ht)]
          exact .trivia ht hpassed
        | false =>
          rw [significant_cons (show Token.isTrivia ⟨t.kind, _, {}⟩ = false from ht), ← hspell]
          rw [← hspell] at hpassed
          exact .kept ht hcl hpassed

/-- The last pass makes no tokens. -/
theorem Passed.length_le (h : Passed o after ts ks) : ks.length ≤ (significant ts).length := by
  induction h with
  | nil => exact Nat.le_refl _
  | trivia ht _ ih => rwa [significant_cons_trivia ht]
  | kept ht _ _ ih =>
    rw [significant_cons ht, List.length_cons, List.length_cons]
    omega
  | lost ht _ _ ih =>
    rw [significant_cons ht, List.length_cons]
    omega
  | unclosed ht =>
    rw [significant_cons ht]
    simp

/-- Whether every literal and every character class is terminated. -/
def quotesClosed (ts : List Token) : Bool :=
  ts.all fun t => t.isTrivia || t.isClosed

theorem keepsBlanks_map_bare (ts : List Token) : keepsBlanks (ts.map Token.bare) = keepsBlanks ts := by
  induction ts with
  | nil => rfl
  | cons t ts ih =>
    rw [List.map_cons, keepsBlanks, keepsBlanks, ih, spelling_map_bare]
    rfl

/-- The significant tokens stay what they are exactly if none has a blank to lose and none takes in what is put behind
the text. -/
theorem Passed.eq_significant_iff (h : Passed o after ts ks) (hbare : ∀ t ∈ ts, t.bare = t)
    (ha : ∀ x ∈ after, x = '\n') :
    ks = significant ts ↔ (o.trimLines = true → keepsBlanks ts = true) ∧ (after ≠ [] → quotesClosed ts = true) := by
  induction h with
  | nil => simp [significant, keepsBlanks, quotesClosed]
  | @trivia t ts ks ht h ih =>
    rw [significant_cons_trivia ht, ih fun u hu => hbare u (List.mem_cons_of_mem _ hu)]
    simp [keepsBlanks, quotesClosed, ht]
  | @kept t ts ks ht hcl h ih =>
    have htoken : (⟨t.kind, trimmedBefore o (spelling ts) t.text, {}⟩ : Token) = t ↔
        (o.trimLines = true → t.keepsBlanks (spelling ts) = true) := by
      rw [← trimmedBefore_eq_self_iff]
      refine ⟨fun heq => congrArg Token.text heq, fun heq => ?_⟩
      rw [heq]
      exact hbare t List.mem_cons_self
    rw [significant_cons ht, List.cons.injEq, htoken, ih fun u hu => hbare u (List.mem_cons_of_mem _ hu)]
    simp only [keepsBlanks, quotesClosed, ht, hcl, List.all_cons, Bool.false_or, Bool.true_and, Bool.and_eq_true]
    constructor
    · rintro ⟨hblanks, hrest, hclosed⟩
      exact ⟨fun htrim => ⟨hblanks htrim, hrest htrim⟩, hclosed⟩
    · rintro ⟨hblanks, hclosed⟩
      exact ⟨fun htrim => (hblanks htrim).1, fun htrim => (hblanks htrim).2, hclosed⟩
  | @lost t ts ks ht hlost h ih =>
    rw [Ne, trimmedBefore_eq_self_iff] at hlost
    constructor
    · intro heq
      have hle := h.length_le
      rw [heq, significant_cons ht, List.length_cons] at hle
      omega
    · rintro ⟨hblanks, -⟩
      refine absurd (fun htrim => ?_) hlost
      have hall := hblanks htrim
      rw [keepsBlanks, ht, Bool.false_or, Bool.and_eq_true] at hall
      exact hall.1
  | @unclosed t ht hcl =>
    have hself : trimmedBefore o [] t.text = trimmedLines o t.text := by
      unfold trimmedBefore trimmedLines
      rfl
    have hblanks := @trimmedBefore_eq_self_iff o t []
    rw [hself] at hblanks
    have hkeeps : keepsBlanks [t] = t.keepsBlanks [] := by
      simp [keepsBlanks, ht, spelling]
    have hquotes : quotesClosed [t] = false := by
      simp [quotesClosed, ht, hcl]
    rw [significant_cons ht, hkeeps, hquotes, ← hblanks]
    constructor
    · intro heq
      have htext : trimmedLines o t.text ++ after = t.text := congrArg Token.text (List.cons.inj heq).1
      -- a line feed that is taken in is one more than there was
      have hcount : (trimmedLines o t.text).count '\n' = t.text.count '\n' := by
        unfold trimmedLines
        split
        · exact count_trimBlanks true _
        · rfl
      have hnil : after = [] := by
        have hzero : after.count '\n' = 0 := by
          have hsum := congrArg (List.count '\n') htext
          rw [List.count_append, hcount] at hsum
          omega
        cases after with
        | nil => rfl
        | cons x z =>
          rw [ha x List.mem_cons_self, List.count_cons_self] at hzero
          omega
      rw [hnil, List.append_nil] at htext
      exact ⟨htext, fun hne => absurd hnil hne⟩
    · rintro ⟨htext, hafter⟩
      have hnil : after = [] := by
        by_contra hne
        cases hafter hne
      rw [hnil, List.append_nil, htext]
      exact congrArg (· :: _) (hbare t List.mem_cons_self)

end Passed

/-! ### The last pass over laid out rules -/

section LaidOut

variable {o : LayoutOptions}

theorem getLast?_joinedRules (o : LayoutOptions) (rules : List Rule) : ∀ c ∈ (joinedRules o rules).getLast?, c = ';' := by
  intro c hc
  rcases eq_or_ne rules [] with rfl | hne
  · cases hc
  · rw [joinedRules, getLast?_joined hne] at hc
    exact (Option.some.inj hc).symm

/-- The last pass over the laid out rules of a document leaves their significant tokens what they are exactly if, when
line ends are trimmed, no significant token has a blank to lose, and, when a line feed is put at the end, every literal
and every character class is terminated. -/
theorem significant_cleanUp_iff (source : Text) (o : LayoutOptions) :
    (significant (scan .ebnf (cleanUp o (joinedRules o (documentRules source))))).map Token.sign =
        (significant (scan .ebnf (joinedRules o (documentRules source)))).map Token.sign ↔
      (o.trimLines = true → keepsBlanks (scan .ebnf (joinedRules o (documentRules source))) = true) ∧
        (o.finalNewline = true → quotesClosed (scan .ebnf (joinedRules o (documentRules source))) = true) := by
  generalize hj : joinedRules o (documentRules source) = s
  have hlast : ∀ c ∈ s.getLast?, c = ';' := hj ▸ getLast?_joinedRules o (documentRules source)
  have hends : ∀ c ∈ s.getLast?, isBlank c = false := by
    intro c hc
    rw [hlast c hc]
    decide
  have hbare : ∀ t ∈ lexemes .ebnf s, t.bare = t := fun t => bare_of_mem_lexemes
  have hkeeps : keepsBlanks (lexemes .ebnf s) = keepsBlanks (scan .ebnf s) := keepsBlanks_map_bare _
  have hquotes : quotesClosed (lexemes .ebnf s) = quotesClosed (scan .ebnf s) := List.all_map
  have hafter : ∀ x ∈ ending o (trimmedLines o s), x = '\n' := by
    intro x hx
    rcases ending_cases o (trimmedLines o s) with h | ⟨h, -⟩
    · rw [h] at hx
      cases hx
    · rw [h] at hx
      exact List.mem_singleton.1 hx
  have hpassed : Passed o (ending o (trimmedLines o s)) (lexemes .ebnf s) (significant (lexemes .ebnf (cleanUp o s))) := by
    rw [cleanUp_eq hends]
    apply passed_lexemes
    · exact fun d hd => hafter d (List.mem_of_mem_head? hd)
    · intro x hx
      rw [hafter x hx]
      rfl
  rw [map_sign_significant_iff, hpassed.eq_significant_iff hbare hafter, hkeeps, hquotes]
  refine and_congr_right fun _ => ?_
  -- a line feed is put at the end of every text but the empty one, which has no tokens
  cases hs : s with
  | nil => simp [scan, quotesClosed]
  | cons c r =>
    have hne : (trimmedLines o s).isEmpty = false := by
      have hlast' := getLast?_trimmedLines (o := o) hends
      cases ht : trimmedLines o s with
      | nil =>
        rw [ht, hs] at hlast'
        cases List.getLast?_eq_none_iff.1 hlast'.symm
      | cons => rfl
    rw [← hs, ending, hne]
    cases o.finalNewline <;> simp

/-- A blank in front of a line feed in a literal is lost. -/
theorem literalBlank_lost :
    ¬∀ (source : Text) (o : LayoutOptions),
      (significant (scan .ebnf (cleanUp o (joinedRules o (documentRules source))))).map Token.sign =
        (significant (scan .ebnf (joinedRules o (documentRules source)))).map Token.sign := by
  intro h
  have hsame := h "a ::= 'x \n' ;".toList {}
  revert hsame
  decide +kernel

-- So is a blank that stands for itself at the end of a wrapped line; and a literal that is never closed grows.
example : keepsBlanks (scan .ebnf (joinedRules { width := 8 } (documentRules "a ::= b \u00a0 c ;".toList))) = false := by
  decide +kernel

example : quotesClosed (scan .ebnf (joinedRules {} (documentRules "a ::= 'b ;".toList))) = false := by decide +kernel

end LaidOut

end GrammarText
