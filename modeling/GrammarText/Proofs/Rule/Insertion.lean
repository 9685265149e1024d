import GrammarText.Proofs.Antlr.Comment
import GrammarText.Proofs.Layout.Quiet
import GrammarText.Proofs.Rule.Alternatives
import GrammarText.Proofs.Rule.Padding

/-!
# A comment between two tokens

A block comment with a space on either side is put between two tokens of a text. What the scanner makes of
the new text differs from the tokens before only around the comment: whitespace there may run together, and
a line comment that stands right before the place takes the comment in (`inserted_lexemes`). So trivia came
to stand among the tokens, a comment among them, and no token that carries grammar has changed. The search
for rules passes over comments in every place but one: the defining sign has to follow the name of a rule
with nothing but whitespace in between. Everywhere else the rules stay the same (`grammar_inserted`).
-/

namespace GrammarText

/-- A block comment with a space before it and one behind it. -/
def spacedComment (c : Text) : Text :=
  ' ' :: (Antlr.blockComment c ++ [' '])

/-- Whether the tokens `ts` are those of `left` and `right`, with trivia in between, a comment among them,
that may have taken the place of trivia next to them. -/
def Inserted (left right ts : List Token) : Prop :=
  ∃ left' lost mid lost' right', left = left' ++ lost ∧ right = lost' ++ right' ∧ ts = left' ++ (mid ++ right') ∧
    (∀ t ∈ lost ++ (mid ++ lost'), t.isTrivia = true) ∧ ∃ t ∈ mid, t.kind = .comment

/-! ### What the scanner makes of it -/

section Scan

variable {c s a b x : Text} {k : TokenKind} {left right : List Token}

theorem isPrefix_of_append_space {p : Text} (hp : ∀ y ∈ p, isSpace y = false) (h : p <+: a ++ ' ' :: b) : p <+: a := by
  induction a generalizing p with
  | nil =>
    cases p with
    | nil => exact List.nil_prefix
    | cons y p =>
      obtain ⟨rfl, -⟩ := List.cons_prefix_cons.1 h
      exact absurd (hp ' ' List.mem_cons_self) (by decide)
  | cons z a ih =>
    cases p with
    | nil => exact List.nil_prefix
    | cons y p =>
      obtain ⟨rfl, hpa⟩ := List.cons_prefix_cons.1 h
      exact List.cons_prefix_cons.2 ⟨rfl, ih (fun y hy => hp y (List.mem_cons_of_mem _ hy)) hpa⟩

/-- A token ends where it did if something that begins with a space was put in further behind. -/
theorem Apart.insert (hl : Lexeme .ebnf k x) (h : Apart .ebnf k x (a ++ b)) (ha : a ≠ []) (b' : Text) :
    Apart .ebnf k x (a ++ ' ' :: b') := by
  have hhead : (a ++ ' ' :: b').head? = (a ++ b).head? := by
    obtain ⟨y, a', rfl⟩ := List.exists_cons_of_ne_nil ha
    rfl
  have hprefix : ∀ p : Text, (∀ y ∈ p, isSpace y = false) → p <+: a ++ ' ' :: b' → p <+: a ++ b :=
    fun p hp hpre => (isPrefix_of_append_space hp hpre).trans (List.prefix_append a b)
  cases k with
  | literal | charClass | action => trivial
  | whitespace =>
    intro y hy
    exact h y (hhead ▸ hy)
  | comment =>
    intro hp y hy
    exact h hp y (hhead ▸ hy)
  | operator => exact h.of_isPrefix hl (.inl rfl) hprefix
  | identifier => exact h.of_isPrefix hl (.inr rfl) hprefix

/-- Behind whitespace, and in front of any text, the comment is a token. -/
theorem lexemes_spacedComment {g : Text} (hg : ∀ y ∈ g, isSpace y = true) (hc : Antlr.Enclosable c) (s : Text) :
    ∃ blanks lost right', (∀ t ∈ blanks ++ lost, t.kind = .whitespace) ∧ lexemes .ebnf s = lost ++ right' ∧
      lexemes .ebnf (g ++ (spacedComment c ++ s)) =
        ⟨.whitespace, g ++ [' '], {}⟩ :: ⟨.comment, Antlr.blockComment c, {}⟩ :: (blanks ++ right') := by
  obtain ⟨blanks, lost, right', hblanks, hlost, heq, hs⟩ := lexemes_spaces (d := .ebnf) (g := [' ']) (by simp [isSpace]) s
  refine ⟨blanks, lost, right', fun t ht => (List.mem_append.1 ht).elim (hblanks t) (hlost t), hs, ?_⟩
  have hspace : ∀ y ∈ g ++ [' '], isSpace y = true := fun y hy =>
    (List.mem_append.1 hy).elim (hg y) fun hy => by rw [List.mem_singleton.1 hy]; rfl
  have hline : ¬['/', '/'] <+: Antlr.blockComment c := by
    rintro ⟨z, hz⟩
    cases hz
  have htext : g ++ (spacedComment c ++ s) = (g ++ [' ']) ++ (Antlr.blockComment c ++ ([' '] ++ s)) := by
    simp [spacedComment]
  rw [htext, lexemes_gap (by simp) hspace, lexemes_append (Antlr.lexeme_blockComment hc) fun h => absurd h hline, heq]
  rintro y hy
  obtain rfl : '(' = y := Option.some.inj hy
  decide

theorem newline_not_mem_spacedComment (hn : '\n' ∉ c) : '\n' ∉ spacedComment c := by
  simp [spacedComment, Antlr.blockComment, hn]

theorem Inserted.cons {ts : List Token} (h : Inserted left right ts) (t : Token) : Inserted (t :: left) right (t :: ts) := by
  obtain ⟨left', lost, mid, lost', right', rfl, hright, rfl, htrivia, hcomment⟩ := h
  exact ⟨t :: left', lost, mid, lost', right', rfl, hright, rfl, htrivia, hcomment⟩

/-- In front of a text the comment takes the place of whitespace. -/
theorem inserted_before (hc : Antlr.Enclosable c) (s : Text) :
    Inserted [] (lexemes .ebnf s) (lexemes .ebnf (spacedComment c ++ s)) := by
  obtain ⟨blanks, lost, right', hk, hs, heq⟩ := lexemes_spacedComment (g := []) (by simp) hc s
  rw [List.nil_append] at heq
  refine ⟨[], [], _ :: _ :: blanks, lost, right', rfl, hs, heq, ?_, _, List.mem_cons_of_mem _ List.mem_cons_self, rfl⟩
  have htrivia : ∀ t ∈ blanks ++ lost, t.isTrivia = true := fun t ht => by simp [Token.isTrivia, hk t ht]
  simpa [Token.isTrivia] using htrivia

/-- Right behind a token the comment takes the place of whitespace, or it becomes a part of the line comment
that the token is. -/
theorem inserted_behind {t : Token} (hl : Lexeme .ebnf t.kind t.text) (ht : t.bare = t)
    (ha : Apart .ebnf t.kind t.text s) (hc : Antlr.Enclosable c) (hn : '\n' ∉ c) :
    Inserted [t] (lexemes .ebnf s) (lexemes .ebnf (t.text ++ (spacedComment c ++ s))) := by
  by_cases hw : t.kind = .whitespace
  · have hspace : ∀ y ∈ t.text, isSpace y = true := by
      rw [hw] at hl
      generalize t.text = x at hl
      cases hl with
      | space hy h => simpa [hy] using h
    obtain ⟨blanks, lost, right', hk, hs, heq⟩ := lexemes_spacedComment hspace hc s
    refine ⟨[], [t], _ :: _ :: blanks, lost, right', rfl, hs, heq, ?_, _, List.mem_cons_of_mem _ List.mem_cons_self,
      rfl⟩
    have htrivia : ∀ u ∈ blanks ++ lost, u.isTrivia = true := fun u hu => by simp [Token.isTrivia, hk u hu]
    simpa [Token.isTrivia, hw] using htrivia
  by_cases hline : t.kind = .comment ∧ ['/', '/'] <+: t.text
  · obtain ⟨hk, hslashes⟩ := hline
    have hlonger : Lexeme .ebnf .comment (t.text ++ spacedComment c) := by
      rw [hk] at hl
      generalize t.text = x at hl hslashes
      cases hl with
      | starred => cases (List.cons_prefix_cons.1 hslashes).1
      | slashed => cases (List.cons_prefix_cons.1 (List.cons_prefix_cons.1 hslashes).2).1
      | line h => exact .line (by simp [h, newline_not_mem_spacedComment hn])
    have hcut : lexemes .ebnf (t.text ++ (spacedComment c ++ s)) =
        ⟨.comment, t.text ++ spacedComment c, {}⟩ :: lexemes .ebnf s := by
      rw [hk] at ha
      rw [← List.append_assoc, lexemes_append hlonger fun _ => ha hslashes]
    exact ⟨[], [t], [_], [], lexemes .ebnf s, rfl, rfl, hcut, by simp [Token.isTrivia, hk], _, List.mem_singleton_self _,
      rfl⟩
  · have hgap : Apart .ebnf t.kind t.text (spacedComment c ++ s) := by
      apply apart_of_gap hl hw
      · rintro y hy
        obtain rfl : ' ' = y := Option.some.inj hy
        rfl
      · exact fun hk hp => absurd ⟨hk, hp⟩ hline
    have hbare : (⟨t.kind, t.text, {}⟩ : Token) = t := ht
    rw [lexemes_append hl hgap, hbare]
    exact (inserted_before hc s).cons t

/-- The comment between any two tokens. -/
theorem inserted_lexemes (h : lexemes .ebnf s = left ++ right) (hcl : ∀ t ∈ left, t.isClosed = true)
    (hc : Antlr.Enclosable c) (hn : '\n' ∉ c) :
    Inserted left right (lexemes .ebnf (spelling left ++ (spacedComment c ++ spelling right))) := by
  induction left generalizing s with
  | nil =>
    have hs : right = lexemes .ebnf (spelling right) := by
      rw [List.nil_append] at h
      rw [← h, spelling_lexemes]
    have := inserted_before hc (spelling right)
    rwa [← hs] at this
  | cons t left ih =>
    obtain ⟨rest, -, hrest, hspec⟩ := lexemes_eq_cons h
    obtain ⟨hl, ha⟩ := hspec (hcl t List.mem_cons_self)
    have ht : t.bare = t := by
      have hmem : t ∈ lexemes .ebnf s := by
        rw [h]
        exact List.mem_cons_self
      exact bare_of_mem_lexemes hmem
    obtain rfl : rest = spelling left ++ spelling right := by
      rw [← spelling_lexemes .ebnf rest, ← hrest]
      simp [spelling]
    have hcons : spelling (t :: left) ++ (spacedComment c ++ spelling right) =
        t.text ++ (spelling left ++ (spacedComment c ++ spelling right)) := by
      simp [spelling]
    rw [hcons]
    cases left with
    | nil =>
      have hbehind := inserted_behind hl ht ha hc hn
      rw [← hrest] at hbehind
      exact hbehind
    | cons u left =>
      have hne : spelling (u :: left) ≠ [] := by
        obtain ⟨rest', -, -, hspec'⟩ := lexemes_eq_cons hrest.symm
        simp [spelling, (hspec' (hcl u (by simp))).1.ne_nil]
      have hrun := ih hrest.symm fun v hv => hcl v (List.mem_cons_of_mem _ hv)
      have hcut : lexemes .ebnf (t.text ++ (spelling (u :: left) ++ (spacedComment c ++ spelling right))) =
          t.bare :: lexemes .ebnf (spelling (u :: left) ++ (spacedComment c ++ spelling right)) :=
        lexemes_append hl (ha.insert hl hne _)
      rw [hcut, ht]
      exact hrun.cons t

end Scan

/-! ### What the search makes of it -/

section Search

variable {shown : Token → Bool} {named : Position → Prop} {ts us : List Token}

theorem Padded.refl (shown : Token → Bool) (named : Position → Prop) (ts : List Token) : Padded shown named ts ts := by
  induction ts with
  | nil => exact .nil
  | cons t ts ih => exact .keep id (fun _ => id) ih

theorem Padded.append_left {trivia : List Token} (h : Padded shown named ts us) (ht : ∀ t ∈ trivia, shown t = false) :
    Padded shown named (trivia ++ ts) us := by
  induction trivia with
  | nil => exact h
  | cons t trivia ih => exact .left (ht t List.mem_cons_self) (ih fun u hu => ht u (List.mem_cons_of_mem _ hu))

theorem Padded.append_right {trivia : List Token} (h : Padded shown named ts us) (ht : ∀ t ∈ trivia, shown t = false) :
    Padded shown named ts (trivia ++ us) := by
  induction trivia with
  | nil => exact h
  | cons t trivia ih => exact .right (ht t List.mem_cons_self) (ih fun u hu => ht u (List.mem_cons_of_mem _ hu))

/-- Behind a comment the defining sign does not come first. -/
theorem head?_dense_append_trivia {trivia : List Token} (h : ∀ t ∈ trivia, t.isTrivia = true)
    (hne : dense trivia ≠ []) (ts : List Token) :
    (dense (trivia ++ ts)).head?.any (·.isOp definingSign) = false := by
  obtain ⟨t, us, ht⟩ := List.exists_cons_of_ne_nil hne
  have hmem : t ∈ trivia := (mem_dense.1 (ht ▸ List.mem_cons_self)).1
  simp [ht, isOp_eq_false (kind_ne_of_isTrivia (h t hmem)).1]

/-- Trivia with a comment among them can be put in, and can take the place of trivia, wherever they do not part
the name of a rule that is agreed on from the defining sign. -/
theorem padded_of_inserted {left lost mid lost' right : List Token}
    (htrivia : ∀ t ∈ lost ++ (mid ++ lost'), t.isTrivia = true) (hcomment : ∃ t ∈ mid, t.kind = .comment)
    (hplace : ∀ t ∈ (dense (left ++ lost)).getLast?, named t.start →
      (dense (lost' ++ right)).head?.any (·.isOp definingSign) = false) :
    Padded (!·.isTrivia) named (left ++ (lost ++ (lost' ++ right))) (left ++ (mid ++ right)) := by
  have hmid : dense mid ≠ [] := by
    obtain ⟨t, ht, hk⟩ := hcomment
    exact List.ne_nil_of_mem (mem_dense.2 ⟨ht, by simp [hk]⟩)
  have hlost : ∀ t ∈ lost, t.isTrivia = true := fun t ht => htrivia t (by simp [ht])
  induction left with
  | nil =>
    refine ((Padded.refl _ named right).append_left ?_).append_left ?_ |>.append_right ?_
    · exact fun t ht => by simp [htrivia t (by simp [ht])]
    · exact fun t ht => by simp [hlost t ht]
    · exact fun t ht => by simp [htrivia t (by simp [ht])]
  | cons t left ih =>
    have hrest : ∀ u ∈ (dense (left ++ lost)).getLast?, named u.start →
        (dense (lost' ++ right)).head?.any (·.isOp definingSign) = false := by
      intro u hu
      refine hplace u ?_
      by_cases hw : t.kind = .whitespace
      · rwa [List.cons_append, dense_cons_whitespace hw]
      · rw [List.cons_append, dense_cons hw, List.getLast?_cons, hu]
        rfl
    rw [List.cons_append, List.cons_append]
    by_cases hd : dense left = []
    · have hnot : startsRule t (left ++ (mid ++ right)) = false := by
        rw [startsRule_eq, dense_append, hd, List.nil_append,
          head?_dense_append_trivia (fun u hu => htrivia u (by simp [hu])) hmid, Bool.and_false]
      refine .keep (fun h => ?_) (fun hn h => ?_) (ih hrest)
      · rw [hnot] at h
        cases h
      · -- the place lies behind the token, and at most whitespace lies in between
        exfalso
        rw [startsRule_eq, Bool.and_eq_true, beq_iff_eq, dense_append, hd, List.nil_append] at h
        by_cases hl : dense lost = []
        · have hlast : dense (t :: left ++ lost) = [t] := by
            rw [List.cons_append, dense_cons (by simp [h.1]), dense_append, hd, hl]
            rfl
          rw [dense_append, hl, List.nil_append, hplace t (by rw [hlast]; rfl) hn] at h
          cases h.2
        · rw [head?_dense_append_trivia hlost hl] at h
          cases h.2
    · have hstart : startsRule t (left ++ (mid ++ right)) = startsRule t (left ++ (lost ++ (lost' ++ right))) := by
        obtain ⟨u, us, hu⟩ := List.exists_cons_of_ne_nil hd
        simp [startsRule_eq, hu]
      exact .keep (fun h => hstart ▸ h) (fun _ h => hstart ▸ h) (ih hrest)

end Search

/-- Whether the place between the tokens lies between the name of one of the rules and the defining sign. -/
def splitsHead (rules : List Rule) (left right : List Token) : Bool :=
  (dense left).getLast?.any (fun t => rules.any (·.start == t.start)) &&
    (dense right).head?.any (·.isOp definingSign)

/-- The name of a rule, and what its body says. -/
def Rule.grammar (r : Rule) : Text × List (TokenKind × Text) :=
  (r.name, (significant r.body).map Token.sign)

theorem grammar_bare (r : Rule) : r.bare.grammar = r.grammar := by
  rw [Rule.grammar, Rule.grammar, Rule.bare, significant_map_bare, List.map_map]
  rfl

theorem map_grammar_extract_map_bare (ts : List Token) :
    (extract (ts.map Token.bare)).map Rule.grammar = (extract ts).map Rule.grammar := by
  rw [extract, extract, extractFrom_map_bare, List.map_map, List.map_map, List.map_map]
  exact List.map_congr_left fun r _ => grammar_bare r.1

theorem map_grammar_documentRules (source : Text) :
    (documentRules source).map Rule.grammar = (extract (lexemes .ebnf source)).map Rule.grammar :=
  (map_grammar_extract_map_bare (scan .ebnf source)).symm

/-- What is seen of rules without trivia tells their grammar. -/
theorem map_grammar_of_view {ts us : List Token}
    (h : (extractFrom [] us).map (view (!·.isTrivia)) = (extractFrom [] ts).map (view (!·.isTrivia))) :
    (extract us).map Rule.grammar = (extract ts).map Rule.grammar := by
  have hview : ∀ vs, (extract vs).map Rule.grammar =
      ((extractFrom [] vs).map (view (!·.isTrivia))).map fun v => (v.1, v.2.1.map Token.sign) := by
    intro vs
    rw [extract, List.map_map, List.map_map]
    rfl
  rw [hview, hview, h]

/-- A comment between two tokens of a text whose tokens are closed changes neither which rules are found nor what
their names and the significant tokens of their bodies are, unless it parts the name of a rule from the defining
sign. -/
theorem grammar_inserted {source c : Text} {left right : List Token} (h : scan .ebnf source = left ++ right)
    (hcl : ∀ t ∈ scan .ebnf source, t.isClosed = true) (hc : Antlr.Enclosable c) (hn : '\n' ∉ c)
    (hplace : splitsHead (documentRules source) left right = false) :
    (documentRules (spelling left ++ (spacedComment c ++ spelling right))).map Rule.grammar =
      (documentRules source).map Rule.grammar := by
  have hlex : lexemes .ebnf source = left.map Token.bare ++ right.map Token.bare := by
    rw [lexemes, h, List.map_append]
  have hspell : ∀ ts : List Token, spelling (ts.map Token.bare) = spelling ts := by
    simp [spelling, List.flatMap_map]
  have hclosed : ∀ t ∈ left.map Token.bare, t.isClosed = true := by
    intro t ht
    obtain ⟨u, hu, rfl⟩ := List.mem_map.1 ht
    exact hcl u (h ▸ List.mem_append_left _ hu)
  obtain ⟨left', lost, mid, lost', right', hleft, hright, hnew, htrivia, hcomment⟩ :=
    inserted_lexemes hlex hclosed hc hn
  obtain ⟨left₁, left₂, rfl, rfl, rfl⟩ := List.map_eq_append_iff.1 hleft
  obtain ⟨right₁, right₂, rfl, rfl, rfl⟩ := List.map_eq_append_iff.1 hright
  rw [hspell, hspell] at hnew
  have hmid : mid.map Token.bare = mid := by
    have hmem : ∀ t ∈ mid,
        t ∈ lexemes .ebnf (spelling (left₁ ++ left₂) ++ (spacedComment c ++ spelling (right₁ ++ right₂))) := by
      intro t ht
      rw [hnew]
      simp [ht]
    exact (List.map_congr_left fun t ht => bare_of_mem_lexemes (hmem t ht)).trans (List.map_id mid)
  have hpadded : Padded (!·.isTrivia) (fun p => ∃ r ∈ documentRules source, r.start = p)
      (left₁ ++ (left₂ ++ (right₁ ++ right₂))) (left₁ ++ (mid ++ right₂)) := by
    refine padded_of_inserted ?_ hcomment fun t ht hnamed => ?_
    · have hbare : ∀ t ∈ (left₂ ++ (mid ++ right₁)).map Token.bare, t.isTrivia = true := by
        rwa [List.map_append, List.map_append, hmid]
      exact fun t ht => hbare t.bare (List.mem_map_of_mem ht)
    · obtain ⟨r, hr, hstart⟩ := hnamed
      have hrule : (documentRules source).any (·.start == t.start) = true :=
        List.any_eq_true.2 ⟨r, hr, by simpa using hstart⟩
      rw [splitsHead, Option.mem_def.1 ht, Option.any_some, hrule, Bool.true_and] at hplace
      exact hplace
  have hold : scan .ebnf source = left₁ ++ (left₂ ++ (right₁ ++ right₂)) := by rw [h, List.append_assoc]
  have hview : (extractFrom [] (left₁ ++ (mid ++ right₂))).map (view (!·.isTrivia)) =
      (extractFrom [] (left₁ ++ (left₂ ++ (right₁ ++ right₂)))).map (view (!·.isTrivia)) := by
    refine hpadded.map_view (fun t ht => by simpa using ht) (fun r hr => ?_) []
    exact ⟨r.1, by rw [documentRules, hold, extract]; exact List.mem_map_of_mem hr, rfl⟩
  calc (documentRules (spelling (left₁ ++ left₂) ++ (spacedComment c ++ spelling (right₁ ++ right₂)))).map Rule.grammar
      = (extract ((left₁ ++ (mid ++ right₂)).map Token.bare)).map Rule.grammar := by
        rw [map_grammar_documentRules, hnew, List.map_append, List.map_append, hmid]
    _ = (extract (left₁ ++ (left₂ ++ (right₁ ++ right₂)))).map Rule.grammar := by
        rw [map_grammar_extract_map_bare, map_grammar_of_view hview]
    _ = (documentRules source).map Rule.grammar := by rw [documentRules, hold]

/-- Two rules, the first ended by the second. In its parentheses a name stands before a defining sign. -/
def nestedSign : Text :=
  "a ::= ( b ::= 'c' )\nd ::= e // f\n;".toList

/-- The comment may stand in front of a defining sign in parentheses. -/
theorem grammar_inserted_nestedSign :
    (documentRules nestedSign).length = 2 ∧
      spelling ((scan .ebnf nestedSign).take 7) = "a ::= ( b".toList ∧
      (documentRules (spelling ((scan .ebnf nestedSign).take 7) ++
        (spacedComment "x".toList ++ spelling ((scan .ebnf nestedSign).drop 7)))).map Rule.grammar =
          (documentRules nestedSign).map Rule.grammar :=
  ⟨by decide +kernel, by decide +kernel, grammar_inserted (List.take_append_drop 7 _).symm (by decide +kernel)
    (by decide +kernel) (by decide +kernel) (by decide +kernel)⟩

/-- Between the name of a rule and the defining sign a comment takes the rule away. -/
theorem partedHead_lost :
    ∃ (source c : Text) (left right : List Token), scan .ebnf source = left ++ right ∧
      (∀ t ∈ scan .ebnf source, t.isClosed = true) ∧ Antlr.Enclosable c ∧ '\n' ∉ c ∧
        (documentRules (spelling left ++ (spacedComment c ++ spelling right))).map Rule.grammar ≠
          (documentRules source).map Rule.grammar :=
  ⟨"a ::= b ;".toList, "c".toList, (scan .ebnf "a ::= b ;".toList).take 1, (scan .ebnf "a ::= b ;".toList).drop 1,
    (List.take_append_drop 1 _).symm, by decide +kernel, by decide +kernel, by decide +kernel, by decide +kernel⟩

end GrammarText
