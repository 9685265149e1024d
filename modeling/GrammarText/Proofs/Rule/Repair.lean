import GrammarText.Proofs.Rule.Partition

/-!
# Writing in a missing semicolon

A partition leaves the search no choice: every stretch is found as it is written, with the ending that
the token behind its body gives it (`Partition.extractFrom_eq`). Nothing in this depends on whether a
semicolon that ended a body is still there, since the search passes over it (`extractFrom_stretch`). So
a semicolon that is written behind a body whose parentheses are closed changes no rule; the case of
interest is a body that only the next rule ended.
-/

namespace GrammarText

variable {pending : List Text} {ts us us' rest : List Token} {s : RuleStretch} {ss : List RuleStretch}

/-! ### Passing over a gap -/

/-- A rule begins at the same tokens whatever stands behind the end, if something other than whitespace
is left before it. -/
theorem Idle.append (h : Idle ts rest) (hrest : dense rest ≠ []) (us : List Token) : Idle ts (rest ++ us) := by
  intro before t after heq hb
  refine h before t after heq ?_
  obtain ⟨u, us', hu⟩ := List.exists_cons_of_ne_nil hrest
  rw [beginsRule_cons_iff, startsRule_eq] at hb ⊢
  simpa [hu] using hb

theorem Idle.tail {t : Token} (h : Idle (t :: ts) rest) : Idle ts rest :=
  fun before u after heq => h (t :: before) u after (by rw [heq]; rfl)

/-- The search passes over a gap and keeps its comments. -/
theorem extractFrom_gap_append (h : Idle ts rest) (hrest : leadingBlank rest = []) (pending : List Text) :
    extractFrom pending (ts ++ rest) = extractFrom (pending ++ keptComments ts) rest := by
  induction ts generalizing pending with
  | nil => rw [List.nil_append, keptComments, List.append_nil]
  | cons t ts ih =>
    have hblank : leadingBlank (ts ++ rest) = leadingBlank ts := by
      cases ts with
      | nil => exact hrest
      | cons u ts => rfl
    have hstart : startsRule t (ts ++ rest) = false := by
      simpa [beginsRule_cons_iff] using h [] t ts rfl
    rw [List.cons_append, keptComments]
    split
    · rename_i hk
      rw [extractFrom_comment hk, ih h.tail, hblank, List.append_assoc]
      rfl
    · rename_i hk
      rw [extractFrom_skip hk hstart, ih h.tail]

/-- The search passes over semicolons. -/
theorem extractFrom_semicolons (hs : ∀ t ∈ us, t.isOp [';'] = true) (pending : List Text) (ts : List Token) :
    extractFrom pending (us ++ ts) = extractFrom pending ts := by
  induction us with
  | nil => rfl
  | cons u us ih =>
    have hu := kind_of_isOp (hs u List.mem_cons_self)
    rw [List.cons_append, extractFrom_skip (by simp [hu]) (by simp [startsRule, hu])]
    exact ih fun t ht => hs t (List.mem_cons_of_mem _ ht)

/-- Nothing that stands behind a stretch makes a rule begin in its gap. -/
theorem RuleStretch.WellFormed.idle (hs : s.WellFormed) (us : List Token) : Idle s.gap (s.own ++ us) :=
  hs.gap.append (by simp [RuleStretch.own, dense_cons, hs.name]) us

theorem RuleStretch.tokens_ne_nil (s : RuleStretch) : s.tokens ≠ [] := by
  simp [RuleStretch.tokens, RuleStretch.own]

/-! ### Reading a body to its end -/

/-- How a body ends in front of tokens. -/
def endBefore : List Token → BodyEnd
  | [] => .exhausted
  | t :: _ => if t.isOp [';'] then .terminated else .interrupted

/-- A body ends in one way only. -/
theorem EndsBefore.eq_endBefore {body : List Token} {e : BodyEnd} (h : EndsBefore body us e) : e = endBefore us := by
  cases e with
  | terminated =>
    obtain ⟨-, semi, us', rfl, hs⟩ := h
    simp [endBefore, hs]
  | exhausted =>
    obtain rfl : us = [] := h
    rfl
  | interrupted =>
    obtain ⟨-, -, trivia, us', rfl, htrivia, name, blanks, sign, rest, rfl, hn, -, -⟩ := h
    cases trivia with
    | nil => simp [endBefore, Token.isOp, hn]
    | cons t trivia =>
      have ht := (kind_ne_of_isTrivia (htrivia t List.mem_cons_self)).1
      simp [endBefore, isOp_eq_false ht]

/-- In front of the beginning of a rule a body is read up to it. -/
theorem readBody_beginsRule (h : BeginsRule us) : readBody 0 us = ⟨[], .interrupted, us⟩ := by
  obtain ⟨name, blanks, sign, rest, rfl, hn, hb, hs⟩ := h
  have hstart : startsRule name (blanks ++ sign :: rest) = true :=
    beginsRule_cons_iff.1 ⟨name, blanks, sign, rest, rfl, hn, hb, hs⟩
  rw [readBody, if_neg (by simp [Token.isOp, hn]), if_pos ⟨rfl, hstart⟩]

/-- In front of trivia and the beginning of a rule a body is read up to the latter. -/
theorem readBody_interrupted {body trivia : List Token} (hb : bodyFrom 0 body = true)
    (hd : depthAfterAll 0 body = 0) (htrivia : ∀ t ∈ trivia, t.isTrivia = true) (hus : BeginsRule us) :
    readBody 0 (body ++ (trivia ++ us)) = ⟨body ++ trivia, .interrupted, us⟩ := by
  have hhead : ∀ u ∈ (dense (trivia ++ us)).head?, u.isOp definingSign = false := by
    obtain ⟨name, blanks, sign, rest, rfl, hn, -, -⟩ := hus
    intro u hu
    cases ht : dense trivia with
    | nil =>
      obtain rfl : name = u := by simpa [ht, dense_cons, hn] using hu
      simp [Token.isOp, hn]
    | cons t ts =>
      obtain rfl : t = u := by simpa [ht] using hu
      have hmem : t ∈ trivia := (mem_dense.1 (ht ▸ List.mem_cons_self)).1
      exact isOp_eq_false (kind_ne_of_isTrivia (htrivia t hmem)).1 _
  have hread : readBody 0 (trivia ++ us) = ⟨trivia, .interrupted, us⟩ := by
    clear hhead
    induction trivia with
    | nil => exact readBody_beginsRule hus
    | cons t trivia ih =>
      rw [List.cons_append, readBody_cons_trivia (htrivia t List.mem_cons_self),
        ih fun u hu => htrivia u (List.mem_cons_of_mem _ hu)]
  rw [readBody_bodyFrom_append hb hhead, hd, hread]

/-- The trivia behind a token that is none are split off. -/
theorem splitTrailingTrivia_eq {body trivia : List Token} (hlast : ∀ t ∈ body.getLast?, t.isTrivia = false)
    (htrivia : ∀ t ∈ trivia, t.isTrivia = true) : splitTrailingTrivia (body ++ trivia) = (body, trivia) := by
  have hfst : (splitTrailingTrivia (body ++ trivia)).1 = body := by
    rw [splitTrailingTrivia_fst, List.rdropWhile, List.reverse_append, List.dropWhile_append_of_pos]
    · cases hb : body.reverse with
      | nil => simpa using hb.symm
      | cons t us =>
        have ht : t ∈ body.getLast? := by rw [← List.head?_reverse, hb]; rfl
        rw [List.dropWhile_cons_of_neg (by simp [hlast t ht]), ← hb, List.reverse_reverse]
    · simpa using htrivia
  have happ := splitTrailingTrivia_append (body ++ trivia)
  rw [hfst] at happ
  exact Prod.ext hfst (List.append_cancel_left happ)

/-- What can stand in a body is taken as the body if it ends there, and at most a semicolon is lost. -/
theorem takeBody_append {body : List Token} {e : BodyEnd} (hb : bodyFrom 0 body = true)
    (he : EndsBefore body us e) :
    ∃ lost, us = lost ++ (takeBody (body ++ us)).rest ∧ (∀ t ∈ lost, t.isOp [';'] = true) ∧
      (takeBody (body ++ us)).body = body ∧ (takeBody (body ++ us)).ending = e := by
  cases e with
  | terminated =>
    obtain ⟨hd, semi, us', rfl, hs⟩ := he
    have hr : readBody 0 (body ++ semi :: us') = ⟨body, .terminated, us'⟩ := readBody_append hb hd hs
    rw [takeBody_of_ne_interrupted (by simp [hr]), hr]
    exact ⟨[semi], rfl, by simpa using hs, rfl, rfl⟩
  | exhausted =>
    obtain rfl : us = [] := he
    have hr : readBody 0 (body ++ []) = ⟨body, .exhausted, []⟩ := by
      rw [readBody_bodyFrom_append hb (by simp)]
      simp [readBody]
    rw [takeBody_of_ne_interrupted (by rw [hr]; simp), hr]
    exact ⟨[], rfl, by simp, rfl, rfl⟩
  | interrupted =>
    obtain ⟨hd, hlast, trivia, us', rfl, htrivia, hbegin⟩ := he
    have hr := readBody_interrupted hb hd htrivia hbegin
    rw [takeBody_of_interrupted (by rw [hr]), hr, splitTrailingTrivia_eq hlast htrivia]
    exact ⟨[], rfl, by simp, rfl, rfl⟩

/-! ### What the search finds of a stretch -/

/-- A stretch whose body ends in front of what follows is found as it is written. -/
theorem extractFrom_stretch {e : BodyEnd} (hs : s.WellFormed) (he : EndsBefore s.body us e) (pending : List Text) :
    extractFrom pending (s.tokens ++ us) =
      ({ s.rule with comments := pending ++ keptComments s.gap }, e) :: extractFrom [] us := by
  obtain ⟨lost, hus, hlost, hbody, hend⟩ := takeBody_append (bodyFrom_iff.2 hs.body) he
  have hafter : afterDefinition? (s.blanks ++ s.sign :: (s.body ++ us)) = some (s.body ++ us) := by
    rw [afterDefinition?, skipWhitespace_append_cons hs.blanks (by simp [kind_of_isOp hs.sign])]
    exact if_pos hs.sign
  have hblank : leadingBlank (s.own ++ us) = [] := by simp [RuleStretch.own, leadingBlank, hs.name]
  have hskip : extractFrom [] us = extractFrom [] (takeBody (s.body ++ us)).rest := by
    conv => lhs; rw [hus]
    exact extractFrom_semicolons hlost [] _
  rw [RuleStretch.tokens, List.append_assoc, extractFrom_gap_append (hs.idle us) hblank, RuleStretch.own,
    List.cons_append, List.append_assoc, List.cons_append, extractFrom_rule hs.name hafter, hbody, hend, hskip]
  rfl

/-- What the search finds of stretches in front of tokens. -/
def found : List RuleStretch → List Token → List (Rule × BodyEnd)
  | [], _ => []
  | s :: ss, us => (s.rule, endBefore (ss.flatMap RuleStretch.tokens ++ us)) :: found ss us

theorem map_fst_found (ss : List RuleStretch) (us : List Token) :
    (found ss us).map (·.1) = ss.map RuleStretch.rule := by
  induction ss with
  | nil => rfl
  | cons s ss ih => rw [found, List.map_cons, List.map_cons, ih]

theorem getElem?_found (before after : List RuleStretch) (s : RuleStretch) (us : List Token) :
    (found (before ++ s :: after) us)[before.length]? =
      some (s.rule, endBefore (after.flatMap RuleStretch.tokens ++ us)) := by
  induction before with
  | nil => rfl
  | cons s' before ih => exact ih

/-- Whether each stretch is well-formed and its body ends in front of what follows it, `us` being what
follows the last. -/
structure Chain (ss : List RuleStretch) (us : List Token) : Prop where
  wellFormed : ∀ s ∈ ss, s.WellFormed
  ends : ∀ before s after, ss = before ++ s :: after →
    ∃ e, EndsBefore s.body (after.flatMap RuleStretch.tokens ++ us) e

theorem Partition.chain (h : Partition ts ss rest) : Chain ss rest :=
  ⟨h.wellFormed, h.ends⟩

theorem Chain.left {ss' : List RuleStretch} (h : Chain (ss ++ ss') us) :
    Chain ss (ss'.flatMap RuleStretch.tokens ++ us) where
  wellFormed := fun s hs => h.wellFormed s (List.mem_append_left _ hs)
  ends := fun before s after heq => by
    simpa using h.ends before s (after ++ ss') (by rw [heq]; simp)

theorem Chain.right {ss' : List RuleStretch} (h : Chain (ss ++ ss') us) : Chain ss' us where
  wellFormed := fun s hs => h.wellFormed s (List.mem_append_right _ hs)
  ends := fun before s after heq => h.ends (ss ++ before) s after (by rw [heq]; simp)

/-- A chain is found as it is written, and the search goes on behind it. -/
theorem Chain.extractFrom_append (h : Chain ss us) :
    extractFrom [] (ss.flatMap RuleStretch.tokens ++ us) = found ss us ++ extractFrom [] us := by
  induction ss with
  | nil => rfl
  | cons s ss ih =>
    obtain ⟨e, he⟩ := h.ends [] s ss rfl
    have htail : Chain ss us := Chain.right (show Chain ([s] ++ ss) us from h)
    rw [List.flatMap_cons, List.append_assoc, extractFrom_stretch (h.wellFormed s List.mem_cons_self) he,
      ih htail, he.eq_endBefore]
    rfl

theorem Partition.extractFrom_rest (h : Partition ts ss rest) : extractFrom [] rest = [] := by
  simpa using extractFrom_gap_append h.idle rfl []

/-- The search finds the stretches of a partition, and nothing else. -/
theorem Partition.extractFrom_eq (h : Partition ts ss rest) : extractFrom [] ts = found ss rest := by
  rw [h.tokens, h.chain.extractFrom_append, h.extractFrom_rest, List.append_nil]

/-! ### Writing in the semicolon -/

/-- Why a body ends in front of a stretch has nothing to do with what stands behind the stretch. -/
theorem EndsBefore.congr {body : List Token} {e : BodyEnd} (hs : s.WellFormed)
    (he : EndsBefore body (s.tokens ++ us) e) (us' : List Token) : EndsBefore body (s.tokens ++ us') e := by
  cases e with
  | exhausted =>
    exact absurd (List.append_eq_nil_iff.1 he).1 s.tokens_ne_nil
  | terminated =>
    obtain ⟨hd, semi, rest, heq, hsemi⟩ := he
    obtain ⟨t, ts, ht⟩ := List.exists_cons_of_ne_nil s.tokens_ne_nil
    rw [ht, List.cons_append] at heq
    obtain ⟨rfl, -⟩ := List.cons.inj heq
    exact ⟨hd, t, ts ++ us', by rw [ht]; rfl, hsemi⟩
  | interrupted =>
    obtain ⟨hd, hlast, trivia, rest, heq, htrivia, hbegin⟩ := he
    refine ⟨hd, hlast, s.gap, s.own ++ us', by rw [RuleStretch.tokens, List.append_assoc], ?_, ?_⟩
    · -- the beginning of a rule that ended the body does not lie in the gap
      rw [RuleStretch.tokens, List.append_assoc] at heq
      rcases List.append_eq_append_iff.1 heq with ⟨m, rfl, -⟩ | ⟨m, hgap, hrest⟩
      · exact fun t ht => htrivia t (List.mem_append_left _ ht)
      · cases m with
        | nil =>
          rw [List.append_nil] at hgap
          rwa [hgap]
        | cons t m =>
          rw [hrest] at hbegin
          exact absurd hbegin (hs.idle us trivia t m hgap)
    · exact ⟨s.name, s.blanks, s.sign, s.body ++ us', by simp [RuleStretch.own], hs.name, hs.blanks, hs.sign⟩

/-- A chain stays one if something else follows behind its last stretch, in front of which the last body
ends as well. -/
theorem Chain.replace {before : List RuleStretch} {e : BodyEnd} (h : Chain (before ++ [s]) us)
    (he : EndsBefore s.body us' e) : Chain (before ++ [s]) us' where
  wellFormed := h.wellFormed
  ends := by
    intro left s' right heq
    cases right with
    | nil =>
      obtain ⟨-, hlast⟩ := List.append_inj' heq rfl
      obtain rfl : s = s' := by simpa using hlast
      exact ⟨e, he⟩
    | cons next right =>
      obtain ⟨e', he'⟩ := h.ends left s' (next :: right) heq
      have hnext := h.wellFormed next (by simp [heq])
      rw [List.flatMap_cons, List.append_assoc] at he' ⊢
      exact ⟨e', he'.congr hnext _⟩

/-- A semicolon behind the last body of a chain, its parentheses being closed, changes nothing but how
that body ends. -/
theorem Chain.extractFrom_semicolon {before : List RuleStretch} {semi : Token} (h : Chain (before ++ [s]) us)
    (hd : depthAfterAll 0 s.body = 0) (hs : semi.isOp [';'] = true) :
    extractFrom [] ((before ++ [s]).flatMap RuleStretch.tokens ++ semi :: us) =
      found (before ++ [s]) (semi :: us) ++ extractFrom [] us := by
  have hends : EndsBefore s.body (semi :: us) .terminated := ⟨hd, semi, us, rfl, hs⟩
  have hpass : extractFrom [] ([semi] ++ us) = extractFrom [] us := extractFrom_semicolons (by simpa using hs) [] us
  rw [(h.replace hends).extractFrom_append, ← hpass]
  rfl

/-- Every sequence of tokens is partitioned into the stretches of the rules that the search finds. Where
the body of a rule is ended by the next one, a semicolon behind the body's last token, or behind the
defining sign of an empty body, changes none of the rules. -/
theorem extract_repaired (ts : List Token) :
    ∃ ss rest, Partition ts ss rest ∧ extract ts = ss.map RuleStretch.rule ∧
      ∀ before s after, ss = before ++ s :: after →
        ((extractFrom [] ts).map (·.2))[before.length]? = some .interrupted →
        ∀ semi : Token, semi.isOp [';'] = true →
          extract (before.flatMap RuleStretch.tokens ++
            (s.tokens ++ semi :: (after.flatMap RuleStretch.tokens ++ rest))) = extract ts := by
  obtain ⟨ss, rest, hp, -⟩ := foundIn_extractFrom [] ts
  have hrules : extract ts = ss.map RuleStretch.rule := by rw [extract, hp.extractFrom_eq, map_fst_found]
  refine ⟨ss, rest, hp, hrules, ?_⟩
  rintro before s after rfl hend semi hsemi
  have hd : depthAfterAll 0 s.body = 0 := by
    obtain ⟨e, he⟩ := hp.ends before s after rfl
    rw [hp.extractFrom_eq, List.getElem?_map, getElem?_found] at hend
    obtain rfl : e = .interrupted := he.eq_endBefore.trans (Option.some.inj hend)
    exact he.1
  have hsplit : before ++ s :: after = (before ++ [s]) ++ after := by simp
  have hchain := hp.chain
  rw [hsplit] at hchain
  calc extract (before.flatMap RuleStretch.tokens ++
          (s.tokens ++ semi :: (after.flatMap RuleStretch.tokens ++ rest)))
      = extract ((before ++ [s]).flatMap RuleStretch.tokens ++
          semi :: (after.flatMap RuleStretch.tokens ++ rest)) := by simp
    _ = (before ++ [s]).map RuleStretch.rule ++
          (extractFrom [] (after.flatMap RuleStretch.tokens ++ rest)).map (·.1) := by
      rw [extract, hchain.left.extractFrom_semicolon hd hsemi, List.map_append, map_fst_found]
    _ = (before ++ [s]).map RuleStretch.rule ++ after.map RuleStretch.rule := by
      rw [hchain.right.extractFrom_append, hp.extractFrom_rest, List.append_nil, map_fst_found]
    _ = extract ts := by rw [← List.map_append, ← hsplit, hrules]

/-- An empty body that the next rule ends, and to which it leaves both comments. -/
example : (extractFrom [] (scan .ebnf "a ::= (* b *) (* c *)\nd ::= e ;".toList)).map
    (fun r => (r.1.body.length, r.1.comments.length, r.2)) = [(0, 0, .interrupted), (3, 2, .terminated)] := by
  decide +kernel

end GrammarText
