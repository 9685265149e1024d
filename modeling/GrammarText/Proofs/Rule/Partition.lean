import GrammarText.Proofs.Rule.Extraction
import Mathlib.Data.List.DropRight
import Mathlib.Data.List.Forall2

/-!
# Rules partition the tokens

Whatever tokens are searched, the rules that are found are stretches of them, one after the other: a gap,
a name, whitespace, the defining sign, and a body. No rule begins in a gap or behind the last body, no
semicolon and no beginning of a rule stands outside parentheses in a body, and a body ends only where one
of the two follows, or nothing (`Partition`). So the comments up to the end of the last body are shared
out among the rules: those of the gap come before the rule, the others stand in its body
(`forall₂_comments`).
-/

namespace GrammarText

/-- Whether a rule begins with the first of the tokens: a name, whitespace, and the defining sign. -/
def BeginsRule (ts : List Token) : Prop :=
  ∃ name blanks sign rest, ts = name :: (blanks ++ sign :: rest) ∧ name.kind = .identifier ∧
    (∀ t ∈ blanks, t.kind = .whitespace) ∧ sign.isOp definingSign = true

/-- Whether no rule begins with any of the tokens, `rest` being what follows them. -/
def Idle (ts rest : List Token) : Prop :=
  ∀ before t after, ts = before ++ t :: after → ¬BeginsRule (t :: (after ++ rest))

/-- The comments among the tokens. -/
def comments (ts : List Token) : List Token :=
  ts.filter (·.kind == .comment)

/-- The texts of the comments among the tokens, each with the whitespace right after it. -/
def keptComments : List Token → List Text
  | [] => []
  | t :: ts => if t.kind = .comment then (t.text ++ leadingBlank ts) :: keptComments ts else keptComments ts

/-- A stretch of tokens with a rule at its end. -/
structure RuleStretch where
  /-- What stands between the body before and the rule. -/
  gap : List Token
  name : Token
  blanks : List Token
  sign : Token
  body : List Token

namespace RuleStretch

/-- The tokens of the rule, without the gap. -/
def own (s : RuleStretch) : List Token :=
  s.name :: (s.blanks ++ s.sign :: s.body)

/-- All tokens of the stretch. -/
def tokens (s : RuleStretch) : List Token :=
  s.gap ++ s.own

/-- The rule that the stretch holds. -/
def rule (s : RuleStretch) : Rule :=
  ⟨s.name.text, s.body, keptComments s.gap, s.name.start⟩

/-- What the parts of a stretch can be. -/
structure WellFormed (s : RuleStretch) : Prop where
  gap : Idle s.gap s.own
  name : s.name.kind = .identifier
  blanks : ∀ t ∈ s.blanks, t.kind = .whitespace
  sign : s.sign.isOp definingSign = true
  body : ∀ before t after, s.body = before ++ t :: after → depthAfterAll 0 before = 0 →
    t.isOp [';'] = false ∧ ¬BeginsRule (t :: after)

end RuleStretch

/-- Why a body ends in front of `rest`. -/
def EndsBefore (body rest : List Token) : BodyEnd → Prop
  | .terminated => depthAfterAll 0 body = 0 ∧ ∃ semi us, rest = semi :: us ∧ semi.isOp [';'] = true
  | .interrupted =>
    depthAfterAll 0 body = 0 ∧ (∀ t ∈ body.getLast?, t.isTrivia = false) ∧
      ∃ trivia us, rest = trivia ++ us ∧ (∀ t ∈ trivia, t.isTrivia = true) ∧ BeginsRule us
  | .exhausted => rest = []

/-- The tokens cut into the stretches of the rules and what follows the last body. -/
structure Partition (ts : List Token) (ss : List RuleStretch) (rest : List Token) : Prop where
  tokens : ts = ss.flatMap RuleStretch.tokens ++ rest
  wellFormed : ∀ s ∈ ss, s.WellFormed
  ends : ∀ before s after, ss = before ++ s :: after →
    ∃ e, EndsBefore s.body (after.flatMap RuleStretch.tokens ++ rest) e
  idle : Idle rest []

/-! ### Beginnings of rules -/

section Begin

variable {t : Token} {ts us : List Token}

theorem afterDefinition?_eq_some {body : List Token} (h : afterDefinition? ts = some body) :
    ∃ blanks sign, ts = blanks ++ sign :: body ∧ (∀ t ∈ blanks, t.kind = .whitespace) ∧
      sign.isOp definingSign = true := by
  rw [afterDefinition?] at h
  split at h
  · rename_i sign rest hs
    split at h
    · rename_i hsign
      cases h
      refine ⟨ts.takeWhile (·.kind == .whitespace), sign, ?_, fun u hu => ?_, hsign⟩
      · rw [← hs, skipWhitespace, List.takeWhile_append_dropWhile]
      · simpa using List.mem_takeWhile_imp hu
    · cases h
  · cases h

theorem beginsRule_cons_iff : BeginsRule (t :: ts) ↔ startsRule t ts = true := by
  rw [startsRule, Bool.and_eq_true, beq_iff_eq, Option.isSome_iff_exists]
  constructor
  · rintro ⟨name, blanks, sign, rest, heq, hn, hb, hs⟩
    obtain ⟨rfl, rfl⟩ := List.cons.inj heq
    refine ⟨hn, rest, ?_⟩
    rw [afterDefinition?, skipWhitespace_append_cons hb (by simp [kind_of_isOp hs])]
    exact if_pos hs
  · rintro ⟨hn, body, hb⟩
    obtain ⟨blanks, sign, rfl, hblanks, hs⟩ := afterDefinition?_eq_some hb
    exact ⟨t, blanks, sign, body, rfl, hn, hblanks, hs⟩

theorem idle_cons {rest : List Token} (h : ¬BeginsRule (t :: (ts ++ rest))) (hts : Idle ts rest) :
    Idle (t :: ts) rest := by
  intro before u after heq
  cases before with
  | nil =>
    obtain ⟨rfl, rfl⟩ := List.cons.inj heq
    exact h
  | cons v before => exact hts before u after (List.cons.inj heq).2

/-- A body holds what it can hold, said place by place. -/
theorem bodyFrom_iff {depth : Nat} :
    bodyFrom depth ts = true ↔ ∀ before t after, ts = before ++ t :: after → depthAfterAll depth before = 0 →
      t.isOp [';'] = false ∧ ¬BeginsRule (t :: after) := by
  induction ts generalizing depth with
  | nil => simp [bodyFrom]
  | cons u ts ih =>
    rw [bodyFrom_cons_iff, ih]
    constructor
    · rintro ⟨h1, h2, h3⟩ before t after heq hd
      cases before with
      | nil =>
        obtain ⟨rfl, rfl⟩ := List.cons.inj heq
        rw [beginsRule_cons_iff]
        exact ⟨by simpa using fun h => h1 ⟨h, hd⟩, fun h => h2 ⟨hd, h⟩⟩
      | cons v before =>
        obtain ⟨rfl, rfl⟩ := List.cons.inj heq
        exact h3 before t after rfl hd
    · intro h
      refine ⟨fun hs => ?_, fun hs => ?_, fun before t after heq hd => ?_⟩
      · simpa [hs.1] using (h [] u ts rfl hs.2).1
      · exact (h [] u ts rfl hs.1).2 (beginsRule_cons_iff.2 hs.2)
      · exact h (u :: before) t after (by rw [heq]; rfl) hd

end Begin

/-! ### Where bodies end -/

section Ends

variable {ts : List Token}

/-- What ends reading, by the kind of the end. -/
theorem readBody_ends (depth : Nat) (ts : List Token) :
    match (readBody depth ts).ending with
    | .terminated => depthAfterAll depth (readBody depth ts).body = 0 ∧ ∃ semi, semi.isOp [';'] = true ∧
        ts = (readBody depth ts).body ++ semi :: (readBody depth ts).rest
    | .interrupted => depthAfterAll depth (readBody depth ts).body = 0 ∧
        ts = (readBody depth ts).body ++ (readBody depth ts).rest ∧ BeginsRule (readBody depth ts).rest
    | .exhausted => ts = (readBody depth ts).body ∧ (readBody depth ts).rest = [] := by
  fun_induction readBody depth ts with
  | case1 => exact ⟨rfl, rfl⟩
  | case2 depth t ts h => exact ⟨h.2, t, h.1, rfl⟩
  | case3 depth t ts _ h => exact ⟨h.1, rfl, beginsRule_cons_iff.2 h.2⟩
  | case4 depth t ts _ _ r ih =>
    change match r.ending with
      | .terminated => _
      | .interrupted => _
      | .exhausted => _
    cases he : r.ending with
    | terminated =>
      rw [he] at ih
      obtain ⟨hd, semi, hs, heq⟩ := ih
      exact ⟨hd, semi, hs, congrArg (t :: ·) heq⟩
    | interrupted =>
      rw [he] at ih
      obtain ⟨hd, heq, hb⟩ := ih
      exact ⟨hd, congrArg (t :: ·) heq, hb⟩
    | exhausted =>
      rw [he] at ih
      exact ⟨congrArg (t :: ·) ih.1, ih.2⟩

theorem depthAfterAll_append_trivia (depth : Nat) (ts : List Token) {us : List Token}
    (h : ∀ t ∈ us, t.isTrivia = true) : depthAfterAll depth (ts ++ us) = depthAfterAll depth ts := by
  rw [depthAfterAll, List.foldl_append]
  induction us with
  | nil => rfl
  | cons u us ih =>
    rw [List.foldl_cons, depthAfter_of_not_operator (kind_ne_of_isTrivia (h u List.mem_cons_self)).1]
    exact ih fun t ht => h t (List.mem_cons_of_mem _ ht)

theorem splitTrailingTrivia_fst (ts : List Token) : (splitTrailingTrivia ts).1 = ts.rdropWhile Token.isTrivia := by
  have happ : ts.rdropWhile Token.isTrivia ++ (splitTrailingTrivia ts).2 = ts := by
    change (ts.reverse.dropWhile Token.isTrivia).reverse ++ (ts.reverse.takeWhile Token.isTrivia).reverse = ts
    rw [← List.reverse_append, List.takeWhile_append_dropWhile, List.reverse_reverse]
  exact List.append_cancel_right ((splitTrailingTrivia_append ts).trans happ.symm)

theorem takeBody_of_interrupted (h : (readBody 0 ts).ending = .interrupted) :
    takeBody ts = ⟨(splitTrailingTrivia (readBody 0 ts).body).1, .interrupted,
      (splitTrailingTrivia (readBody 0 ts).body).2 ++ (readBody 0 ts).rest⟩ := by
  unfold takeBody
  simp only [h]

theorem takeBody_of_ne_interrupted (h : (readBody 0 ts).ending ≠ .interrupted) : takeBody ts = readBody 0 ts := by
  unfold takeBody
  dsimp only
  split
  · contradiction
  · rfl

/-- What was taken as a body ends there for a reason; at most a semicolon is lost behind it. -/
theorem takeBody_ends (ts : List Token) :
    ∃ lost, ts = (takeBody ts).body ++ (lost ++ (takeBody ts).rest) ∧ (∀ t ∈ lost, t.isOp [';'] = true) ∧
      EndsBefore (takeBody ts).body (lost ++ (takeBody ts).rest) (takeBody ts).ending := by
  have h := readBody_ends 0 ts
  cases he : (readBody 0 ts).ending with
  | terminated =>
    rw [he] at h
    obtain ⟨hd, semi, hs, heq⟩ := h
    rw [takeBody_of_ne_interrupted (by simp [he]), he]
    exact ⟨[semi], heq, by simpa using hs, hd, semi, _, rfl, hs⟩
  | exhausted =>
    rw [he] at h
    obtain ⟨heq, hr⟩ := h
    rw [takeBody_of_ne_interrupted (by simp [he]), he, hr]
    exact ⟨[], by simpa using heq, by simp, rfl⟩
  | interrupted =>
    rw [he] at h
    obtain ⟨hd, heq, hb⟩ := h
    rw [takeBody_of_interrupted he]
    have happ := splitTrailingTrivia_append (readBody 0 ts).body
    have htrivia : ∀ t ∈ (splitTrailingTrivia (readBody 0 ts).body).2, t.isTrivia = true := by
      intro t ht
      exact List.mem_takeWhile_imp (List.mem_reverse.1 ht)
    have hdepth := depthAfterAll_append_trivia 0 (splitTrailingTrivia (readBody 0 ts).body).1 htrivia
    rw [happ, hd] at hdepth
    refine ⟨[], ?_, by simp, hdepth.symm, ?_, (splitTrailingTrivia (readBody 0 ts).body).2, _, rfl, htrivia, hb⟩
    · rw [List.nil_append, ← List.append_assoc, happ]
      exact heq
    · intro t ht
      rw [splitTrailingTrivia_fst] at ht
      obtain ⟨hne, rfl⟩ := List.mem_getLast?_eq_getLast ht
      simpa using List.rdropWhile_last_not Token.isTrivia _ hne

end Ends

/-! ### Finding the stretches -/

/-- The rules of stretches, with the comments that were kept before the first. -/
def rulesAfter (pending : List Text) : List RuleStretch → List Rule
  | [] => []
  | s :: ss => { s.rule with comments := pending ++ keptComments s.gap } :: ss.map RuleStretch.rule

/-- Whether the rules are those of a partition. -/
def FoundIn (pending : List Text) (ts : List Token) (rules : List Rule) : Prop :=
  ∃ ss rest, Partition ts ss rest ∧ rules = rulesAfter pending ss

section Found

variable {pending : List Text} {t : Token} {ts us : List Token} {rules : List Rule}
variable {s : RuleStretch} {ss : List RuleStretch} {rest : List Token}

theorem rulesAfter_nil (ss : List RuleStretch) : rulesAfter [] ss = ss.map RuleStretch.rule := by
  cases ss <;> rfl

theorem beginsRule_append (h : BeginsRule (t :: ts)) : BeginsRule (t :: (ts ++ us)) :=
  beginsRule_cons_iff.2 (startsRule_append (beginsRule_cons_iff.1 h))

theorem leadingBlank_gap (hs : s.WellFormed) (us : List Token) :
    leadingBlank (s.tokens ++ us) = leadingBlank s.gap := by
  cases h : s.gap with
  | nil => simp [RuleStretch.tokens, RuleStretch.own, h, leadingBlank, hs.name]
  | cons u gap => simp [RuleStretch.tokens, h, leadingBlank]

/-- A token at which no rule begins belongs to the first gap. -/
theorem Partition.push (h : Partition ts (s :: ss) rest) (ht : ¬BeginsRule (t :: ts)) :
    Partition (t :: ts) ({ s with gap := t :: s.gap } :: ss) rest where
  tokens := congrArg (t :: ·) h.tokens
  wellFormed := by
    intro s' hs'
    rcases List.mem_cons.1 hs' with rfl | hs'
    · have hs := h.wellFormed s List.mem_cons_self
      have hnot : ¬BeginsRule (t :: (s.gap ++ s.own)) := by
        intro hb
        apply ht
        rw [h.tokens, List.flatMap_cons, List.append_assoc]
        exact beginsRule_append hb
      exact { hs with gap := idle_cons hnot hs.gap }
    · exact h.wellFormed s' (List.mem_cons_of_mem _ hs')
  ends := by
    intro before s' after heq
    cases before with
    | nil =>
      obtain ⟨rfl, rfl⟩ := List.cons.inj heq
      exact h.ends [] s ss rfl
    | cons u before =>
      obtain ⟨rfl, rfl⟩ := List.cons.inj heq
      exact h.ends (s :: before) s' after rfl
  idle := h.idle

/-- What is kept of a token that belongs to a gap. -/
def kept (t : Token) (ts : List Token) : List Text :=
  if t.kind = .comment then [t.text ++ leadingBlank ts] else []

/-- Where no rule begins the search goes on, and keeps what the token leaves behind. -/
theorem FoundIn.push (h : FoundIn (pending ++ kept t ts) ts rules) (ht : ¬BeginsRule (t :: ts)) :
    FoundIn pending (t :: ts) rules := by
  obtain ⟨ss, rest, hp, rfl⟩ := h
  cases ss with
  | nil =>
    have hrest : ts = rest := hp.tokens
    subst hrest
    refine ⟨[], t :: ts, ⟨rfl, by simp, by simp, idle_cons ?_ hp.idle⟩, rfl⟩
    rwa [List.append_nil]
  | cons s ss =>
    refine ⟨_, _, hp.push ht, ?_⟩
    have hs := hp.wellFormed s List.mem_cons_self
    have hblank : leadingBlank ts = leadingBlank s.gap := by
      rw [hp.tokens, List.flatMap_cons, List.append_assoc, leadingBlank_gap hs]
    simp only [rulesAfter, RuleStretch.rule, kept, keptComments, hblank]
    split <;> simp

/-- Semicolons belong to gaps. -/
theorem FoundIn.push_semicolons (hs : ∀ t ∈ us, t.isOp [';'] = true) (h : FoundIn pending ts rules) :
    FoundIn pending (us ++ ts) rules := by
  induction us with
  | nil => exact h
  | cons u us ih =>
    have hu := kind_of_isOp (hs u List.mem_cons_self)
    apply FoundIn.push
    · simpa [kept, hu] using ih fun t ht => hs t (List.mem_cons_of_mem _ ht)
    · simp [beginsRule_cons_iff, startsRule, hu]

/-- A rule, and what was found behind its body. -/
theorem FoundIn.rule {blanks body : List Token} {sign : Token} (hn : t.kind = .identifier)
    (hb : ∀ u ∈ blanks, u.kind = .whitespace) (hs : sign.isOp definingSign = true)
    (h : FoundIn [] (takeBody body).rest rules) :
    FoundIn pending (t :: (blanks ++ sign :: body)) (⟨t.text, (takeBody body).body, pending, t.start⟩ :: rules) := by
  obtain ⟨lost, hbody, hlost, hends⟩ := takeBody_ends body
  obtain ⟨ss, rest, hp, rfl⟩ := h.push_semicolons hlost
  refine ⟨⟨[], t, blanks, sign, (takeBody body).body⟩ :: ss, rest, ?_, ?_⟩
  · refine ⟨?_, ?_, ?_, hp.idle⟩
    · rw [List.flatMap_cons, List.append_assoc, ← hp.tokens]
      simp [RuleStretch.tokens, RuleStretch.own, ← hbody]
    · intro s hs'
      rcases List.mem_cons.1 hs' with rfl | hs'
      · exact ⟨by simp [Idle], hn, hb, hs, bodyFrom_iff.1 (takeBody_spec body).1⟩
      · exact hp.wellFormed s hs'
    · intro before s after heq
      cases before with
      | nil =>
        obtain ⟨rfl, rfl⟩ := List.cons.inj heq
        exact ⟨_, hp.tokens ▸ hends⟩
      | cons u before =>
        obtain ⟨rfl, rfl⟩ := List.cons.inj heq
        exact hp.ends before s after rfl
  · rw [rulesAfter_nil]
    simp [rulesAfter, RuleStretch.rule, keptComments]

/-- The search finds the rules of a partition. -/
theorem foundIn_extractFrom (pending : List Text) (ts : List Token) :
    FoundIn pending ts ((extractFrom pending ts).map (·.1)) := by
  induction hlen : ts.length using Nat.strongRecOn generalizing pending ts with
  | ind n ih =>
    match ts with
    | [] => exact ⟨[], [], ⟨rfl, by simp, by simp, by simp [Idle]⟩, by simp [rulesAfter]⟩
    | t :: ts =>
      have hlt : ts.length < n := by rw [← hlen]; exact Nat.lt_succ_self _
      rcases extractFrom_cases pending t ts with ⟨hk, heq⟩ | ⟨body, hk, ha, heq⟩ | ⟨hk, hs, heq⟩
      · rw [heq]
        apply FoundIn.push
        · simpa [kept, hk] using ih ts.length hlt (pending ++ [t.text ++ leadingBlank ts]) ts rfl
        · simp [beginsRule_cons_iff, startsRule, hk]
      · obtain ⟨blanks, sign, rfl, hb, hsign⟩ := afterDefinition?_eq_some ha
        have hshort := Nat.lt_of_le_of_lt (length_rest_takeBody body)
          (Nat.lt_trans (length_lt_of_afterDefinition? ha) hlt)
        rw [heq]
        exact FoundIn.rule hk hb hsign (ih _ hshort [] _ rfl)
      · rw [heq]
        apply FoundIn.push
        · simpa [kept, hk] using ih ts.length hlt pending ts rfl
        · simp [beginsRule_cons_iff, hs]

/-- A rule that is found is that of a stretch of the tokens. -/
theorem exists_stretch_of_mem_extract {r : Rule} (h : r ∈ extract ts) :
    ∃ s : RuleStretch, s.rule = r ∧ s.tokens <:+: ts := by
  obtain ⟨ss, rest, hp, hrules⟩ := foundIn_extractFrom [] ts
  rw [rulesAfter_nil] at hrules
  rw [extract, hrules] at h
  obtain ⟨s, hs, rfl⟩ := List.mem_map.1 h
  obtain ⟨before, after, rfl⟩ := List.append_of_mem hs
  refine ⟨s, rfl, before.flatMap RuleStretch.tokens, after.flatMap RuleStretch.tokens ++ rest, ?_⟩
  rw [hp.tokens]
  simp

/-- The body of a rule is a stretch of the tokens in which the rule is found. -/
theorem body_infix_of_mem_extract {r : Rule} (h : r ∈ extract ts) : r.body <:+: ts := by
  obtain ⟨s, rfl, hs⟩ := exists_stretch_of_mem_extract h
  have hbody : s.body <:+: s.tokens :=
    ⟨s.gap ++ s.name :: (s.blanks ++ [s.sign]), [], by simp [RuleStretch.tokens, RuleStretch.own]⟩
  exact hbody.trans hs

end Found

/-! ### What becomes of the comments -/

section Comments

variable {s : RuleStretch}

@[simp] theorem comments_append (ts us : List Token) : comments (ts ++ us) = comments ts ++ comments us :=
  List.filter_append ts us

@[simp] theorem comments_cons (t : Token) (ts : List Token) :
    comments (t :: ts) = if t.kind = .comment then t :: comments ts else comments ts := by
  simp only [comments, List.filter_cons, beq_iff_eq]

/-- A comment is kept as its text, with the whitespace right after it. -/
theorem forall₂_keptComments (ts : List Token) :
    List.Forall₂ (fun c x => ∃ blank, x = c.text ++ blank) (comments ts) (keptComments ts) := by
  induction ts with
  | nil => exact .nil
  | cons t ts ih =>
    rw [comments_cons, keptComments]
    split
    · exact .cons ⟨_, rfl⟩ ih
    · exact ih

/-- The comments of a stretch are those of its gap and those of its body. -/
theorem RuleStretch.WellFormed.comments_tokens (h : s.WellFormed) :
    comments s.tokens = comments s.gap ++ comments s.body := by
  have hblanks : comments s.blanks = [] :=
    List.filter_eq_nil_iff.2 fun t ht => by simp [h.blanks t ht]
  simp [RuleStretch.tokens, RuleStretch.own, hblanks, h.name, kind_of_isOp h.sign]

/-- Comments of stretches are kept by the rules, those of a gap before those of the body behind it. -/
theorem forall₂_comments {ss : List RuleStretch} (h : ∀ s ∈ ss, s.WellFormed) :
    List.Forall₂ (fun c x => ∃ blank, x = c.text ++ blank) (comments (ss.flatMap RuleStretch.tokens))
      ((ss.map RuleStretch.rule).flatMap fun r => r.comments ++ (comments r.body).map Token.text) := by
  induction ss with
  | nil => exact .nil
  | cons s ss ih =>
    have hbody : List.Forall₂ (fun c x => ∃ blank, x = c.text ++ blank) (comments s.body)
        ((comments s.body).map Token.text) :=
      List.forall₂_map_right_iff.2 (List.forall₂_same.2 fun c _ => ⟨[], (List.append_nil _).symm⟩)
    rw [List.flatMap_cons, comments_append, (h s List.mem_cons_self).comments_tokens]
    exact List.rel_append (List.rel_append (forall₂_keptComments s.gap) hbody)
      (ih fun s' hs' => h s' (List.mem_cons_of_mem _ hs'))

end Comments

/-- The rules that are found partition the tokens, and every comment up to the end of the last body comes
exactly once, in its place, among the comments before the rules and those in their bodies. -/
theorem extract_partition (ts : List Token) :
    ∃ ss rest, Partition ts ss rest ∧ extract ts = ss.map RuleStretch.rule ∧
      List.Forall₂ (fun c x => ∃ blank, x = c.text ++ blank) (comments (ss.flatMap RuleStretch.tokens))
        ((extract ts).flatMap fun r => r.comments ++ (comments r.body).map Token.text) := by
  obtain ⟨ss, rest, hp, hrules⟩ := foundIn_extractFrom [] ts
  rw [rulesAfter_nil] at hrules
  refine ⟨ss, rest, hp, hrules, ?_⟩
  rw [extract, hrules]
  exact forall₂_comments hp.wellFormed

end GrammarText
