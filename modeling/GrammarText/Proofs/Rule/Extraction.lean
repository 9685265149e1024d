import GrammarText.Proofs.Rule.Body
import GrammarText.Proofs.Scan.Boundary
import Mathlib.Data.List.Forall2

/-!
# How rules are found

One equation for each thing that can stand at the cursor of `extractFrom`: a comment, the beginning of
a rule, anything else. From them follows how a rule reads that is written out in full
(`extractFrom_rule_append`), and what the rules found among the tokens of a text are made of
(`extractFrom_spec`).
-/

namespace GrammarText

section Step

variable {pending : List Text} {t : Token} {ts : List Token}

@[simp] theorem extractFrom_nil (pending : List Text) : extractFrom pending [] = [] := by
  rw [extractFrom]

theorem extractFrom_comment (h : t.kind = .comment) :
    extractFrom pending (t :: ts) = extractFrom (pending ++ [t.text ++ leadingBlank ts]) ts := by
  rw [extractFrom]
  simp only [h]

theorem extractFrom_rule {body : List Token} (h : t.kind = .identifier) (ha : afterDefinition? ts = some body) :
    extractFrom pending (t :: ts) =
      (⟨t.text, (takeBody body).body, pending, t.start⟩, (takeBody body).ending) ::
        extractFrom [] (takeBody body).rest := by
  rw [extractFrom]
  simp only [h]
  split
  · rename_i b hb
    rw [hb] at ha
    cases ha
    rfl
  · rename_i hb
    rw [hb] at ha
    cases ha

theorem extractFrom_skip (h : t.kind ≠ .comment) (hs : startsRule t ts = false) :
    extractFrom pending (t :: ts) = extractFrom pending ts := by
  rw [extractFrom]
  split
  · contradiction
  · rename_i hk
    split
    · rename_i hb
      simp [startsRule, hk, hb] at hs
    · rfl
  · rfl

theorem extractFrom_whitespace (h : t.kind = .whitespace) :
    extractFrom pending (t :: ts) = extractFrom pending ts :=
  extractFrom_skip (by simp [h]) (by simp [startsRule, h])

end Step

/-- Every step of the search is one of three. -/
theorem extractFrom_cases (pending : List Text) (t : Token) (ts : List Token) :
    (t.kind = .comment ∧
      extractFrom pending (t :: ts) = extractFrom (pending ++ [t.text ++ leadingBlank ts]) ts) ∨
    (∃ body, t.kind = .identifier ∧ afterDefinition? ts = some body ∧
      extractFrom pending (t :: ts) =
        (⟨t.text, (takeBody body).body, pending, t.start⟩, (takeBody body).ending) ::
          extractFrom [] (takeBody body).rest) ∨
    (t.kind ≠ .comment ∧ startsRule t ts = false ∧ extractFrom pending (t :: ts) = extractFrom pending ts) := by
  by_cases hc : t.kind = .comment
  · exact .inl ⟨hc, extractFrom_comment hc⟩
  · cases hs : startsRule t ts with
    | false => exact .inr (.inr ⟨hc, rfl, extractFrom_skip hc hs⟩)
    | true =>
      simp only [startsRule, Bool.and_eq_true, beq_iff_eq] at hs
      obtain ⟨body, hb⟩ := Option.isSome_iff_exists.1 hs.2
      exact .inr (.inl ⟨body, hs.1, hb, extractFrom_rule hs.1 hb⟩)

theorem skipWhitespace_append_cons {ws ts : List Token} {t : Token} (hw : ∀ u ∈ ws, u.kind = .whitespace)
    (ht : t.kind ≠ .whitespace) : skipWhitespace (ws ++ t :: ts) = t :: ts := by
  induction ws with
  | nil => simp [skipWhitespace, ht]
  | cons u us ih =>
    have hu := hw u List.mem_cons_self
    simpa [skipWhitespace, hu] using ih fun v hv => hw v (List.mem_cons_of_mem _ hv)

theorem extractFrom_append_whitespace {ws : List Token} (hw : ∀ u ∈ ws, u.kind = .whitespace)
    (pending : List Text) (ts : List Token) : extractFrom pending (ws ++ ts) = extractFrom pending ts := by
  induction ws with
  | nil => rfl
  | cons u us ih =>
    rw [List.cons_append, extractFrom_whitespace (hw u List.mem_cons_self)]
    exact ih fun v hv => hw v (List.mem_cons_of_mem _ hv)

/-- Whitespace in front of a text is passed over. -/
theorem extractFrom_gap {g : Text} (hg : ∀ x ∈ g, isSpace x = true) (pending : List Text) (s : Text) :
    extractFrom pending (lexemes .ebnf (g ++ s)) = extractFrom pending (lexemes .ebnf s) := by
  obtain ⟨ws, ws', us, hws, hws', heq, heq'⟩ := lexemes_spaces (d := .ebnf) hg s
  rw [heq, heq', extractFrom_append_whitespace hws, extractFrom_append_whitespace hws']

theorem dense_eq_cons {ts us : List Token} {t : Token} (h : dense ts = t :: us) :
    ∃ ws ts', ts = ws ++ t :: ts' ∧ (∀ u ∈ ws, u.kind = .whitespace) ∧ t.kind ≠ .whitespace ∧ dense ts' = us := by
  obtain ⟨ws, ts', rfl, hw, ht, hd⟩ := List.filter_eq_cons_iff.1 h
  exact ⟨ws, ts', rfl, by simpa using hw, by simpa using ht, hd⟩

/-- A rule that is written out in full, with whitespace anywhere, is found as it is written. -/
theorem extractFrom_rule_append {us bs rest : List Token} {name sign semi : Token} (pending : List Text)
    (hus : dense us = name :: sign :: bs) (hn : name.kind = .identifier) (hsign : sign.isOp definingSign = true)
    (hb : bodyFrom 0 bs = true) (hd : depthAfterAll 0 bs = 0) (hs : semi.isOp [';'] = true) :
    ∃ body, dense body = bs ∧ (∀ t ∈ body, t ∈ us) ∧
      extractFrom pending (us ++ semi :: rest) =
        (⟨name.text, body, pending, name.start⟩, .terminated) :: extractFrom [] rest := by
  obtain ⟨ws, us', rfl, hw, -, hus'⟩ := dense_eq_cons hus
  obtain ⟨ws', body, rfl, hw', hsign', hbody⟩ := dense_eq_cons hus'
  refine ⟨body, hbody, fun t ht => by simp [ht], ?_⟩
  have hafter : afterDefinition? (ws' ++ sign :: body ++ semi :: rest) = some (body ++ semi :: rest) := by
    rw [List.append_assoc, List.cons_append, afterDefinition?, skipWhitespace_append_cons hw' hsign']
    exact if_pos hsign
  have hread : readBody 0 (body ++ semi :: rest) = ⟨body, .terminated, rest⟩ := by
    apply readBody_append _ _ hs
    · rw [← bodyFrom_dense, hbody, hb]
    · rw [← depthAfterAll_dense, hbody, hd]
  have htake : takeBody (body ++ semi :: rest) = ⟨body, .terminated, rest⟩ := by
    rw [takeBody, hread]
  rw [List.append_assoc, extractFrom_append_whitespace hw, List.cons_append, extractFrom_rule hn hafter, htake]

/-! ### What rules are made of -/

theorem suffix_of_afterDefinition? {ts body : List Token} (h : afterDefinition? ts = some body) :
    body <:+ ts := by
  rw [afterDefinition?] at h
  split at h
  · rename_i u rest hu
    split at h
    · cases h
      have hs : u :: body <:+ ts := hu ▸ List.dropWhile_suffix _
      exact (List.suffix_cons u body).trans hs
    · cases h
  · cases h

/-- A rule's name is an identifier and its body a sequence of the kind that bodies are, both made of the
tokens that were searched. -/
theorem extractFrom_spec {pending : List Text} {ts : List Token} {r : Rule} {e : BodyEnd}
    (h : (r, e) ∈ extractFrom pending ts) :
    (∃ t ∈ ts, t.kind = .identifier ∧ t.text = r.name) ∧ bodyFrom 0 r.body = true ∧ ∀ t ∈ r.body, t ∈ ts := by
  induction hn : ts.length using Nat.strongRecOn generalizing pending ts with
  | ind n ih =>
    match ts with
    | [] => simp at h
    | t :: ts =>
      have hstep : ∀ {p us}, (r, e) ∈ extractFrom p us → us.length < n → (∀ u ∈ us, u ∈ t :: ts) →
          (∃ t' ∈ t :: ts, t'.kind = .identifier ∧ t'.text = r.name) ∧ bodyFrom 0 r.body = true ∧
            ∀ t' ∈ r.body, t' ∈ t :: ts := by
        intro p us hmem hlt hsub
        obtain ⟨⟨t', ht', hid⟩, hb, hbody⟩ := ih us.length hlt hmem rfl
        exact ⟨⟨t', hsub t' ht', hid⟩, hb, fun u hu => hsub u (hbody u hu)⟩
      have hlt : ts.length < n := by rw [← hn]; exact Nat.lt_succ_self _
      rcases extractFrom_cases pending t ts with ⟨-, heq⟩ | ⟨body, hk, ha, heq⟩ | ⟨-, -, heq⟩
      · exact hstep (heq ▸ h) hlt fun u => List.mem_cons_of_mem _
      · obtain ⟨hb, mid, hmid⟩ := takeBody_spec body
        have hsub : ∀ u ∈ body, u ∈ t :: ts := fun u hu =>
          List.mem_cons_of_mem _ ((suffix_of_afterDefinition? ha).subset hu)
        rw [heq] at h
        rcases List.mem_cons.1 h with h | h
        · cases h
          refine ⟨⟨t, List.mem_cons_self, hk, rfl⟩, hb, fun u hu => hsub u ?_⟩
          rw [hmid]
          simp [hu]
        · refine hstep h ?_ fun u hu => hsub u ?_
          · exact Nat.lt_of_le_of_lt (length_rest_takeBody body)
              (Nat.lt_trans (length_lt_of_afterDefinition? ha) hlt)
          · rw [hmid]
            simp [hu]
      · exact hstep (heq ▸ h) hlt fun u => List.mem_cons_of_mem _

/-! ### Changed tokens -/

/-- The token that names the rule. -/
def Rule.nameToken (r : Rule) : Token :=
  ⟨.identifier, r.name, r.start⟩

/-- Whether a rule consists of the changed tokens of another, the comments before the two being related. -/
structure Rule.Mapped (f : Token → Token) (related : Text → Text → Prop) (r r' : Rule) : Prop where
  name : r'.name = (f r.nameToken).text
  body : r'.body = r.body.map f
  comments : List.Forall₂ related r.comments r'.comments
  start : r'.start = (f r.nameToken).start

section Map

variable {f : Token → Token} (hk : ∀ t, (f t).kind = t.kind) (ho : ∀ t s, (f t).isOp s = t.isOp s)

include hk in
theorem skipWhitespace_map (ts : List Token) : skipWhitespace (ts.map f) = (skipWhitespace ts).map f := by
  rw [skipWhitespace, List.dropWhile_map, skipWhitespace]
  simp [Function.comp_def, hk]

include hk ho

theorem afterDefinition?_map (ts : List Token) :
    afterDefinition? (ts.map f) = (afterDefinition? ts).map (List.map f) := by
  rw [afterDefinition?, afterDefinition?, skipWhitespace_map hk]
  cases skipWhitespace ts with
  | nil => rfl
  | cons t us =>
    rw [List.map_cons]
    dsimp only
    rw [ho]
    split <;> rfl

theorem startsRule_map (t : Token) (ts : List Token) : startsRule (f t) (ts.map f) = startsRule t ts := by
  rw [startsRule, startsRule, afterDefinition?_map hk ho, Option.isSome_map, hk]

theorem readBody_map (depth : Nat) (ts : List Token) :
    readBody depth (ts.map f) =
      ⟨(readBody depth ts).body.map f, (readBody depth ts).ending, (readBody depth ts).rest.map f⟩ := by
  induction ts generalizing depth with
  | nil => rfl
  | cons t ts ih =>
    have hd : depthAfter depth (f t) = depthAfter depth t := by simp [depthAfter, ho]
    rw [List.map_cons, readBody, readBody, startsRule_map hk ho, ho, hd]
    split
    · rfl
    split
    · rfl
    · rw [ih]
      rfl

theorem takeBody_map (ts : List Token) :
    takeBody (ts.map f) = ⟨(takeBody ts).body.map f, (takeBody ts).ending, (takeBody ts).rest.map f⟩ := by
  have hsplit : ∀ us : List Token, splitTrailingTrivia (us.map f) =
      ((splitTrailingTrivia us).1.map f, (splitTrailingTrivia us).2.map f) := by
    intro us
    have htw : (us.map f).reverse.takeWhile Token.isTrivia = (us.reverse.takeWhile Token.isTrivia).map f := by
      have htrivia : Token.isTrivia ∘ f = Token.isTrivia := by
        funext t
        simp [Token.isTrivia, hk]
      rw [← List.map_reverse, List.takeWhile_map, htrivia]
    simp [splitTrailingTrivia, htw]
  rw [takeBody, takeBody, readBody_map hk ho]
  dsimp only
  split
  · rw [hsplit, List.map_append]
  · rfl

/-- If tokens are changed but for their classes and the operators, the same rules are found, up to the changes. -/
theorem forall₂_extractFrom_map {related : Text → Text → Prop} {ts : List Token} {pending pending' : List Text}
    (hcomment : ∀ t us, t :: us <:+ ts → t.kind = .comment → us ≠ [] →
      related (t.text ++ leadingBlank us) ((f t).text ++ leadingBlank (us.map f)))
    (hpending : List.Forall₂ related pending pending') :
    List.Forall₂ (fun r r' => r.1.Mapped f related r'.1 ∧ r'.2 = r.2) (extractFrom pending ts)
      (extractFrom pending' (ts.map f)) := by
  induction hn : ts.length using Nat.strongRecOn generalizing pending pending' ts with
  | ind n ih =>
    match ts with
    | [] => simp
    | t :: ts =>
      have hlt : ts.length < n := by rw [← hn]; exact Nat.lt_succ_self _
      have hnext : ∀ {us : List Token} {p p' : List Text}, us <:+ ts → List.Forall₂ related p p' →
          List.Forall₂ (fun r r' => r.1.Mapped f related r'.1 ∧ r'.2 = r.2) (extractFrom p us)
            (extractFrom p' (us.map f)) := by
        intro us p p' hus hp
        refine ih us.length (Nat.lt_of_le_of_lt hus.length_le hlt) (fun u vs h => ?_) hp rfl
        exact hcomment u vs (h.trans (hus.trans (List.suffix_cons t ts)))
      rw [List.map_cons]
      rcases extractFrom_cases pending t ts with ⟨hc, heq⟩ | ⟨body, hid, ha, heq⟩ | ⟨hc, hs, heq⟩
      · rw [heq, extractFrom_comment (by rw [hk, hc])]
        cases ts with
        | nil => simp
        | cons u ts =>
          have hrel := hcomment t (u :: ts) (List.suffix_refl _) hc (List.cons_ne_nil _ _)
          exact hnext (List.suffix_refl _) (List.rel_append hpending (.cons hrel .nil))
      · have ha' : afterDefinition? (ts.map f) = some (body.map f) := by
          rw [afterDefinition?_map hk ho, ha, Option.map_some]
        rw [heq, extractFrom_rule (by rw [hk, hid]) ha', takeBody_map hk ho]
        obtain ⟨-, mid, hmid⟩ := takeBody_spec body
        have hrest : (takeBody body).rest <:+ body := ⟨(takeBody body).body ++ mid, hmid.symm⟩
        have hname : t = ⟨.identifier, t.text, t.start⟩ := by rw [← hid]
        refine .cons ⟨⟨?_, rfl, hpending, ?_⟩, rfl⟩ (hnext (hrest.trans (suffix_of_afterDefinition? ha)) .nil)
        · exact congrArg (fun u => (f u).text) hname
        · exact congrArg (fun u => (f u).start) hname
      · rw [heq, extractFrom_skip (by rwa [hk]) (by rw [startsRule_map hk ho, hs])]
        exact hnext (List.suffix_refl ts) hpending

end Map

/-! ### Places play no part -/

/-- The rule with all its tokens at no place in particular. -/
def Rule.bare (r : Rule) : Rule :=
  { r with body := r.body.map Token.bare, start := {} }

theorem leadingBlank_map_bare (ts : List Token) : leadingBlank (ts.map Token.bare) = leadingBlank ts := by
  cases ts <;> rfl

/-- Searching does not depend on the places of tokens. -/
theorem extractFrom_map_bare (pending : List Text) (ts : List Token) :
    extractFrom pending (ts.map Token.bare) = (extractFrom pending ts).map fun r => (r.1.bare, r.2) := by
  have hmapped : List.Forall₂ (fun r r' => r.1.Mapped Token.bare Eq r'.1 ∧ r'.2 = r.2) (extractFrom pending ts)
      (extractFrom pending (ts.map Token.bare)) := by
    refine forall₂_extractFrom_map Token.kind_bare Token.isOp_bare (fun t us _ _ _ => ?_) (List.forall₂_refl pending)
    rw [Token.text_bare, leadingBlank_map_bare]
  have hsame : List.Forall₂ (fun r r' => (r.1.bare, r.2) = r') (extractFrom pending ts)
      (extractFrom pending (ts.map Token.bare)) := by
    refine hmapped.imp ?_
    rintro ⟨r, e⟩ ⟨⟨name, body, comments, start⟩, e'⟩ ⟨⟨rfl, rfl, hcomments, rfl⟩, he⟩
    obtain rfl : e' = e := he
    obtain rfl : r.comments = comments := by rwa [List.forall₂_eq_eq_eq] at hcomments
    rfl
  rw [← List.forall₂_map_left_iff, List.forall₂_eq_eq_eq] at hsame
  exact hsame.symm

/-- The rules of a document, places aside, are found among its lexemes. -/
theorem documentRules_bare (source : Text) :
    (documentRules source).map Rule.bare = extract (lexemes .ebnf source) := by
  rw [documentRules, extract, extract, lexemes, extractFrom_map_bare, List.map_map, List.map_map]
  rfl

end GrammarText
