import GrammarText.Proofs.Rule.Partition

/-!
# Rules are found locally

Once a semicolon has ended the body of a rule, the search carries nothing over: no comment is pending, no
parenthesis is open, and no test has looked past the semicolon. So tokens in two parts, the first of which
ends with such a semicolon, hold the rules of the first part and then those of the second, however
malformed either part is (`extract_append`).

What ends a body stops every look ahead before the end of the tokens. So a body that has ended reads the same
whatever follows its tokens (`readBody_append_of_ended`, `takeBody_append_of_ended`), and the search goes on behind it.
-/

namespace GrammarText

/-- Tokens whose last one is a semicolon that the search takes as the end of a rule. -/
inductive Terminated : List Token → Prop where
  /-- The search passes over a token at which no rule begins. -/
  | pass {t : Token} {ts : List Token} (ht : startsRule t ts = false) (h : Terminated ts) : Terminated (t :: ts)
  /-- A rule begins, and the search goes on behind its body. -/
  | rule {t : Token} {ts body : List Token} (ht : t.kind = .identifier) (hb : afterDefinition? ts = some body)
      (h : Terminated (takeBody body).rest) : Terminated (t :: ts)
  /-- A rule begins, a semicolon ends its body, and nothing is left. -/
  | last {t : Token} {ts body : List Token} (ht : t.kind = .identifier) (hb : afterDefinition? ts = some body)
      (he : (takeBody body).ending = .terminated) (hr : (takeBody body).rest = []) : Terminated (t :: ts)

/-! ### What ends a body stops every look ahead -/

section Bodies

variable {ts : List Token} {depth : Nat}

theorem dense_ne_nil_of_mem {t : Token} (h : t ∈ ts) (hk : t.kind ≠ .whitespace) : dense ts ≠ [] :=
  List.ne_nil_of_mem (mem_dense.2 ⟨h, hk⟩)

/-- Whether a rule begins is settled by the next token that is no whitespace. -/
theorem startsRule_append_of_dense (h : dense ts ≠ []) (t : Token) (us : List Token) :
    startsRule t (ts ++ us) = startsRule t ts := by
  obtain ⟨u, vs, hu⟩ := List.exists_cons_of_ne_nil h
  rw [startsRule_eq, startsRule_eq, dense_append, hu]
  rfl

theorem afterDefinition?_append {body : List Token} (h : afterDefinition? ts = some body) (us : List Token) :
    afterDefinition? (ts ++ us) = some (body ++ us) := by
  obtain ⟨blanks, sign, rfl, hblanks, hsign⟩ := afterDefinition?_eq_some h
  have hk : sign.kind ≠ .whitespace := by simp [kind_of_isOp hsign]
  rw [List.append_assoc, List.cons_append, afterDefinition?, skipWhitespace_append_cons hblanks hk]
  exact if_pos hsign

theorem dense_ne_nil_of_ended (h : (readBody depth ts).ending ≠ .exhausted) : dense ts ≠ [] := by
  have hends := readBody_ends depth ts
  cases he : (readBody depth ts).ending with
  | exhausted => exact absurd he h
  | terminated =>
    rw [he] at hends
    obtain ⟨-, semi, hsemi, heq⟩ := hends
    have hmem : semi ∈ ts := heq ▸ List.mem_append_right _ List.mem_cons_self
    exact dense_ne_nil_of_mem hmem (by simp [kind_of_isOp hsemi])
  | interrupted =>
    rw [he] at hends
    obtain ⟨-, heq, name, blanks, sign, rest, hname, hk, -, -⟩ := hends
    have hmem : name ∈ ts := heq ▸ List.mem_append_right _ (hname ▸ List.mem_cons_self)
    exact dense_ne_nil_of_mem hmem (by simp [hk])

/-- A body that has ended is read the same whatever follows. -/
theorem readBody_append_of_ended (h : (readBody depth ts).ending ≠ .exhausted) (us : List Token) :
    readBody depth (ts ++ us) = { readBody depth ts with rest := (readBody depth ts).rest ++ us } := by
  fun_induction readBody depth ts with
  | case1 => exact absurd rfl h
  | case2 depth t ts hs => rw [List.cons_append, readBody, if_pos hs]
  | case3 depth t ts hs hb =>
    rw [List.cons_append, readBody, if_neg hs, if_pos ⟨hb.1, startsRule_append hb.2⟩]
  | case4 depth t ts hs hb r ih =>
    -- the end of the body is still ahead
    have hdense : dense ts ≠ [] := dense_ne_nil_of_ended h
    rw [List.cons_append, readBody, if_neg hs, startsRule_append_of_dense hdense, if_neg hb, ih h]

theorem ending_takeBody (ts : List Token) : (takeBody ts).ending = (readBody 0 ts).ending := by
  by_cases h : (readBody 0 ts).ending = .interrupted
  · rw [takeBody_of_interrupted h, h]
  · rw [takeBody_of_ne_interrupted h]

theorem takeBody_append_of_ended (h : (takeBody ts).ending ≠ .exhausted) (us : List Token) :
    takeBody (ts ++ us) = { takeBody ts with rest := (takeBody ts).rest ++ us } := by
  rw [ending_takeBody] at h
  have hread := readBody_append_of_ended h us
  by_cases hi : (readBody 0 ts).ending = .interrupted
  · rw [takeBody_of_interrupted (by rw [hread]; exact hi), takeBody_of_interrupted hi, hread, List.append_assoc]
  · rw [takeBody_of_ne_interrupted (by rw [hread]; exact hi), takeBody_of_ne_interrupted hi, hread]

/-- Behind a body that runs to the end of the tokens nothing is left. -/
theorem ended_of_rest_ne_nil (h : (takeBody ts).rest ≠ []) : (takeBody ts).ending ≠ .exhausted := by
  intro he
  have hends := readBody_ends 0 ts
  rw [ending_takeBody] at he
  rw [takeBody_of_ne_interrupted (by simp [he])] at h
  rw [he] at hends
  exact h hends.2

end Bodies

/-! ### Nothing is carried over -/

section Search

variable {ts : List Token}

/-- The last token is a semicolon indeed. -/
theorem Terminated.semicolon_suffix (h : Terminated ts) : ∃ semi : Token, [semi] <:+ ts ∧ semi.isOp [';'] = true := by
  induction h with
  | @pass t ts _ _ ih =>
    obtain ⟨semi, hsuffix, hs⟩ := ih
    exact ⟨semi, hsuffix.trans (List.suffix_cons t ts), hs⟩
  | @rule t ts body _ hb _ ih =>
    obtain ⟨semi, hsuffix, hs⟩ := ih
    obtain ⟨-, mid, hmid⟩ := takeBody_spec body
    have hrest : (takeBody body).rest <:+ body := ⟨(takeBody body).body ++ mid, hmid.symm⟩
    exact ⟨semi, (hsuffix.trans hrest).trans ((suffix_of_afterDefinition? hb).trans (List.suffix_cons t ts)), hs⟩
  | @last t ts body _ hb he hr =>
    have hends := readBody_ends 0 body
    rw [ending_takeBody] at he
    rw [takeBody_of_ne_interrupted (by simp [he])] at hr
    rw [he, hr] at hends
    obtain ⟨-, semi, hs, heq⟩ := hends
    have hsuffix : [semi] <:+ body := ⟨_, heq.symm⟩
    exact ⟨semi, hsuffix.trans ((suffix_of_afterDefinition? hb).trans (List.suffix_cons t ts)), hs⟩

theorem Terminated.dense_ne_nil (h : Terminated ts) : dense ts ≠ [] := by
  obtain ⟨semi, hsuffix, hs⟩ := h.semicolon_suffix
  exact dense_ne_nil_of_mem (hsuffix.subset List.mem_cons_self) (by simp [kind_of_isOp hs])

theorem leadingBlank_append (h : ts ≠ []) (us : List Token) : leadingBlank (ts ++ us) = leadingBlank ts := by
  obtain ⟨t, vs, rfl⟩ := List.exists_cons_of_ne_nil h
  rfl

/-- Behind the semicolon the search begins anew, whatever was pending before. -/
theorem Terminated.extractFrom_append (h : Terminated ts) (pending : List Text) (us : List Token) :
    extractFrom pending (ts ++ us) = extractFrom pending ts ++ extractFrom [] us := by
  induction h generalizing pending with
  | @pass t ts hs h ih =>
    have hne : ts ≠ [] := by
      rintro rfl
      exact h.dense_ne_nil rfl
    rw [List.cons_append]
    by_cases hc : t.kind = .comment
    · rw [extractFrom_comment hc, extractFrom_comment hc, leadingBlank_append hne, ih]
    · rw [extractFrom_skip hc hs, extractFrom_skip hc (by rw [startsRule_append_of_dense h.dense_ne_nil, hs]), ih]
  | @rule t ts body ht hb h ih =>
    have hended : (takeBody body).ending ≠ .exhausted := by
      apply ended_of_rest_ne_nil
      intro hnil
      exact h.dense_ne_nil (by rw [hnil, dense_nil])
    rw [List.cons_append, extractFrom_rule ht (afterDefinition?_append hb us), takeBody_append_of_ended hended,
      extractFrom_rule ht hb, ih, List.cons_append]
  | @last t ts body ht hb he hr =>
    have hended : (takeBody body).ending ≠ .exhausted := by simp [he]
    rw [List.cons_append, extractFrom_rule ht (afterDefinition?_append hb us), takeBody_append_of_ended hended,
      extractFrom_rule ht hb, hr, List.nil_append, extractFrom_nil, List.cons_append, List.nil_append]

end Search

/-- Behind a semicolon that ends a rule the rules are those that the tokens behind it hold alone, and before it
those that the tokens before it hold alone. -/
theorem extract_append {ts : List Token} (h : Terminated ts) (us : List Token) :
    extract (ts ++ us) = extract ts ++ extract us := by
  rw [extract, h.extractFrom_append, List.map_append]
  rfl

/-- A stray parenthesis, a rule that lacks its semicolon, a comment, and a rule with a parenthesis too many. -/
def strayParts : List Token :=
  [⟨.operator, [')'], {}⟩, ⟨.identifier, ['a'], {}⟩, ⟨.operator, definingSign, {}⟩, ⟨.identifier, ['b'], {}⟩,
    ⟨.comment, ['/', '/'], {}⟩, ⟨.whitespace, ['\n'], {}⟩, ⟨.identifier, ['c'], {}⟩, ⟨.whitespace, [' '], {}⟩,
    ⟨.operator, definingSign, {}⟩, ⟨.operator, [')'], {}⟩, ⟨.operator, [';'], {}⟩]

theorem terminated_strayParts : Terminated strayParts :=
  .pass rfl (.rule rfl rfl (.pass rfl (.pass rfl (.last rfl rfl rfl rfl))))

theorem extract_append_strayParts :
    Terminated strayParts ∧ extract (strayParts ++ strayParts.drop 3) = extract strayParts ++ extract (strayParts.drop 3) ∧
      (extract strayParts).map Rule.name = [['a'], ['c']] ∧ (extract (strayParts.drop 3)).map Rule.name = [['c']] :=
  ⟨terminated_strayParts, extract_append terminated_strayParts _, by decide +kernel, by decide +kernel⟩

end GrammarText
