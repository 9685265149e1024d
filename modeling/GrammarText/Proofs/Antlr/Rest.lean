import GrammarText.Antlr.Statement
import GrammarText.Proofs.Rule.Body
import Mathlib.Data.List.Infix
import Mathlib.Data.List.DropRight

/-!
# What reading leaves

Every function that reads or passes over a part of an ANTLR grammar leaves an end of the tokens that it was
given (`readStatementFrom_suffix`). So whatever a rule was made of are tokens of the grammar, and what the
body of a rule keeps of them is known: no comments, no actions, and no semicolon outside parentheses
(`readKept_spec`, `IsRead`).
-/

namespace GrammarText.Antlr

section Spans

variable {t : Token} {ts rest : List Token}

theorem skipTrivia_suffix (ts : List Token) : skipTrivia ts <:+ ts :=
  List.dropWhile_suffix _

theorem dropNext_suffix (ts : List Token) : dropNext ts <:+ ts :=
  (List.tail_suffix _).trans (skipTrivia_suffix ts)

theorem dropNextIf_suffix (p : Token → Bool) (ts : List Token) : dropNextIf p ts <:+ ts := by
  have h := skipTrivia_suffix ts
  unfold dropNextIf
  split
  · rename_i t rest hs
    rw [hs] at h
    split
    · exact (List.suffix_cons t rest).trans h
    · exact h
  · exact List.nil_suffix

theorem dropNextWhile_suffix (p : Token → Bool) (ts : List Token) : dropNextWhile p ts <:+ ts :=
  List.dropWhile_suffix _

theorem skipThroughSemicolon_suffix (ts : List Token) : skipThroughSemicolon ts <:+ ts :=
  (List.tail_suffix _).trans (List.dropWhile_suffix _)

theorem skipNamedAction_suffix (ts : List Token) : skipNamedAction ts <:+ ts :=
  (dropNextIf_suffix _ _).trans ((dropNextWhile_suffix _ _).trans (dropNext_suffix ts))

theorem skipParenthesized_suffix (depth : Nat) (ts : List Token) : skipParenthesized depth ts <:+ ts := by
  fun_induction skipParenthesized depth ts with
  | case1 => exact List.suffix_rfl
  | case2 depth t ts _ ih => exact ih.trans (List.suffix_cons t ts)
  | case3 depth t ts => exact List.suffix_cons t ts
  | case4 depth t ts _ _ _ ih => exact ih.trans (List.suffix_cons t ts)
  | case5 depth t ts _ _ ih => exact ih.trans (List.suffix_cons t ts)

theorem skipElementOptions_suffix (ts : List Token) : skipElementOptions ts <:+ ts := by
  fun_induction skipElementOptions ts with
  | case1 => exact List.suffix_rfl
  | case2 t ts => exact List.suffix_rfl
  | case3 t ts => exact List.suffix_cons t ts
  | case4 t ts _ _ ih => exact ih.trans (List.suffix_cons t ts)

/-- A command of a list of commands: its name, and its arguments if there are any. -/
theorem skipCommand_suffix {t : Token} {ts rest : List Token} (h : skipTrivia ts = t :: rest) :
    (if nextIs (·.isOp ['(']) rest then skipParenthesized 0 rest else rest) <:+ ts := by
  have hrest : rest <:+ ts := (List.suffix_cons t rest).trans (h ▸ skipTrivia_suffix ts)
  split
  · exact (skipParenthesized_suffix 0 rest).trans hrest
  · exact hrest

theorem skipLexerCommands_suffix (ts : List Token) : skipLexerCommands ts <:+ ts := by
  fun_induction skipLexerCommands ts with
  | case1 => exact List.nil_suffix
  | case2 => exact List.nil_suffix
  | case3 ts t rest hs ht rest' u more hs' hu ih =>
    have hmore : u :: more <:+ rest' := hs' ▸ skipTrivia_suffix rest'
    exact ih.trans ((List.suffix_cons u more).trans (hmore.trans (skipCommand_suffix hs)))
  | case4 ts t rest hs ht rest' u more hs' hu =>
    have hmore : u :: more <:+ rest' := hs' ▸ skipTrivia_suffix rest'
    exact hmore.trans (skipCommand_suffix hs)
  | case5 ts t rest hs ht => exact hs ▸ skipTrivia_suffix ts

theorem afterDropped?_suffix {phrase : Bool} {last : Option Token} (h : afterDropped? phrase last t ts = some rest) :
    rest <:+ ts := by
  unfold afterDropped? at h
  split at h
  · cases h; exact List.suffix_rfl
  split at h
  · split at h
    · rename_i u us
      cases h
      split
      · exact List.suffix_cons u us
      · exact List.suffix_rfl
    · cases h; exact List.suffix_rfl
  split at h
  · cases h; exact skipLexerCommands_suffix ts
  split at h
  · cases h; exact dropNextIf_suffix _ ts
  split at h
  · cases h; exact skipElementOptions_suffix ts
  split at h
  · cases h; exact dropNext_suffix ts
  split at h
  · cases h; exact List.suffix_rfl
  · cases h

theorem skipModifiers_suffix (fragment : Bool) (ts : List Token) : (skipModifiers fragment ts).2 <:+ ts := by
  fun_induction skipModifiers fragment ts with
  | case1 => exact List.suffix_rfl
  | case2 fragment t ts _ ih => exact ih.trans (List.suffix_cons t ts)
  | case3 fragment t ts _ _ ih => exact ih.trans (List.suffix_cons t ts)
  | case4 => exact List.suffix_rfl

theorem skipNamedAction_cons_suffix (h : t.isTrivia = false) (ts : List Token) : skipNamedAction (t :: ts) <:+ ts := by
  have hd : dropNext (t :: ts) = ts := by simp [dropNext, skipTrivia, h]
  rw [skipNamedAction, hd]
  exact (dropNextIf_suffix _ _).trans (dropNextWhile_suffix _ _)

theorem afterPrequelItem?_suffix (h : afterPrequelItem? t ts = some rest) : rest <:+ ts := by
  unfold afterPrequelItem? at h
  split at h
  · cases h; exact List.suffix_rfl
  split at h
  · cases h; exact dropNextIf_suffix _ ts
  split at h
  · cases h; exact dropNextWhile_suffix _ ts
  split at h
  · cases h; exact dropNext_suffix ts
  split at h
  · rename_i hop
    cases h
    exact skipNamedAction_cons_suffix (isTrivia_eq_false_of_isOp hop) ts
  · cases h

theorem rest_skipPrequel_suffix (ts : List Token) : (skipPrequel ts).rest <:+ ts := by
  fun_induction skipPrequel ts with
  | case1 => exact List.nil_suffix
  | case2 ts t rest hs _ => exact (List.suffix_cons t rest).trans (hs ▸ skipTrivia_suffix ts)
  | case3 ts t rest hs _ rest' hi ih =>
    have hrest : t :: rest <:+ ts := hs ▸ skipTrivia_suffix ts
    exact (ih.trans (afterPrequelItem?_suffix hi)).trans ((List.suffix_cons t rest).trans hrest)
  | case4 ts t rest hs _ hi => exact hs ▸ skipTrivia_suffix ts

theorem readKept_suffix (phrase : Bool) (depth : Nat) (last : Option Token) (ts : List Token) :
    (readKept phrase depth last ts).2 <:+ ts := by
  fun_induction readKept phrase depth last ts with
  | case1 => exact List.suffix_rfl
  | case2 depth last t ts rest h ih => exact (ih.trans (afterDropped?_suffix h)).trans (List.suffix_cons t ts)
  | case3 depth last t ts => exact List.suffix_cons t ts
  | case4 depth last t ts h hs r ih => exact ih.trans (List.suffix_cons t ts)

end Spans

/-! ### What rules are made of -/

theorem afterDropped?_eq_none {phrase : Bool} {last : Option Token} {t : Token} {ts : List Token}
    (h : afterDropped? phrase last t ts = none) : t.kind ≠ .comment ∧ t.kind ≠ .action := by
  unfold afterDropped? at h
  constructor
  · intro hk
    simp [hk] at h
  · intro hk
    simp only [hk] at h
    cases ts <;> simp at h

/-- Whatever a body keeps, nothing was dropped where it stood. -/
theorem afterDropped?_of_mem_readKept {phrase : Bool} {depth : Nat} {last : Option Token} {t : Token} {ts : List Token}
    (h : t ∈ (readKept phrase depth last ts).1) : ∃ last us, afterDropped? phrase last t us = none := by
  fun_induction readKept phrase depth last ts with
  | case1 => cases h
  | case2 depth last u us rest hd ih => exact ih h
  | case3 => cases h
  | case4 depth last u us hd hs r ih =>
    rcases List.mem_cons.1 h with rfl | h
    · exact ⟨last, us, hd⟩
    · exact ih h

theorem startsRule_eq_false {t : Token} {ts : List Token} (h : ∀ u ∈ ts, u.isOp definingSign = false) :
    startsRule t ts = false := by
  rw [startsRule_eq, Bool.and_eq_false_iff]
  right
  cases hd : dense ts with
  | nil => rfl
  | cons u us =>
    have hu : u ∈ dense ts := by simp [hd]
    exact h u (mem_dense.1 hu).1

/-- What a body keeps: tokens of the grammar, none a comment or an action, and no semicolon outside
parentheses. -/
theorem readKept_spec {ts : List Token} (h : ∀ t ∈ ts, t.isOp definingSign = false) (phrase : Bool) (depth : Nat)
    (last : Option Token) :
    (∀ t ∈ (readKept phrase depth last ts).1, t ∈ ts ∧ t.kind ≠ .comment ∧ t.kind ≠ .action) ∧
      bodyFrom depth (readKept phrase depth last ts).1 = true := by
  fun_induction readKept phrase depth last ts with
  | case1 => exact ⟨by simp, rfl⟩
  | case2 depth last t ts rest ha ih =>
    have hsub : ∀ u ∈ rest, u ∈ t :: ts := fun u hu => List.mem_cons_of_mem _ ((afterDropped?_suffix ha).subset hu)
    obtain ⟨hkept, hbody⟩ := ih fun u hu => h u (hsub u hu)
    exact ⟨fun u hu => ⟨hsub u (hkept u hu).1, (hkept u hu).2⟩, hbody⟩
  | case3 => exact ⟨by simp, rfl⟩
  | case4 depth last t ts ha hs r ih =>
    obtain ⟨hkept, hbody⟩ := ih fun u hu => h u (List.mem_cons_of_mem _ hu)
    constructor
    · intro u hu
      rcases List.mem_cons.1 hu with rfl | hu
      · exact ⟨List.mem_cons_self, afterDropped?_eq_none ha⟩
      · exact ⟨List.mem_cons_of_mem _ (hkept u hu).1, (hkept u hu).2⟩
    · rw [bodyFrom_cons_iff]
      have hstart : startsRule t r.1 = false :=
        startsRule_eq_false fun u hu => h u (List.mem_cons_of_mem _ (hkept u hu).1)
      exact ⟨hs, by simp [hstart], hbody⟩

/-- How a rule comes out of tokens: its name is one of them, an identifier, and its body keeps some of the
others. -/
structure IsRead (ts : List Token) (r : AntlrRule) : Prop where
  name : ∃ t ∈ ts, t.kind = .identifier ∧ t.text = r.name
  kept : ∀ t ∈ r.body, t ∈ ts ∧ t.kind ≠ .comment ∧ t.kind ≠ .action
  body : bodyFrom 0 r.body = true

theorem IsRead.mono {ts us : List Token} {r : AntlrRule} (h : IsRead ts r) (hs : ∀ t ∈ ts, t ∈ us) : IsRead us r where
  name := by
    obtain ⟨t, ht, hn⟩ := h.name
    exact ⟨t, hs t ht, hn⟩
  kept := fun t ht => ⟨hs t (h.kept t ht).1, (h.kept t ht).2⟩
  body := h.body

theorem isPrefix_trimBody (ts : List Token) : trimBody ts <+: ts :=
  List.rdropWhile_prefix _ ts

section Statements

variable {ts rest : List Token} {r : AntlrRule}

/-- What makes tokens a rule: a name, and a body somewhere behind it. -/
theorem readRule_eq_rule (h : readRule ts = (.rule r, rest)) :
    ∃ name us body, name :: us <:+ ts ∧ body <:+ us ∧ name.kind = .identifier ∧ name.text = r.name ∧
      readBody (!isLexerName r.name) body = (r.body, rest) := by
  have hm := skipModifiers_suffix false ts
  unfold readRule at h
  generalize skipModifiers false ts = m at hm h
  obtain ⟨fragment, ms⟩ := m
  cases ms with
  | nil => cases h
  | cons name us =>
    have hp := rest_skipPrequel_suffix us
    dsimp only at h
    split at h
    · cases h
    rename_i hk
    split at h
    · cases h
    · cases h
    · rename_i body hs
      rw [hs] at hp
      cases h
      exact ⟨name, us, body, hm, hp, by simpa using hk, rfl, rfl⟩

theorem isRead_of_readRule (h : ∀ t ∈ ts, t.isOp definingSign = false) (hr : readRule ts = (.rule r, rest)) :
    IsRead ts r := by
  obtain ⟨name, us, body, hname, hbody, hk, htext, hread⟩ := readRule_eq_rule hr
  have hsub : ∀ t ∈ body, t ∈ ts := fun t ht => hname.subset (List.mem_cons_of_mem _ (hbody.subset ht))
  obtain ⟨hkept, hspec⟩ := readKept_spec (fun t ht => h t (hsub t ht)) (!isLexerName r.name) 0 none
  obtain ⟨tail, htail⟩ := isPrefix_trimBody (readKept (!isLexerName r.name) 0 none body).1
  have hrbody : trimBody (readKept (!isLexerName r.name) 0 none body).1 = r.body := congrArg Prod.fst hread
  rw [hrbody] at htail
  refine ⟨⟨name, hname.subset List.mem_cons_self, hk, htext⟩, fun t ht => ?_, ?_⟩
  · obtain ⟨hmem, hkind⟩ := hkept t (htail ▸ List.mem_append_left tail ht)
    exact ⟨hsub t hmem, hkind⟩
  · rw [← htail] at hspec
    exact bodyFrom_of_append hspec

theorem readRule_suffix (ts : List Token) : (readRule ts).2 <:+ ts := by
  have hm := skipModifiers_suffix false ts
  unfold readRule
  generalize skipModifiers false ts = m at hm
  obtain ⟨fragment, ms⟩ := m
  cases ms with
  | nil => exact List.nil_suffix
  | cons name rest =>
    have hrest : rest <:+ ts := (List.suffix_cons name rest).trans hm
    have hp := rest_skipPrequel_suffix rest
    dsimp only
    split
    · exact hrest
    split
    · exact List.nil_suffix
    · rename_i hs
      rw [hs] at hp
      exact hp.trans hrest
    · rename_i body hs
      rw [hs] at hp
      exact (readKept_suffix _ 0 none body).trans (hp.trans hrest)

theorem readStatementFrom_suffix (t : Token) (ts : List Token) : (readStatementFrom t ts).2 <:+ t :: ts := by
  have hcons := List.suffix_cons t ts
  unfold readStatementFrom
  split
  · exact skipNamedAction_suffix (t :: ts)
  split
  · exact hcons
  split
  · exact (skipThroughSemicolon_suffix ts).trans hcons
  split
  · exact (skipThroughSemicolon_suffix ts).trans hcons
  split
  · exact (dropNextIf_suffix _ _).trans ((dropNext_suffix ts).trans hcons)
  · exact readRule_suffix (t :: ts)

/-- A statement that is a rule is read as a rule. -/
theorem readStatementFrom_eq_rule {t : Token} (h : readStatementFrom t ts = (.rule r, rest)) :
    readRule (t :: ts) = (.rule r, rest) := by
  unfold readStatementFrom at h
  split at h
  · cases h
  split at h
  · cases h
  split at h
  · cases h
  split at h
  · cases h
  split at h
  · cases h
  · exact h

/-- A statement begins with the next significant token. -/
theorem readStatement?_eq_some {s : Statement} (h : readStatement? ts = some (s, rest)) :
    ∃ t us, t :: us <:+ ts ∧ readStatementFrom t us = (s, rest) := by
  unfold readStatement? at h
  split at h
  · cases h
  · rename_i t us hus
    exact ⟨t, us, hus ▸ skipTrivia_suffix ts, Option.some.inj h⟩

theorem readStatement?_suffix {s : Statement} (h : readStatement? ts = some (s, rest)) : rest <:+ ts := by
  obtain ⟨t, us, hus, hread⟩ := readStatement?_eq_some h
  have hrest := readStatementFrom_suffix t us
  rw [hread] at hrest
  exact hrest.trans hus

/-- Every rule of a grammar is made of its tokens. -/
theorem isRead_of_mem_readStatements (h : ∀ t ∈ ts, t.isOp definingSign = false) (hr : .rule r ∈ readStatements ts) :
    IsRead ts r := by
  fun_induction readStatements ts with
  | case1 => cases hr
  | case2 ts s rest hs ih =>
    rcases List.mem_cons.1 hr with rfl | hr
    · obtain ⟨t, us, hus, hread⟩ := readStatement?_eq_some hs
      have hrule := isRead_of_readRule (fun u hu => h u (hus.subset hu)) (readStatementFrom_eq_rule hread)
      exact hrule.mono fun u hu => hus.subset hu
    · have hin : ∀ u ∈ rest, u ∈ ts := fun u hu => (readStatement?_suffix hs).subset hu
      exact (ih (fun u hu => h u (hin u hu)) hr).mono hin

end Statements

end GrammarText.Antlr
