import GrammarText.Antlr.Convert
import GrammarText.Proofs.Antlr.Dialects
import GrammarText.Proofs.Antlr.Reading
import GrammarText.Proofs.Rule.Partition

/-!
# What reading deletes

Reading a grammar only deletes: the bodies of its rules, one after the other, are some of its tokens, each at most once
and in their order. A body holds nothing that has no counterpart in EBNF, and reading it keeps all literals but those in
element options and in the arguments of lexer commands (`readGrammar_deletes`).

Which literals these are is said token by token, without the functions that pass over spans: `Region` follows the tokens
of a body, and `openLiterals` are the literals that it finds in no span. What every such function does is then one
statement (`Passes`): it goes from one region to another and loses no open literal on the way.
-/

namespace GrammarText.Antlr

/-! ### Where the tokens of a body stand -/

/-- Where a token of a body stands. -/
inductive Region where
  /-- In no span. -/
  | body
  /-- Where the name of a lexer command may follow: behind the sign of the commands, or behind a comma. -/
  | command
  /-- Behind the name of a lexer command. -/
  | name
  /-- In the arguments of a lexer command, with `depth` parentheses open. -/
  | arguments (depth : Nat)
  /-- Behind the arguments of a lexer command. -/
  | afterArguments
  /-- In element options. -/
  | options
deriving DecidableEq, Repr

namespace Region

/-- The region behind a token that goes on with nothing that came before. -/
def opened (t : Token) : Region :=
  if t.isOp ['<'] then options else if t.isOp ['-', '>'] then command else body

/-- The region behind a token. Element options that are not closed end with a semicolon, arguments only with the
tokens. -/
def step : Region → Token → Region
  | body, t => opened t
  | command, t => if t.isTrivia then command else if t.kind == .identifier then name else opened t
  | name, t =>
    if t.isTrivia then name
    else if t.isOp ['('] then arguments 1
    else if t.isOp [','] then command
    else opened t
  | arguments depth, t =>
    if t.isOp ['('] then arguments (depth + 1)
    else if t.isOp [')'] then if depth ≤ 1 then afterArguments else arguments (depth - 1)
    else arguments depth
  | afterArguments, t => if t.isTrivia then afterArguments else if t.isOp [','] then command else opened t
  | options, t => if t.isOp ['>'] || t.isOp [';'] then body else options

/-- Whether the region is one in which literals are deleted. -/
def isSpan : Region → Bool
  | arguments _ | options => true
  | _ => false

end Region

/-- The literals among the tokens that stand in no span, if the first token stands behind the region `q`. -/
def openLiterals (q : Region) : List Token → List Token
  | [] => []
  | t :: ts =>
    if t.kind == .literal && !(q.step t).isSpan then t :: openLiterals (q.step t) ts else openLiterals (q.step t) ts

/-- The literals among the tokens. -/
def literals (ts : List Token) : List Token :=
  ts.filter (·.kind == .literal)

/-! ### Passing over tokens -/

/-- Going on from the tokens `ts` to the tokens `rest` at their end, from one region to another, past no literal that
stands in no span. -/
inductive Passes : Region → List Token → Region → List Token → Prop where
  | refl (q : Region) (ts : List Token) : Passes q ts q ts
  | step {q q' : Region} {t : Token} {ts rest : List Token} (h : t.kind = .literal → (q.step t).isSpan = true)
      (more : Passes (q.step t) ts q' rest) : Passes q (t :: ts) q' rest

/-- Whether the region makes no difference to what follows. -/
def Region.Resumes (q : Region) (rest : List Token) : Prop :=
  ∀ t ∈ rest.head?, q.step t = opened t

section Passes

variable {q q' q'' : Region} {t : Token} {ts us rest : List Token}

theorem Passes.trans (h : Passes q ts q' us) (h' : Passes q' us q'' rest) : Passes q ts q'' rest := by
  induction h with
  | refl => exact h'
  | step hstep _ ih => exact .step hstep (ih h')

/-- Past a token that is no literal. -/
theorem Passes.skip (h : t.kind ≠ .literal) (hq : q.step t = q') (more : Passes q' ts q'' rest) :
    Passes q (t :: ts) q'' rest :=
  .step (fun hl => absurd hl h) (hq ▸ more)

/-- Past any token inside a span. -/
theorem Passes.inside (hq : q.isSpan = true) (hstep : q.step t = q) (more : Passes q ts q' rest) :
    Passes q (t :: ts) q' rest :=
  .step (fun _ => by rw [hstep, hq]) (hstep.symm ▸ more)

/-- What is passed over has no open literals. -/
theorem Passes.exists_append (h : Passes q ts q' rest) :
    ∃ gone, ts = gone ++ rest ∧ ∀ more, openLiterals q (gone ++ more) = openLiterals q' more := by
  induction h with
  | refl => exact ⟨[], rfl, fun _ => rfl⟩
  | @step q q' t ts rest hl _ ih =>
    obtain ⟨gone, rfl, hgone⟩ := ih
    refine ⟨t :: gone, rfl, fun more => ?_⟩
    rw [List.cons_append, openLiterals, if_neg (by simpa using hl), hgone]

theorem Region.Resumes.openLiterals (h : q.Resumes (ts ++ rest)) : openLiterals q ts = openLiterals .body ts := by
  cases ts with
  | nil => rfl
  | cons t ts =>
    have hstep : q.step t = Region.body.step t := h t rfl
    rw [Antlr.openLiterals, Antlr.openLiterals, hstep]

theorem not_literal_of_isOp {s : Text} (h : t.isOp s = true) : t.kind ≠ .literal := by
  simp [kind_of_isOp h]

theorem not_literal_of_isTrivia (h : t.isTrivia = true) : t.kind ≠ .literal := by
  intro hk
  simp [Token.isTrivia, hk] at h

theorem Region.opened_of_not_operator (h : t.kind ≠ .operator) : opened t = body := by
  simp [opened, isOp_eq_false h]

theorem Region.opened_of_isOp {s : Text} (h : t.isOp s = true) (hs : s ≠ ['<'] ∧ s ≠ ['-', '>']) : opened t = body := by
  simp [opened, isOp_eq_of_isOp h, hs]

/-- Past a token of a body that is neither a literal nor a sign. -/
theorem Passes.plain (h : t.kind ≠ .literal ∧ t.kind ≠ .operator) (more : Passes .body ts q rest) :
    Passes .body (t :: ts) q rest :=
  .skip h.1 (Region.opened_of_not_operator h.2) more

/-- Past a sign of a body that begins no span. -/
theorem Passes.sign {s : Text} (h : t.isOp s = true) (hs : s ≠ ['<'] ∧ s ≠ ['-', '>']) (more : Passes .body ts q rest) :
    Passes .body (t :: ts) q rest :=
  .skip (not_literal_of_isOp h) (Region.opened_of_isOp h hs) more

/-- Outside spans trivia makes no difference. -/
theorem Region.step_of_isTrivia (hq : q.isSpan = false) (ht : t.isTrivia = true) : q.step t = q := by
  cases q with
  | body => exact opened_of_not_operator (kind_ne_of_isTrivia ht).1
  | command | name | afterArguments => exact if_pos ht
  | arguments | options => cases hq

theorem passes_skipTrivia (hq : q.isSpan = false) (hs : skipTrivia ts = us) : Passes q ts q us := by
  subst hs
  induction ts with
  | nil => exact .refl q []
  | cons t ts ih =>
    cases ht : t.isTrivia with
    | true =>
      rw [skipTrivia_cons_trivia ht]
      exact .skip (not_literal_of_isTrivia ht) (Region.step_of_isTrivia hq ht) ih
    | false =>
      rw [skipTrivia_cons ht]
      exact .refl q (t :: ts)

end Passes

/-! ### The functions that pass over spans -/

section Spans

variable {t : Token} {ts rest : List Token}

theorem passes_skipElementOptions (ts : List Token) :
    ∃ q, Passes .options ts q (skipElementOptions ts) ∧ q.Resumes (skipElementOptions ts) := by
  fun_induction skipElementOptions ts with
  | case1 => exact ⟨.options, .refl .options [], by simp [Region.Resumes]⟩
  | case2 t ts hs =>
    refine ⟨.options, .refl .options (t :: ts), ?_⟩
    rintro u ⟨⟩
    rw [Region.opened_of_isOp hs (by decide), Region.step, hs, Bool.or_true]
    rfl
  | case3 t ts _ hc =>
    refine ⟨.body, .skip (not_literal_of_isOp hc) ?_ (.refl .body ts), fun _ _ => rfl⟩
    rw [Region.step, hc]
    rfl
  | case4 t ts hs hc ih =>
    obtain ⟨q, hq, hresumes⟩ := ih
    have hstep : Region.options.step t = .options := by simp [Region.step, hs, hc]
    exact ⟨q, .inside rfl hstep hq, hresumes⟩

/-- The arguments of a lexer command end, or the tokens do. -/
theorem passes_skipParenthesized (depth : Nat) (ts : List Token) :
    ∃ q, Passes (.arguments depth) ts q (skipParenthesized depth ts) ∧
      (q = .afterArguments ∨ skipParenthesized depth ts = []) := by
  fun_induction skipParenthesized depth ts with
  | case1 depth => exact ⟨.arguments depth, .refl _ [], .inr rfl⟩
  | case2 depth t ts ho ih =>
    obtain ⟨q, hq, hend⟩ := ih
    exact ⟨q, .skip (not_literal_of_isOp ho) (by rw [Region.step, if_pos ho]) hq, hend⟩
  | case3 depth t ts ho hc hd =>
    exact ⟨.afterArguments, .skip (not_literal_of_isOp hc) (by rw [Region.step, if_neg ho, if_pos hc, if_pos hd])
      (.refl _ ts), .inl rfl⟩
  | case4 depth t ts ho hc hd ih =>
    obtain ⟨q, hq, hend⟩ := ih
    exact ⟨q, .skip (not_literal_of_isOp hc) (by rw [Region.step, if_neg ho, if_pos hc, if_neg hd]) hq, hend⟩
  | case5 depth t ts ho hc ih =>
    obtain ⟨q, hq, hend⟩ := ih
    have hstep : (Region.arguments depth).step t = .arguments depth := by rw [Region.step, if_neg ho, if_neg hc]
    exact ⟨q, .inside rfl hstep hq, hend⟩

theorem skipParenthesized_skipTrivia (depth : Nat) (ts : List Token) :
    skipParenthesized depth (skipTrivia ts) = skipParenthesized depth ts := by
  induction ts with
  | nil => rfl
  | cons t ts ih =>
    cases ht : t.isTrivia with
    | true =>
      rw [skipTrivia_cons_trivia ht, ih, skipParenthesized]
      simp [isOp_of_isTrivia ht]
    | false => rw [skipTrivia_cons ht]

/-- Behind a lexer command a comma goes on with the commands, and nothing else does. -/
theorem passes_command {us : List Token} (hus : (if nextIs (·.isOp ['(']) ts then skipParenthesized 0 ts else ts) = us) :
    ∃ q, Passes .name ts q (skipTrivia us) ∧
      ∀ u ∈ (skipTrivia us).head?, q.step u = if u.isOp [','] then .command else Region.opened u := by
  split at hus
  · -- the command has arguments
    rename_i hnext
    rw [nextIs, next?] at hnext
    cases hs : skipTrivia ts with
    | nil => simp [hs] at hnext
    | cons p ps =>
      have hp : p.isOp ['('] = true := by simpa [hs] using hnext
      have hstep : Region.name.step p = .arguments 1 := by simp [Region.step, not_trivia_of_skipTrivia hs, hp]
      rw [← skipParenthesized_skipTrivia, hs, skipParenthesized, if_pos hp] at hus
      obtain ⟨q, hq, hend⟩ := passes_skipParenthesized 1 ps
      have hpass : Passes .name ts q (skipParenthesized 1 ps) :=
        (passes_skipTrivia rfl hs).trans (.skip (not_literal_of_isOp hp) hstep hq)
      rw [hus] at hpass hend
      rcases hend with rfl | rfl
      · refine ⟨.afterArguments, hpass.trans (passes_skipTrivia rfl rfl), fun u hu => ?_⟩
        obtain ⟨vs, hvs⟩ := List.head?_eq_some_iff.1 hu
        simp [Region.step, not_trivia_of_skipTrivia hvs]
      · exact ⟨q, hpass, by simp [skipTrivia]⟩
  · rename_i hnext
    subst hus
    refine ⟨.name, passes_skipTrivia rfl rfl, fun u hu => ?_⟩
    obtain ⟨us, hus⟩ := List.head?_eq_some_iff.1 hu
    have hopen : u.isOp ['('] = false := by simpa [nextIs, next?, hus] using hnext
    simp [Region.step, not_trivia_of_skipTrivia hus, hopen]

/-- Past the name of a lexer command. -/
theorem passes_commandName (hs : skipTrivia ts = t :: rest) (hk : (t.kind == .identifier) = true) :
    Passes .command ts .name rest := by
  have hstep : Region.command.step t = .name := by simp [Region.step, not_trivia_of_skipTrivia hs, hk]
  exact (passes_skipTrivia rfl hs).trans (.skip (by simp [beq_iff_eq.1 hk]) hstep (.refl .name rest))

theorem passes_skipLexerCommands (ts : List Token) :
    ∃ q, Passes .command ts q (skipLexerCommands ts) ∧ q.Resumes (skipLexerCommands ts) := by
  fun_induction skipLexerCommands ts with
  | case1 ts hs => exact ⟨.command, passes_skipTrivia rfl hs, by simp [Region.Resumes]⟩
  | case2 ts t rest hs hk rest' hs' =>
    obtain ⟨q, hq, -⟩ := passes_command (show _ = rest' from rfl)
    rw [hs'] at hq
    exact ⟨q, (passes_commandName hs hk).trans hq, by simp [Region.Resumes]⟩
  | case3 ts t rest hs hk rest' u more hs' hu ih =>
    obtain ⟨q, hq, hnext⟩ := passes_command (show _ = rest' from rfl)
    obtain ⟨q', hq', hresumes⟩ := ih
    rw [hs'] at hq hnext
    have hstep : q.step u = .command := (hnext u rfl).trans (if_pos hu)
    have hcomma : Passes q (u :: more) q' (skipLexerCommands more) := .skip (not_literal_of_isOp hu) hstep hq'
    exact ⟨q', (passes_commandName hs hk).trans (hq.trans hcomma), hresumes⟩
  | case4 ts t rest hs hk rest' u more hs' hu =>
    obtain ⟨q, hq, hnext⟩ := passes_command (show _ = rest' from rfl)
    rw [hs'] at hq hnext
    refine ⟨q, (passes_commandName hs hk).trans hq, ?_⟩
    rintro v ⟨⟩
    exact (hnext u rfl).trans (if_neg hu)
  | case5 ts t rest hs hk =>
    refine ⟨.command, passes_skipTrivia rfl hs, ?_⟩
    rintro v ⟨⟩
    simp [Region.step, not_trivia_of_skipTrivia hs, hk]

theorem passes_dropNextIf {p : Token → Bool} (hp : ∀ u, p u = true → u.kind ≠ .literal ∧ u.kind ≠ .operator)
    (ts : List Token) : Passes .body ts .body (dropNextIf p ts) := by
  unfold dropNextIf
  split
  · rename_i u us hs
    split
    · rename_i hu
      exact (passes_skipTrivia rfl hs).trans (.plain (hp u hu) (.refl .body us))
    · exact passes_skipTrivia rfl hs
  · rename_i hs
    exact passes_skipTrivia rfl hs

/-- Past the sign of a label. -/
theorem passes_dropNext (h : nextIs isLabelSign ts = true) : Passes .body ts .body (dropNext ts) := by
  rw [nextIs, next?] at h
  rw [dropNext]
  cases hs : skipTrivia ts with
  | nil => exact passes_skipTrivia rfl hs
  | cons u us =>
    have hu : u.isOp ['='] = true ∨ u.isOp ['+', '='] = true := by simpa [hs, isLabelSign] using h
    refine (passes_skipTrivia rfl hs).trans ?_
    rcases hu with hu | hu
    · exact .sign hu (by decide) (.refl .body us)
    · exact .sign hu (by decide) (.refl .body us)

/-- What a body drops has no open literals. -/
theorem passes_afterDropped? {phrase : Bool} {last : Option Token} (h : afterDropped? phrase last t ts = some rest) :
    ∃ q, Passes .body (t :: ts) q rest ∧ q.Resumes rest := by
  have hbody : ∀ us, Passes .body (t :: ts) .body us → ∃ q, Passes .body (t :: ts) q us ∧ q.Resumes us :=
    fun _ hpass => ⟨.body, hpass, fun _ _ => rfl⟩
  -- one case for every branch: what begins a span of one of the two kinds leads to it, all else leads back to the body
  unfold afterDropped? at h
  split at h
  · rename_i hcomment
    cases h
    exact hbody _ (.plain (by simp [beq_iff_eq.1 hcomment]) (.refl .body ts))
  split at h
  · rename_i haction
    have hplain : t.kind ≠ .literal ∧ t.kind ≠ .operator := by simp [beq_iff_eq.1 haction]
    split at h
    · rename_i u us
      cases h
      split
      · rename_i hmark
        exact hbody _ (.plain hplain (.sign hmark (by decide) (.refl .body us)))
      · exact hbody _ (.plain hplain (.refl .body (u :: us)))
    · cases h
      exact hbody _ (.plain hplain (.refl .body []))
  split at h
  · rename_i harrow
    cases h
    obtain ⟨q, hq, hresumes⟩ := passes_skipLexerCommands ts
    have hstep : Region.body.step t = .command := by simp [Region.step, Region.opened, isOp_eq_of_isOp harrow]
    exact ⟨q, .skip (not_literal_of_isOp harrow) hstep hq, hresumes⟩
  split at h
  · rename_i hhash
    cases h
    have hname : ∀ u : Token, (u.kind == .identifier) = true → u.kind ≠ .literal ∧ u.kind ≠ .operator :=
      fun u hu => by simp [beq_iff_eq.1 hu]
    exact hbody _ (.sign hhash (by decide) (passes_dropNextIf hname ts))
  split at h
  · rename_i hangle
    cases h
    obtain ⟨q, hq, hresumes⟩ := passes_skipElementOptions ts
    exact ⟨q, .skip (not_literal_of_isOp hangle) (if_pos hangle) hq, hresumes⟩
  split at h
  · rename_i hlabel
    cases h
    rw [Bool.and_eq_true, beq_iff_eq] at hlabel
    exact hbody _ (.plain (by simp [hlabel.1]) (passes_dropNext hlabel.2))
  split at h
  · rename_i harguments
    cases h
    rw [Bool.and_eq_true, Bool.and_eq_true, beq_iff_eq] at harguments
    exact hbody _ (.plain (by simp [harguments.1.1]) (.refl .body ts))
  · cases h

end Spans

/-! ### Bodies -/

section Bodies

variable {phrase : Bool} {last : Option Token} {t : Token} {ts : List Token}

/-- No sign of something that has no counterpart in EBNF is kept. -/
theorem isOp_eq_false_of_afterDropped? (h : afterDropped? phrase last t ts = none) :
    ∀ s ∈ [['-', '>'], ['#'], ['<']], t.isOp s = false := by
  intro s hs
  cases hop : t.isOp s with
  | false => rfl
  | true =>
    have hk := kind_of_isOp hop
    simp only [List.mem_cons, List.not_mem_nil, or_false] at hs
    rcases hs with rfl | rfl | rfl <;> simp [afterDropped?, hk, isOp_eq_of_isOp hop] at h

/-- A body keeps tokens in their order, and all open literals. -/
theorem readKept_deletes (phrase : Bool) (depth : Nat) (last : Option Token) (ts : List Token) :
    ∃ passed, ts = passed ++ (readKept phrase depth last ts).2 ∧ ((readKept phrase depth last ts).1).Sublist passed ∧
      literals (readKept phrase depth last ts).1 = openLiterals .body passed := by
  fun_induction readKept phrase depth last ts with
  | case1 => exact ⟨[], rfl, List.Sublist.slnil, rfl⟩
  | case2 depth last t ts rest hd ih =>
    -- what follows a span is read on as if it stood in no span
    obtain ⟨passed, hrest, hsub, hlit⟩ := ih
    obtain ⟨q, hpass, hresumes⟩ := passes_afterDropped? hd
    obtain ⟨gone, hgone, hopen⟩ := hpass.exists_append
    refine ⟨gone ++ passed, ?_, hsub.trans (List.sublist_append_right gone passed), ?_⟩
    · rw [hgone, List.append_assoc, ← hrest]
    · rw [hrest] at hresumes
      rw [hlit, hopen, hresumes.openLiterals]
  | case3 depth last t ts hd hs =>
    refine ⟨[t], rfl, List.nil_sublist _, ?_⟩
    simp [literals, openLiterals, kind_of_isOp hs.1]
  | case4 depth last t ts hd hs r ih =>
    obtain ⟨passed, hts, hsub, hlit⟩ := ih
    have hsigns := isOp_eq_false_of_afterDropped? hd
    have hstep : Region.body.step t = .body := by simp [Region.step, Region.opened, hsigns]
    refine ⟨t :: passed, congrArg (t :: ·) hts, hsub.cons_cons t, ?_⟩
    rw [openLiterals, hstep, ← hlit, literals, List.filter_cons]
    simp [Region.isSpan, literals, r]

/-- What is trimmed off a body. -/
theorem trimBody_append (ts : List Token) :
    ∃ blank, ts = trimBody ts ++ blank ∧ ∀ t ∈ blank, t.kind = .whitespace ∨ t.isOp ['|'] = true := by
  refine ⟨(ts.reverse.takeWhile fun t => t.kind == .whitespace || t.isOp ['|']).reverse, ?_, fun t ht => ?_⟩
  · rw [trimBody, ← List.reverse_append, List.takeWhile_append_dropWhile, List.reverse_reverse]
  · simpa using List.mem_takeWhile_imp (List.mem_reverse.1 ht)

theorem literals_trimBody (ts : List Token) : literals (trimBody ts) = literals ts := by
  obtain ⟨blank, hts, hblank⟩ := trimBody_append ts
  have hnone : literals blank = [] := by
    rw [literals, List.filter_eq_nil_iff]
    intro t ht
    rcases hblank t ht with hw | hb
    · simp [hw]
    · simpa using not_literal_of_isOp hb
  have happ : literals ts = literals (trimBody ts) ++ literals blank := by
    conv_lhs => rw [hts]
    exact List.filter_append _ _
  rw [happ, hnone, List.append_nil]

theorem getLast?_trimBody (ts : List Token) :
    ∀ t ∈ (trimBody ts).getLast?, t.kind ≠ .whitespace ∧ t.isOp ['|'] = false := by
  intro t ht
  rw [trimBody, List.getLast?_reverse] at ht
  have hhead := List.head?_dropWhile_not (fun t : Token => t.kind == .whitespace || t.isOp ['|']) ts.reverse
  rw [ht] at hhead
  simpa using hhead

/-- A body is read from a part of the tokens ahead. It is made of tokens of this part in their order, among them all its
open literals. -/
theorem readBody_deletes (phrase : Bool) (ts : List Token) :
    ∃ passed, ts = passed ++ (readBody phrase ts).2 ∧ ((readBody phrase ts).1).Sublist passed ∧
      literals (readBody phrase ts).1 = openLiterals .body passed := by
  obtain ⟨passed, hts, hsub, hlit⟩ := readKept_deletes phrase 0 none ts
  exact ⟨passed, hts, (isPrefix_trimBody _).sublist.trans hsub, (literals_trimBody _).trans hlit⟩

end Bodies

/-! ### Grammars -/

/-- The rules are read from the tokens one after the other, each body from a stretch of tokens of its own. -/
inductive Drawn : List Token → List (AntlrRule × List Token) → Prop where
  | rest (ts : List Token) : Drawn ts []
  | skip (t : Token) {ts : List Token} {stretches : List (AntlrRule × List Token)} (h : Drawn ts stretches) :
      Drawn (t :: ts) stretches
  | rule {r : AntlrRule} {passed after : List Token} {stretches : List (AntlrRule × List Token)}
      (h : readBody (!isLexerName r.name) (passed ++ after) = (r.body, after)) (more : Drawn after stretches) :
      Drawn (passed ++ after) ((r, passed) :: stretches)

section Grammars

variable {ts rest : List Token} {r : AntlrRule} {stretches : List (AntlrRule × List Token)}

theorem Drawn.of_suffix (h : Drawn rest stretches) (hs : rest <:+ ts) : Drawn ts stretches := by
  obtain ⟨gap, rfl⟩ := hs
  induction gap with
  | nil => exact h
  | cons t gap ih => exact .skip t ih

theorem Drawn.exists_readBody (h : Drawn ts stretches) :
    ∀ s ∈ stretches, ∃ after, readBody (!isLexerName s.1.name) (s.2 ++ after) = (s.1.body, after) := by
  induction h with
  | rest => exact fun s hs => absurd hs List.not_mem_nil
  | skip _ _ ih => exact ih
  | @rule r passed after stretches hbody _ ih =>
    intro s hs
    rcases List.mem_cons.1 hs with rfl | hs
    · exact ⟨after, hbody⟩
    · exact ih s hs

/-- The bodies together are some of the tokens. -/
theorem Drawn.sublist (h : Drawn ts stretches) : (stretches.flatMap (·.1.body)).Sublist ts := by
  induction h with
  | rest ts => exact List.nil_sublist ts
  | skip t _ ih => exact ih.cons t
  | @rule r passed after stretches hbody _ ih =>
    obtain ⟨passed', happ, hsub, -⟩ := readBody_deletes (!isLexerName r.name) (passed ++ after)
    rw [hbody] at happ hsub
    rw [← List.append_cancel_right happ] at hsub
    rw [List.flatMap_cons]
    exact hsub.append ih

/-- The body of a rule is read from a stretch of its tokens. -/
theorem drawn_readRule (h : readRule ts = (.rule r, rest)) (hrest : Drawn rest stretches) :
    ∃ passed, Drawn ts ((r, passed) :: stretches) := by
  obtain ⟨name, us, body, hname, hbody, -, -, hread⟩ := readRule_eq_rule h
  obtain ⟨passed, happ, -⟩ := readBody_deletes (!isLexerName r.name) body
  rw [hread] at happ
  rw [happ] at hread
  have hdrawn : Drawn body ((r, passed) :: stretches) := happ ▸ .rule hread hrest
  exact ⟨passed, hdrawn.of_suffix (hbody.trans ((List.suffix_cons name us).trans hname))⟩

/-- The rules of a grammar are read from its tokens one after the other. -/
theorem drawn_readStatements (ts : List Token) :
    ∃ stretches, Drawn ts stretches ∧ (readStatements ts).filterMap Statement.rule? = stretches.map Prod.fst := by
  fun_induction readStatements ts with
  | case1 ts hs => exact ⟨[], .rest ts, rfl⟩
  | case2 ts s rest hs ih =>
    obtain ⟨stretches, hdrawn, hrules⟩ := ih
    cases s with
    | rule r =>
      obtain ⟨t, us, hus, hread⟩ := readStatement?_eq_some hs
      obtain ⟨passed, hrule⟩ := drawn_readRule (readStatementFrom_eq_rule hread) hdrawn
      refine ⟨(r, passed) :: stretches, hrule.of_suffix hus, ?_⟩
      rw [List.filterMap_cons_some (show (Statement.rule r).rule? = some r from rfl), hrules, List.map_cons]
    | header | abandoned | skipped =>
      exact ⟨stretches, hdrawn.of_suffix (readStatement?_suffix hs), (List.filterMap_cons_none rfl).trans hrules⟩

/-- Reading a grammar only deletes. The bodies of its rules, one after the other, are some of its tokens, each at most
once and in their order. No body holds a comment, an action, or one of the signs before lexer commands, before the name
of a branch and before element options; none ends with whitespace or a bar, and none has a semicolon outside
parentheses. Each body is read from a stretch of the tokens, and reading a body, from whatever tokens, keeps all literals
that it passes over outside element options and outside the arguments of lexer commands. -/
theorem readGrammar_deletes (source : GrammarSource) :
    ((readGrammar source).rules.flatMap AntlrRule.body).Sublist (scan .antlr source.text) ∧
    (∀ r ∈ (readGrammar source).rules,
      (∀ t ∈ r.body, t.kind ≠ .comment ∧ t.kind ≠ .action ∧ ∀ s ∈ [['-', '>'], ['#'], ['<']], t.isOp s = false) ∧
      (∀ t ∈ r.body.getLast?, t.kind ≠ .whitespace ∧ t.isOp ['|'] = false) ∧
      ∀ before t after, r.body = before ++ t :: after → depthAfterAll 0 before = 0 → t.isOp [';'] = false) ∧
    (∃ stretches, Drawn (scan .antlr source.text) stretches ∧ (readGrammar source).rules = stretches.map Prod.fst) ∧
    ∀ phrase ts, ∃ passed, ts = passed ++ (readBody phrase ts).2 ∧
      literals (readBody phrase ts).1 = openLiterals .body passed := by
  obtain ⟨stretches, hdrawn, (hrules : (readGrammar source).rules = stretches.map Prod.fst)⟩ :=
    drawn_readStatements (scan .antlr source.text)
  refine ⟨?_, fun r hr => ?_, ⟨stretches, hdrawn, hrules⟩, fun phrase ts => ?_⟩
  · rw [hrules, List.flatMap_map]
    exact hdrawn.sublist
  · have hread : IsRead (scan .antlr source.text) r := isRead_of_mem_readGrammar hr
    rw [hrules] at hr
    obtain ⟨s, hs, rfl⟩ := List.mem_map.1 hr
    obtain ⟨after, hbody⟩ := hdrawn.exists_readBody s hs
    have hbody : trimBody (readKept (!isLexerName s.1.name) 0 none (s.2 ++ after)).1 = s.1.body := congrArg Prod.fst hbody
    refine ⟨fun t ht => ?_, hbody ▸ getLast?_trimBody _, fun before t after heq hd => ?_⟩
    · obtain ⟨last, us, hkept⟩ := afterDropped?_of_mem_readKept ((isPrefix_trimBody _).subset (hbody.symm ▸ ht))
      exact ⟨(hread.kept t ht).2.1, (hread.kept t ht).2.2, isOp_eq_false_of_afterDropped? hkept⟩
    · exact (bodyFrom_iff.1 hread.body before t after heq hd).1
  · obtain ⟨passed, hts, -, hlit⟩ := readBody_deletes phrase ts
    exact ⟨passed, hts, hlit⟩

end Grammars

end GrammarText.Antlr
