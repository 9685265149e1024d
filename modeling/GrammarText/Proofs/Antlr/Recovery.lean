import GrammarText.Antlr.Convert
import GrammarText.Proofs.Antlr.Reading

/-!
# Recovering the rules of a grammar

A grammar file of the right shape is read statement by statement, each as what its shape says
(`readStatements_fileTokens`). So its rules are recovered exactly, and its kind is the one that its headers or its
rules show (`readGrammar_fileTokens`).
-/

namespace GrammarText.Antlr

/-- The rule with only the significant tokens of its body. -/
def AntlrRule.significant (r : AntlrRule) : AntlrRule :=
  { r with body := GrammarText.significant r.body }

/-- The statement with only the significant tokens of its body, if it is a rule. -/
def Statement.significant : Statement → Statement
  | rule r => rule r.significant
  | s => s

section Words

variable {t : Token} {ws vs : List String}

theorem kind_of_isWord (h : isWord ws t = true) : t.kind = .identifier := by
  rw [isWord, Bool.and_eq_true, beq_iff_eq] at h
  exact h.1

theorem not_trivia_of_isWord (h : isWord ws t = true) : t.isTrivia = false :=
  isTrivia_eq_false_of_kind (kind_of_isWord h) (by decide) (by decide)

/-- A word is among the ones only if it is among the others. -/
theorem isWord_eq_false (h : isWord ws t = true) (hd : ∀ w ∈ ws, w ∉ vs) : isWord vs t = false := by
  cases hv : isWord vs t with
  | false => rfl
  | true =>
    rw [isWord, Bool.and_eq_true, List.any_eq_true] at h hv
    obtain ⟨w, hw, ht⟩ := h.2
    obtain ⟨v, hvm, ht'⟩ := hv.2
    have : w.toList = v.toList := (beq_iff_eq.1 ht).symm.trans (beq_iff_eq.1 ht')
    exact absurd (String.toList_inj.1 this ▸ hvm) (hd w hw)

theorem isWord_of_subset (h : isWord ws t = true) (hs : ∀ w ∈ ws, w ∈ vs) : isWord vs t = true := by
  rw [isWord, Bool.and_eq_true, List.any_eq_true] at h ⊢
  obtain ⟨hk, w, hw, ht⟩ := h
  exact ⟨hk, w, hs w hw, ht⟩

theorem isWord_mono (h : isWord vs t = false) (hs : ∀ w ∈ ws, w ∈ vs) : isWord ws t = false := by
  cases hw : isWord ws t with
  | false => rfl
  | true => rw [isWord_of_subset hw hs] at h; cases h

theorem isWord_of_announced {kind : GrammarKind} (h : announced? t = some kind) :
    isWord ["lexer", "parser"] t = true ∧ kind = if isWord ["lexer"] t then .lexer else .parser := by
  unfold announced? at h
  split at h
  · rename_i hl
    cases h
    exact ⟨isWord_of_subset hl (by decide), by rw [if_pos hl]⟩
  · rename_i hl
    split at h
    · rename_i hp
      cases h
      exact ⟨isWord_of_subset hp (by decide), by rw [if_neg hl]⟩
    · cases h

end Words

/-! ### Rules -/

section Rules

variable {ts rest : List Token}

theorem skipNamedAction_append (h : NamedAction ts) (rest : List Token) : skipNamedAction (ts ++ rest) = rest := by
  obtain @⟨sign, a, name, hs, hn, ha⟩ := h
  have hat := isTrivia_eq_false_of_kind ha (by decide) (by decide)
  have hdrop : dropNext (sign :: (name ++ a :: rest)) = name ++ a :: rest :=
    @dropNext_gap [] sign (by simp [Trivia]) (isTrivia_eq_false_of_isOp hs) _
  rw [List.cons_append, List.append_assoc, List.singleton_append, skipNamedAction, hdrop, dropNextWhile_append _ hat]
  · exact @dropNextIf_gap [] a _ (by simp [Trivia]) hat (by simp [ha]) rest
  · simp [ha, isOp_eq_false]
  · intro t ht
    simpa using hn t ht

/-- One step through what stands between the name of a rule and its colon. -/
theorem skipPrequel_eq (ts : List Token) :
    skipPrequel ts =
      match skipTrivia ts with
      | [] => .endOfFile
      | t :: rest =>
        if t.isOp [':'] then .colon rest
        else
          match afterPrequelItem? t rest with
          | some rest' => skipPrequel rest'
          | none => .stuck (t :: rest) := by
  rw [skipPrequel]
  split
  · rename_i h
    rw [h]
  · rename_i t rest h
    rw [h]
    dsimp only
    split
    · rfl
    · split
      · rename_i hi
        rw [hi]
      · rename_i hi
        rw [hi]

theorem skipPrequel_item {t : Token} {us : List Token} (ht : t.isTrivia = false) (hc : t.isOp [':'] = false)
    (h : afterPrequelItem? t us = some rest) : skipPrequel (t :: us) = skipPrequel rest := by
  rw [skipPrequel_eq, skipTrivia_cons ht]
  dsimp only
  rw [hc, h]
  rfl

/-! What may stand in front of the colon, one statement for each item. -/

section Items

variable {t u : Token} {gap us : List Token}

theorem afterPrequelItem?_arguments (ht : t.kind = .charClass) : afterPrequelItem? t us = some us := by
  simp [afterPrequelItem?, ht]

theorem afterPrequelItem?_declared (ht : isWord ["returns", "locals"] t = true) (hg : Trivia gap)
    (hu : u.kind = .charClass) : afterPrequelItem? t (gap ++ u :: us) = some us := by
  have hut : u.isTrivia = false := isTrivia_eq_false_of_kind hu (by decide) (by decide)
  have hvars : dropNextIf (·.kind == .charClass) (gap ++ u :: us) = us := dropNextIf_gap hg hut (by simp [hu]) _
  simp [afterPrequelItem?, kind_of_isWord ht, ht, hvars]

theorem afterPrequelItem?_options (ht : isWord ["options"] t = true) (hg : Trivia gap) (hu : u.kind = .action) :
    afterPrequelItem? t (gap ++ u :: us) = some us := by
  have hut : u.isTrivia = false := isTrivia_eq_false_of_kind hu (by decide) (by decide)
  have h1 : isWord ["returns", "locals"] t = false := isWord_eq_false ht (by decide)
  have h2 : isWord ["throws"] t = false := isWord_eq_false ht (by decide)
  have hnext : nextIs (·.kind == .action) (gap ++ u :: us) = true := by
    rw [nextIs_append hg, nextIs_cons hut]
    simp [hu]
  simp [afterPrequelItem?, kind_of_isWord ht, h1, h2, ht, hnext, dropNext_gap hg hut]

theorem afterPrequelItem?_action (ht : t.isOp ['@'] = true) :
    afterPrequelItem? t us = some (skipNamedAction (t :: us)) := by
  simp [afterPrequelItem?, kind_of_isOp ht, isWord, ht]

end Items

/-- What may stand in front of the colon is passed over, whatever follows. -/
theorem PrequelTokens.skipPrequel_append {ps : List Token} (h : PrequelTokens ps) (us : List Token) :
    skipPrequel (ps ++ us) = skipPrequel us := by
  induction h with
  | nil => rfl
  | trivia ht _ ih =>
    rw [List.cons_append, skipPrequel_eq, skipTrivia_cons_trivia ht, ← skipPrequel_eq]
    exact ih
  | arguments ht _ ih =>
    rw [List.cons_append, skipPrequel_item (isTrivia_eq_false_of_kind ht (by decide) (by decide))
      (isOp_eq_false (by simp [ht]) _) (afterPrequelItem?_arguments ht)]
    exact ih
  | declared hw hg hv _ ih =>
    rw [List.cons_append, List.append_assoc, List.cons_append, skipPrequel_item (not_trivia_of_isWord hw)
      (isOp_eq_false (by simp [kind_of_isWord hw]) _) (afterPrequelItem?_declared hw hg hv)]
    exact ih
  | options hw hg ha _ ih =>
    rw [List.cons_append, List.append_assoc, List.cons_append, skipPrequel_item (not_trivia_of_isWord hw)
      (isOp_eq_false (by simp [kind_of_isWord hw]) _) (afterPrequelItem?_options hw hg ha)]
    exact ih
  | @action as ps ha _ ih =>
    have hskip := skipNamedAction_append ha (ps ++ us)
    obtain @⟨sign, a, name, hs, -, -⟩ := ha
    have hcolon : sign.isOp [':'] = false := isOp_eq_of_isOp hs [':']
    have hitem : afterPrequelItem? sign (name ++ [a] ++ (ps ++ us)) = some (ps ++ us) :=
      (afterPrequelItem?_action hs).trans (congrArg some hskip)
    rw [List.append_assoc, List.cons_append, skipPrequel_item (isTrivia_eq_false_of_isOp hs) hcolon hitem]
    exact ih

theorem skipPrequel_colon {colon : Token} (hc : colon.isOp [':'] = true) (rest : List Token) :
    skipPrequel (colon :: rest) = .colon rest := by
  rw [skipPrequel_eq, skipTrivia_cons (isTrivia_eq_false_of_isOp hc)]
  exact if_pos hc

/-- Everything up to the colon is passed over. -/
theorem skipPrequel_append {ps : List Token} {colon : Token} (h : PrequelTokens ps) (hc : colon.isOp [':'] = true)
    (rest : List Token) : skipPrequel (ps ++ colon :: rest) = .colon rest := by
  rw [h.skipPrequel_append, skipPrequel_colon hc]

theorem skipModifiers_append {ms us : List Token} {name : Token} {fragment : Bool} (h : ModifierTokens ms fragment)
    (hn : name.isTrivia = false) (hm : isWord modifiers name = false) (f : Bool) :
    skipModifiers f (ms ++ name :: us) = (f || fragment, name :: us) := by
  induction h generalizing f with
  | nil => rw [List.nil_append, skipModifiers, hn, hm, Bool.or_false]; rfl
  | @cons m gap ms fragment hword hg _ ih =>
    have hgap : ∀ f vs, skipModifiers f (gap ++ vs) = skipModifiers f vs := by
      intro f vs
      induction gap with
      | nil => rfl
      | cons t gap ihg =>
        rw [List.cons_append, skipModifiers, hg t List.mem_cons_self]
        exact ihg fun u hu => hg u (List.mem_cons_of_mem _ hu)
    rw [List.cons_append, List.append_assoc, skipModifiers, not_trivia_of_isWord hword, hword]
    simp only [Bool.false_eq_true, if_false, if_true]
    rw [hgap, ih, Bool.or_assoc]

/-- Of a body without comments the same tokens stay significant, whether its end is trimmed before or after. -/
theorem significant_trimBody {ts : List Token} (hc : ∀ t ∈ ts, t.kind ≠ .comment) :
    significant (trimBody ts) = withoutLastBars (significant ts) := by
  have hrdrop : ∀ us : List Token, trimBody us = us.rdropWhile fun t => t.kind == .whitespace || t.isOp ['|'] :=
    fun us => rfl
  induction ts using List.reverseRecOn with
  | nil => rfl
  | append_singleton us t ih =>
    have ih := ih fun u hu => hc u (List.mem_append_left _ hu)
    have ht := hc t (by simp)
    have hsig : significant (us ++ [t]) = significant us ++ if t.isTrivia then [] else [t] := by
      rw [significant, List.filter_append]
      cases htr : t.isTrivia <;> simp [significant, htr]
    by_cases hw : t.kind = .whitespace
    · have htr : t.isTrivia = true := by simp [Token.isTrivia, hw]
      rw [hrdrop, List.rdropWhile_concat_pos _ _ _ (by simp [hw]), ← hrdrop, ih, hsig, if_pos htr, List.append_nil]
    · have htr := isTrivia_eq_false hw ht
      rw [hsig, htr]
      by_cases hb : t.isOp ['|'] = true
      · rw [hrdrop, List.rdropWhile_concat_pos _ _ _ (by simp [hb]), ← hrdrop, ih]
        exact (List.rdropWhile_concat_pos (fun u : Token => u.isOp ['|']) _ _ hb).symm
      · rw [hrdrop, List.rdropWhile_concat_neg _ _ _ (by simp [hb, hw]), hsig, htr]
        exact (List.rdropWhile_concat_neg (fun u : Token => u.isOp ['|']) _ _ hb).symm

end Rules

/-! ### Statements -/

section Statements

variable {ts rest : List Token} {s : Statement}

theorem not_semicolon_of_names {names : List Token} (h : Names names) : ∀ t ∈ names, t.isOp [';'] = false := by
  intro t ht
  rcases h t ht with ht | ht | ht
  · exact isOp_of_isTrivia ht _
  · exact isOp_eq_false (by simp [ht]) _
  · rw [isOp_eq_of_isOp ht]
    rfl

theorem not_colon_of_names {names : List Token} {semi : Token} (h : Names names) (hs : semi.isOp [';'] = true)
    (rest : List Token) : nextIs (·.isOp [':']) (names ++ semi :: rest) = false := by
  induction names with
  | nil =>
    rw [List.nil_append, nextIs_cons (isTrivia_eq_false_of_isOp hs), isOp_eq_of_isOp hs]
    rfl
  | cons t names ih =>
    have hrest := ih fun u hu => h u (List.mem_cons_of_mem _ hu)
    cases ht : t.isTrivia with
    | true => rw [List.cons_append, nextIs, next?, skipTrivia_cons_trivia ht]; exact hrest
    | false =>
      rw [List.cons_append, nextIs_cons ht]
      rcases h t List.mem_cons_self with hk | hk | hk
      · rw [ht] at hk
        cases hk
      · exact isOp_eq_false (by simp [hk]) _
      · rw [isOp_eq_of_isOp hk]
        rfl

/-- How a statement that begins with a significant token reads: as what its shape says, up to the next one. -/
def Reads (us rest : List Token) (s : Statement) : Prop :=
  ∃ t vs, us = t :: vs ∧ t.isTrivia = false ∧ t.isOp [';'] = false ∧
    (readStatementFrom t vs).1.significant = s ∧ skipTrivia (readStatementFrom t vs).2 = skipTrivia rest

theorem reads_of_word {t : Token} {vs : List Token} (hk : t.kind = .identifier)
    (hr : (readStatementFrom t vs).1.significant = s ∧ skipTrivia (readStatementFrom t vs).2 = skipTrivia rest) :
    Reads (t :: vs) rest s :=
  ⟨t, vs, rfl, isTrivia_eq_false_of_kind hk (by decide) (by decide), isOp_eq_false (by simp [hk]) _, hr⟩

theorem readRule_append {ms ps body ks : List Token} {name colon semi : Token} {fragment : Bool}
    (hm : ModifierTokens ms fragment) (hn : name.kind = .identifier) (hk : isWord keywords name = false)
    (hp : PrequelTokens ps) (hc : colon.isOp [':'] = true) (hb : BodyTokens (!isLexerName name.text) body ks)
    (hd : depthAfterAll 0 ks = 0) (hs : semi.isOp [';'] = true) (rest : List Token) :
    (readRule (ms ++ name :: (ps ++ colon :: (body ++ semi :: rest)))).1.significant =
        .rule ⟨name.text, withoutLastBars ks, fragment, name.start.line⟩ ∧
      (readRule (ms ++ name :: (ps ++ colon :: (body ++ semi :: rest)))).2 = rest := by
  have hmod : isWord modifiers name = false := isWord_mono hk (by decide)
  have hmods := @skipModifiers_append ms (ps ++ colon :: (body ++ semi :: rest)) name fragment hm
    (isTrivia_eq_false_of_kind hn (by decide) (by decide)) hmod false
  obtain ⟨hrest, hsig, hcomments⟩ := readKept_bodyTokens hb hd hs none rest
  have hread : readRule (ms ++ name :: (ps ++ colon :: (body ++ semi :: rest))) =
      (.rule ⟨name.text, trimBody (readKept (!isLexerName name.text) 0 none (body ++ semi :: rest)).1, fragment,
        name.start.line⟩, (readKept (!isLexerName name.text) 0 none (body ++ semi :: rest)).2) := by
    rw [readRule, hmods]
    simp [hn, skipPrequel_append hp hc, readBody]
  rw [hread]
  refine ⟨?_, hrest⟩
  rw [Statement.significant, AntlrRule.significant, significant_trimBody hcomments, hsig]

/-! One equation for each form of a statement. -/

theorem readStatementFrom_header {k g semi : Token} {gap names : List Token} (hk : isWord ["lexer", "parser"] k = true)
    (hg : Trivia gap) (hw : isWord ["grammar"] g = true) (hn : Names names) (hs : semi.isOp [';'] = true)
    (rest : List Token) :
    readStatementFrom k (gap ++ g :: (names ++ semi :: rest)) =
      (.header (if isWord ["lexer"] k then .lexer else .parser), rest) := by
  have hkind := kind_of_isWord hk
  have htext : g.text = "grammar".toList := by
    simpa [isWord, kind_of_isWord hw] using hw
  have hnext : nextIs (fun u => u.text == "grammar".toList) (gap ++ g :: (names ++ semi :: rest)) = true := by
    rw [nextIs_append hg, nextIs_cons (not_trivia_of_isWord hw), htext, beq_self_eq_true]
  have hskip : ∀ t ∈ gap ++ g :: names, t.isOp [';'] = false := by
    intro t ht
    rcases List.mem_append.1 ht with ht | ht
    · exact isOp_of_isTrivia (hg t ht) _
    rcases List.mem_cons.1 ht with rfl | ht
    · exact isOp_eq_false (by simp [kind_of_isWord hw]) _
    · exact not_semicolon_of_names hn t ht
  have happ : gap ++ g :: (names ++ semi :: rest) = gap ++ g :: names ++ semi :: rest := by simp
  rw [readStatementFrom, if_neg (by simp [isOp_eq_false, hkind]), if_neg (by simp [hkind]),
    if_pos (by rw [hk, hnext]; rfl), happ, skipThroughSemicolon_append hskip hs]

theorem readStatementFrom_directive {w semi : Token} {names : List Token}
    (hw : isWord ["grammar", "import", "mode"] w = true) (hn : Names names) (hs : semi.isOp [';'] = true)
    (rest : List Token) : readStatementFrom w (names ++ semi :: rest) = (.skipped, rest) := by
  have hkind := kind_of_isWord hw
  have hlp : isWord ["lexer", "parser"] w = false := isWord_eq_false hw (by decide)
  have hcolon := not_colon_of_names hn hs rest
  rw [readStatementFrom, if_neg (by simp [isOp_eq_false, hkind]), if_neg (by simp [hkind]), if_neg (by simp [hlp]),
    if_pos (by rw [hw, hcolon]; rfl), skipThroughSemicolon_append (not_semicolon_of_names hn) hs]

theorem readStatementFrom_block {w a : Token} {gap us : List Token} (hw : isWord headerBlocks w = true)
    (hg : Trivia gap) (ha : a.kind = .action) :
    readStatementFrom w (gap ++ a :: us) = (.skipped, dropNextIf (·.isOp [';']) us) := by
  have hk := kind_of_isWord hw
  have hat := isTrivia_eq_false_of_kind ha (by decide) (by decide)
  have h1 : isWord ["lexer", "parser"] w = false := isWord_eq_false hw (by decide)
  have h2 : isWord ["grammar", "import", "mode"] w = false := isWord_eq_false hw (by decide)
  have hnext : nextIs (·.kind == .action) (gap ++ a :: us) = true := by
    rw [nextIs_append hg, nextIs_cons hat]
    simp [ha]
  simp [readStatementFrom, isOp_eq_false, hk, h1, h2, hw, hnext, dropNext_gap hg hat]

/-- A token that begins a rule is taken for nothing else. -/
theorem readStatementFrom_eq_readRule {t : Token} {vs : List Token} (hk : t.kind = .identifier)
    (h1 : isWord ["lexer", "parser"] t = false) (h2 : isWord ["grammar", "import", "mode"] t = false)
    (h3 : isWord headerBlocks t = false) : readStatementFrom t vs = readRule (t :: vs) := by
  simp [readStatementFrom, hk, h1, h2, h3, isOp_eq_false]

/-- What begins with a modifier or with the name of a rule is read as a rule. -/
theorem readStatementFrom_modifiers {ms us : List Token} {name : Token} {fragment : Bool}
    (hm : ModifierTokens ms fragment) (hn : name.kind = .identifier) (hk : isWord keywords name = false) :
    ∃ t vs, ms ++ name :: us = t :: vs ∧ t.kind = .identifier ∧
      readStatementFrom t vs = readRule (ms ++ name :: us) := by
  cases hm with
  | nil =>
    refine ⟨name, us, rfl, hn, ?_⟩
    exact readStatementFrom_eq_readRule hn (isWord_mono hk (by decide)) (isWord_mono hk (by decide))
      (isWord_mono hk (by decide))
  | @cons m gap ms f hword hg _ =>
    refine ⟨m, gap ++ ms ++ name :: us, rfl, kind_of_isWord hword, ?_⟩
    exact readStatementFrom_eq_readRule (kind_of_isWord hword) (isWord_eq_false hword (by decide))
      (isWord_eq_false hword (by decide)) (isWord_eq_false hword (by decide))

/-- A statement of the right shape reads as what its shape says, if no stray semicolon follows. -/
theorem reads_statementTokens (h : StatementTokens ts s) (hn : nextIs (·.isOp [';']) rest = false) :
    Reads (ts ++ rest) rest s := by
  cases h with
  | @header kind k g semi gap names hk hg hw hnames hs =>
    obtain ⟨hword, rfl⟩ := isWord_of_announced hk
    have happ : gap ++ g :: (names ++ [semi]) ++ rest = gap ++ g :: (names ++ semi :: rest) := by simp
    rw [List.cons_append, happ]
    apply reads_of_word (kind_of_isWord hword)
    rw [readStatementFrom_header hword hg hw hnames hs]
    exact ⟨rfl, rfl⟩
  | directive hw hnames hs =>
    rw [List.cons_append, List.append_assoc, List.singleton_append]
    apply reads_of_word (kind_of_isWord hw)
    rw [readStatementFrom_directive hw hnames hs]
    exact ⟨rfl, rfl⟩
  | block hw hg ha =>
    rw [List.cons_append, List.append_assoc, List.singleton_append]
    apply reads_of_word (kind_of_isWord hw)
    rw [readStatementFrom_block hw hg ha, dropNextIf_eq hn]
    exact ⟨rfl, skipTrivia_skipTrivia rest⟩
  | closedBlock hw hg ha hg' hs =>
    rw [List.cons_append, List.append_assoc, List.cons_append, List.append_assoc, List.singleton_append]
    apply reads_of_word (kind_of_isWord hw)
    rw [readStatementFrom_block hw hg ha, dropNextIf_gap hg' (isTrivia_eq_false_of_isOp hs) hs]
    exact ⟨rfl, rfl⟩
  | @action as ha =>
    have hskip := skipNamedAction_append ha rest
    obtain @⟨sign, a, name, hs, -, -⟩ := ha
    refine ⟨sign, name ++ [a] ++ rest, rfl, isTrivia_eq_false_of_isOp hs, by rw [isOp_eq_of_isOp hs]; rfl, ?_⟩
    rw [readStatementFrom, if_pos hs]
    exact ⟨rfl, congrArg skipTrivia hskip⟩
  | @rule ms ps body ks name colon semi fragment hm hname hk hp hc hb hd hs =>
    obtain ⟨hrule, hrest⟩ := readRule_append hm hname hk hp hc hb hd hs rest
    have happ : ms ++ name :: (ps ++ colon :: (body ++ [semi])) ++ rest =
        ms ++ name :: (ps ++ colon :: (body ++ semi :: rest)) := by simp
    obtain ⟨t, vs, heq, ht, hread⟩ := @readStatementFrom_modifiers ms (ps ++ colon :: (body ++ semi :: rest)) _ _ hm hname hk
    rw [happ, heq]
    apply reads_of_word ht
    rw [hread]
    exact ⟨hrule, congrArg skipTrivia hrest⟩

/-! ### Files -/

theorem StatementTokens.next (h : StatementTokens ts s) (rest : List Token) :
    nextIs (·.isOp [';']) (ts ++ rest) = false := by
  obtain ⟨t, vs, heq, ht, hs, -⟩ := @reads_statementTokens ts [] s h rfl
  rw [List.append_nil] at heq
  rw [heq, List.cons_append, nextIs_cons ht, hs]

theorem FileTokens.next {ss : List Statement} (h : FileTokens ts ss) : nextIs (·.isOp [';']) ts = false := by
  cases h with
  | nil hg =>
    rw [← List.append_nil ts, nextIs_append hg]
    rfl
  | cons hg hs _ =>
    rw [nextIs_append hg]
    exact hs.next _

theorem readStatements_eq (ts : List Token) :
    readStatements ts =
      match skipTrivia ts with
      | [] => []
      | t :: us => (readStatementFrom t us).1 :: readStatements (readStatementFrom t us).2 := by
  rw [readStatements]
  unfold readStatement?
  cases skipTrivia ts with
  | nil => rfl
  | cons t us => rfl

theorem readStatements_congr {us : List Token} (h : skipTrivia ts = skipTrivia us) :
    readStatements ts = readStatements us := by
  rw [readStatements_eq, readStatements_eq us, h]

/-- A file of the right shape is read as its statements. -/
theorem readStatements_fileTokens {ss : List Statement} (h : FileTokens ts ss) :
    (readStatements ts).map Statement.significant = ss := by
  induction h with
  | nil hg =>
    have hskip := skipTrivia_append hg []
    rw [List.append_nil] at hskip
    rw [readStatements_eq, hskip]
    rfl
  | @cons gap ts rest s ss hg hs hr ih =>
    obtain ⟨t, vs, heq, ht, -, hread, hrest⟩ := reads_statementTokens hs hr.next
    rw [readStatements_eq, heq, skipTrivia_gap hg ht]
    dsimp only
    rw [List.map_cons, hread, readStatements_congr hrest, ih]

/-- The rules of a grammar of the right shape are recovered exactly, in order, each with its name, its place, its
fragment mark and what its body keeps; and the kind of the grammar is the one that its headers or its rules
show. -/
theorem readGrammar_fileTokens (source : GrammarSource) (ss : List Statement)
    (h : FileTokens (scan .antlr source.text) ss) :
    (readGrammar source).rules.map AntlrRule.significant = ss.filterMap Statement.rule? ∧
      (readGrammar source).kind = inferKind (announcedKind ss) ((ss.filterMap Statement.rule?).map AntlrRule.name) := by
  have hread := readStatements_fileTokens h
  have hrule : ∀ s : Statement, s.significant.rule? = s.rule?.map AntlrRule.significant := by
    intro s
    cases s <;> rfl
  have hheader : ∀ s : Statement, s.significant.header? = s.header? := by
    intro s
    cases s <;> rfl
  have hrules : (readGrammar source).rules.map AntlrRule.significant = ss.filterMap Statement.rule? := by
    rw [← hread, List.filterMap_map, ConvertedGrammar.rules, List.map_filterMap]
    exact List.filterMap_congr fun s _ => (hrule s).symm
  refine ⟨hrules, ?_⟩
  have hnames : ((readGrammar source).rules.map AntlrRule.significant).map AntlrRule.name =
      (readGrammar source).rules.map AntlrRule.name := by
    rw [List.map_map]
    rfl
  have hkind : announcedKind ss = announcedKind (readStatements (scan .antlr source.text)) := by
    rw [← hread, announcedKind, announcedKind, List.filterMap_map]
    congr 1
    exact List.filterMap_congr fun s _ => hheader s
  rw [← hrules, hnames, hkind]
  rfl

end Statements

/-- A fragment, and a rule with arguments, a label and a bar at its end. -/
def smallGrammar : GrammarSource :=
  ⟨"a.g4".toList, "fragment A:'a';r[n]:x=A f[1]|;".toList⟩

theorem fileTokens_smallGrammar :
    FileTokens (scan .antlr smallGrammar.text)
      [.rule ⟨['A'], [⟨.literal, ['\'', 'a', '\''], ⟨1, 12⟩⟩], true, 1⟩,
        .rule ⟨['r'], [⟨.identifier, ['A'], ⟨1, 23⟩⟩, ⟨.identifier, ['f'], ⟨1, 25⟩⟩], false, 1⟩] := by
  have hscan : scan .antlr smallGrammar.text =
      [⟨.identifier, "fragment".toList, ⟨1, 1⟩⟩, ⟨.whitespace, [' '], ⟨1, 9⟩⟩, ⟨.identifier, ['A'], ⟨1, 10⟩⟩,
        ⟨.operator, [':'], ⟨1, 11⟩⟩, ⟨.literal, ['\'', 'a', '\''], ⟨1, 12⟩⟩, ⟨.operator, [';'], ⟨1, 15⟩⟩,
        ⟨.identifier, ['r'], ⟨1, 16⟩⟩, ⟨.charClass, ['[', 'n', ']'], ⟨1, 17⟩⟩, ⟨.operator, [':'], ⟨1, 20⟩⟩,
        ⟨.identifier, ['x'], ⟨1, 21⟩⟩, ⟨.operator, ['='], ⟨1, 22⟩⟩, ⟨.identifier, ['A'], ⟨1, 23⟩⟩,
        ⟨.whitespace, [' '], ⟨1, 24⟩⟩, ⟨.identifier, ['f'], ⟨1, 25⟩⟩, ⟨.charClass, ['[', '1', ']'], ⟨1, 26⟩⟩,
        ⟨.operator, ['|'], ⟨1, 29⟩⟩, ⟨.operator, [';'], ⟨1, 30⟩⟩] := by
    decide +kernel
  rw [hscan]
  have hmods : ModifierTokens [⟨.identifier, "fragment".toList, ⟨1, 1⟩⟩, ⟨.whitespace, [' '], ⟨1, 9⟩⟩] true :=
    @ModifierTokens.cons _ [_] [] false (by decide) (by simp [Trivia, Token.isTrivia]) .nil
  have hphrase : BodyTokens true [⟨.identifier, ['x'], ⟨1, 21⟩⟩, ⟨.operator, ['='], ⟨1, 22⟩⟩, ⟨.identifier, ['A'], ⟨1, 23⟩⟩,
      ⟨.whitespace, [' '], ⟨1, 24⟩⟩, ⟨.identifier, ['f'], ⟨1, 25⟩⟩, ⟨.charClass, ['[', '1', ']'], ⟨1, 26⟩⟩,
      ⟨.operator, ['|'], ⟨1, 29⟩⟩] _ :=
    @BodyTokens.label _ _ _ [] _ _ rfl (by simp [Trivia]) (.inl rfl)
      (.element (.inl rfl) (.trivia rfl (.call rfl rfl rfl (.element (.inr (.inr (.inr ⟨rfl, by decide⟩))) .nil))))
  have hword : BodyTokens false [⟨.literal, ['\'', 'a', '\''], ⟨1, 12⟩⟩] _ := .element (.inr (.inl rfl)) .nil
  exact @FileTokens.cons [] [_, _, _, _, _, _] _ _ _ (by simp [Trivia])
    (@StatementTokens.rule [_, _] [] [_] _ ⟨.identifier, ['A'], ⟨1, 10⟩⟩ _ _ _ hmods rfl (by decide) .nil rfl hword rfl rfl)
    (@FileTokens.cons [] [_, _, _, _, _, _, _, _, _, _, _] [] _ _ (by simp [Trivia])
      (@StatementTokens.rule [] [_] [_, _, _, _, _, _, _] _ ⟨.identifier, ['r'], ⟨1, 16⟩⟩ _ _ _ .nil rfl (by decide) (.arguments rfl .nil) rfl
        hphrase rfl rfl) (.nil (by simp [Trivia])))

theorem readGrammar_smallGrammar :
    (readGrammar smallGrammar).rules.map AntlrRule.significant =
        [⟨['A'], [⟨.literal, ['\'', 'a', '\''], ⟨1, 12⟩⟩], true, 1⟩,
          ⟨['r'], [⟨.identifier, ['A'], ⟨1, 23⟩⟩, ⟨.identifier, ['f'], ⟨1, 25⟩⟩], false, 1⟩] ∧
      (readGrammar smallGrammar).kind = .combined := by
  have h := readGrammar_fileTokens smallGrammar _ fileTokens_smallGrammar
  exact ⟨h.1, h.2.trans (by decide)⟩

end GrammarText.Antlr
