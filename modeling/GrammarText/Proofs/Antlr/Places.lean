import GrammarText.Proofs.Antlr.Independence

/-!
# Reading does not look at places

Tokens of the same classes and texts are read alike, wherever they stand: every function that reads or passes over
tokens commutes with dropping their places, up to whole grammars (`bare_readStatements`). So grammars can be compared
by the tokens of their texts alone.
-/

namespace GrammarText.Antlr

/-- The rule at no place in particular. -/
def AntlrRule.bare (r : AntlrRule) : AntlrRule :=
  { r with body := r.body.map Token.bare, line := ({} : Position).line }

/-- The statement at no place in particular. -/
def Statement.bare : Statement → Statement
  | rule r => rule r.bare
  | header k => header k
  | abandoned n _ => abandoned n ({} : Position).line
  | skipped => skipped

/-! ### Spans -/

section Spans

variable {p : Token → Bool}

theorem skipTrivia_map_bare (ts : List Token) : skipTrivia (ts.map Token.bare) = (skipTrivia ts).map Token.bare :=
  List.dropWhile_map

theorem nextIs_map_bare (hp : ∀ t, p t.bare = p t) (ts : List Token) : nextIs p (ts.map Token.bare) = nextIs p ts := by
  rw [nextIs, nextIs, next?, next?, skipTrivia_map_bare]
  cases skipTrivia ts with
  | nil => rfl
  | cons t rest => exact hp t

theorem dropNext_map_bare (ts : List Token) : dropNext (ts.map Token.bare) = (dropNext ts).map Token.bare := by
  rw [dropNext, dropNext, skipTrivia_map_bare, List.map_tail]

theorem dropNextIf_map_bare (hp : ∀ t, p t.bare = p t) (ts : List Token) :
    dropNextIf p (ts.map Token.bare) = (dropNextIf p ts).map Token.bare := by
  rw [dropNextIf, dropNextIf, skipTrivia_map_bare]
  cases skipTrivia ts with
  | nil => rfl
  | cons t rest =>
    rw [List.map_cons]
    dsimp only
    rw [hp]
    split <;> rfl

theorem dropNextWhile_map_bare (hp : ∀ t, p t.bare = p t) (ts : List Token) :
    dropNextWhile p (ts.map Token.bare) = (dropNextWhile p ts).map Token.bare := by
  rw [dropNextWhile, dropNextWhile, List.dropWhile_map]
  congr 2
  funext t
  simp [hp]

theorem skipThroughSemicolon_map_bare (ts : List Token) :
    skipThroughSemicolon (ts.map Token.bare) = (skipThroughSemicolon ts).map Token.bare := by
  rw [skipThroughSemicolon, skipThroughSemicolon, List.dropWhile_map, List.map_tail]
  rfl

theorem skipNamedAction_map_bare (ts : List Token) :
    skipNamedAction (ts.map Token.bare) = (skipNamedAction ts).map Token.bare := by
  rw [skipNamedAction, skipNamedAction, dropNext_map_bare, dropNextWhile_map_bare fun _ => rfl,
    dropNextIf_map_bare fun _ => rfl]

theorem skipParenthesized_map_bare (depth : Nat) (ts : List Token) :
    skipParenthesized depth (ts.map Token.bare) = (skipParenthesized depth ts).map Token.bare := by
  fun_induction skipParenthesized depth ts with
  | case1 => rfl
  | case2 depth t ts ho ih => rw [List.map_cons, skipParenthesized, Token.isOp_bare, if_pos ho, ih]
  | case3 depth t ts ho hc hd =>
    rw [List.map_cons, skipParenthesized, Token.isOp_bare, Token.isOp_bare, if_neg ho, if_pos hc, if_pos hd]
  | case4 depth t ts ho hc hd ih =>
    rw [List.map_cons, skipParenthesized, Token.isOp_bare, Token.isOp_bare, if_neg ho, if_pos hc, if_neg hd, ih]
  | case5 depth t ts ho hc ih =>
    rw [List.map_cons, skipParenthesized, Token.isOp_bare, Token.isOp_bare, if_neg ho, if_neg hc, ih]

theorem skipElementOptions_map_bare (ts : List Token) :
    skipElementOptions (ts.map Token.bare) = (skipElementOptions ts).map Token.bare := by
  fun_induction skipElementOptions ts with
  | case1 => rfl
  | case2 t ts hs => rw [List.map_cons, skipElementOptions, Token.isOp_bare, if_pos hs]
  | case3 t ts hs hc => rw [List.map_cons, skipElementOptions, Token.isOp_bare, Token.isOp_bare, if_neg hs, if_pos hc]
  | case4 t ts hs hc ih =>
    rw [List.map_cons, skipElementOptions, Token.isOp_bare, Token.isOp_bare, if_neg hs, if_neg hc, ih]

/-- What follows the arguments of a lexer command, if it has any. -/
theorem arguments_map_bare (ts : List Token) :
    (if nextIs (·.isOp ['(']) (ts.map Token.bare) then skipParenthesized 0 (ts.map Token.bare) else ts.map Token.bare) =
      (if nextIs (·.isOp ['(']) ts then skipParenthesized 0 ts else ts).map Token.bare := by
  rw [nextIs_map_bare fun _ => rfl]
  split
  · exact skipParenthesized_map_bare 0 ts
  · rfl

/-- The commands from a name on. -/
theorem skipLexerCommands_map_bare_name {ts rest rest' : List Token} {name : Token} (hs : skipTrivia ts = name :: rest)
    (hn : (name.kind == .identifier) = true)
    (hr : (if nextIs (·.isOp ['(']) rest then skipParenthesized 0 rest else rest) = rest') :
    skipLexerCommands (ts.map Token.bare) =
      match (skipTrivia rest').map Token.bare with
      | [] => []
      | u :: more => if u.isOp [','] then skipLexerCommands more else u :: more := by
  have hbare : skipTrivia (ts.map Token.bare) = name.bare :: rest.map Token.bare := by
    rw [skipTrivia_map_bare, hs, List.map_cons]
  have hcons := skipLexerCommands_cons hbare (by simpa using hn)
  rw [arguments_map_bare, hr, skipTrivia_map_bare] at hcons
  exact hcons

theorem skipLexerCommands_map_bare (ts : List Token) :
    skipLexerCommands (ts.map Token.bare) = (skipLexerCommands ts).map Token.bare := by
  fun_induction skipLexerCommands ts with
  | case1 ts hs =>
    have hnil : skipTrivia (ts.map Token.bare) = [] := by rw [skipTrivia_map_bare, hs, List.map_nil]
    unfold skipLexerCommands
    split
    · rfl
    · rename_i h
      rw [hnil] at h
      cases h
  | case2 ts t rest hs hn rest' hs' =>
    have hname := skipLexerCommands_map_bare_name hs hn (show _ = rest' from rfl)
    rwa [hs'] at hname
  | case3 ts t rest hs hn rest' u more hs' hu ih =>
    have hname := skipLexerCommands_map_bare_name hs hn (show _ = rest' from rfl)
    rw [hs'] at hname
    exact hname.trans ((if_pos hu).trans ih)
  | case4 ts t rest hs hn rest' u more hs' hu =>
    have hname := skipLexerCommands_map_bare_name hs hn (show _ = rest' from rfl)
    rw [hs'] at hname
    exact hname.trans (if_neg hu)
  | case5 ts t rest hs hn =>
    have hbare : skipTrivia (ts.map Token.bare) = t.bare :: rest.map Token.bare := by
      rw [skipTrivia_map_bare, hs, List.map_cons]
    rw [skipLexerCommands_of_not_word hbare hn, List.map_cons]

end Spans

/-! ### Rules -/

section Rules

variable {phrase : Bool} {last last' : Option Token}

theorem afterDropped?_map_bare (hl : last'.any (·.kind == .identifier) = last.any (·.kind == .identifier)) (t : Token)
    (ts : List Token) :
    afterDropped? phrase last' t.bare (ts.map Token.bare) = (afterDropped? phrase last t ts).map (List.map Token.bare) := by
  simp only [afterDropped?, Token.kind_bare, Token.isOp_bare, skipLexerCommands_map_bare, skipElementOptions_map_bare,
    dropNext_map_bare, dropNextIf_map_bare (p := fun t => t.kind == .identifier) fun _ => rfl,
    nextIs_map_bare (p := isLabelSign) fun _ => rfl, hl]
  cases ts with
  | nil =>
    rw [List.map_nil]
    dsimp only
    repeat' split
    all_goals rfl
  | cons u us =>
    rw [List.map_cons]
    dsimp only
    rw [Token.isOp_bare]
    repeat' split
    all_goals rfl

theorem readKept_map_bare (depth : Nat) (last : Option Token) (ts : List Token) (last' : Option Token)
    (hl : last'.any (·.kind == .identifier) = last.any (·.kind == .identifier)) :
    readKept phrase depth last' (ts.map Token.bare) =
      ((readKept phrase depth last ts).1.map Token.bare, (readKept phrase depth last ts).2.map Token.bare) := by
  revert last' hl
  fun_induction readKept phrase depth last ts with
  | case1 =>
    intro last' hl
    rw [List.map_nil, readKept]
  | case2 depth last t ts rest hd ih =>
    intro last' hl
    have hd' := @afterDropped?_map_bare phrase last last' hl t ts
    rw [hd] at hd'
    rw [List.map_cons, readKept_dropped hd', ih last' hl]
  | case3 depth last t ts hd hs =>
    intro last' hl
    have hd' := @afterDropped?_map_bare phrase last last' hl t ts
    rw [hd] at hd'
    rw [List.map_cons, readKept_of_none hd', Token.isOp_bare, if_pos hs]
    rfl
  | case4 depth last t ts hd hs r ih =>
    intro last' hl
    have hd' := @afterDropped?_map_bare phrase last last' hl t ts
    have hdepth : depthAfter depth t.bare = depthAfter depth t := rfl
    rw [hd] at hd'
    rw [List.map_cons, readKept_of_none hd', Token.isOp_bare, if_neg hs, hdepth, ih (some t.bare) rfl]
    rfl

theorem trimBody_map_bare (ts : List Token) : trimBody (ts.map Token.bare) = (trimBody ts).map Token.bare := by
  rw [trimBody, trimBody, ← List.map_reverse, List.dropWhile_map, List.map_reverse]
  rfl

theorem readBody_map_bare (phrase : Bool) (ts : List Token) :
    readBody phrase (ts.map Token.bare) = ((readBody phrase ts).1.map Token.bare, (readBody phrase ts).2.map Token.bare) := by
  simp only [readBody, readKept_map_bare 0 none ts none rfl, trimBody_map_bare]

theorem skipModifiers_map_bare (fragment : Bool) (ts : List Token) :
    skipModifiers fragment (ts.map Token.bare) =
      ((skipModifiers fragment ts).1, (skipModifiers fragment ts).2.map Token.bare) := by
  fun_induction skipModifiers fragment ts with
  | case1 => rfl
  | case2 fragment t ts ht ih => rw [List.map_cons, skipModifiers, Token.isTrivia_bare, if_pos ht, ih]
  | case3 fragment t ts ht hm ih =>
    rw [List.map_cons, skipModifiers, Token.isTrivia_bare, isWord_bare, isWord_bare, if_neg ht, if_pos hm, ih]
  | case4 fragment t ts ht hm => rw [List.map_cons, skipModifiers, Token.isTrivia_bare, isWord_bare, if_neg ht, if_neg hm]

theorem afterPrequelItem?_map_bare (t : Token) (ts : List Token) :
    afterPrequelItem? t.bare (ts.map Token.bare) = (afterPrequelItem? t ts).map (List.map Token.bare) := by
  have haction : skipNamedAction (t.bare :: ts.map Token.bare) = (skipNamedAction (t :: ts)).map Token.bare :=
    skipNamedAction_map_bare (t :: ts)
  rw [afterPrequelItem?, afterPrequelItem?, Token.kind_bare, Token.isOp_bare, isWord_bare, isWord_bare, isWord_bare,
    nextIs_map_bare fun _ => rfl, dropNextIf_map_bare fun _ => rfl, dropNextWhile_map_bare fun _ => rfl, dropNext_map_bare,
    haction]
  repeat' split
  all_goals rfl

/-- The end of the part in front of a body, with tokens at no place in particular. -/
def PrequelEnd.bare : PrequelEnd → PrequelEnd
  | colon rest => colon (rest.map Token.bare)
  | endOfFile => endOfFile
  | stuck rest => stuck (rest.map Token.bare)

theorem skipPrequel_map_bare (ts : List Token) : skipPrequel (ts.map Token.bare) = (skipPrequel ts).bare := by
  fun_induction skipPrequel ts with
  | case1 ts hs => rw [skipPrequel_eq, skipTrivia_map_bare, hs]; rfl
  | case2 ts t rest hs hc =>
    rw [skipPrequel_eq, skipTrivia_map_bare, hs]
    exact if_pos hc
  | case3 ts t rest hs hc rest' hi ih =>
    rw [skipPrequel_eq, skipTrivia_map_bare, hs, List.map_cons]
    dsimp only
    rw [Token.isOp_bare, if_neg hc, afterPrequelItem?_map_bare, hi]
    exact ih
  | case4 ts t rest hs hc hi =>
    rw [skipPrequel_eq, skipTrivia_map_bare, hs, List.map_cons]
    dsimp only
    rw [Token.isOp_bare, if_neg hc, afterPrequelItem?_map_bare, hi]
    rfl

theorem readRule_map_bare (ts : List Token) :
    readRule (ts.map Token.bare) = ((readRule ts).1.bare, (readRule ts).2.map Token.bare) := by
  rw [readRule, readRule, skipModifiers_map_bare]
  generalize skipModifiers false ts = m
  obtain ⟨fragment, ms⟩ := m
  cases ms with
  | nil => rfl
  | cons name rest =>
    rw [List.map_cons]
    dsimp only
    rw [Token.kind_bare, skipPrequel_map_bare]
    split
    · rfl
    cases skipPrequel rest with
    | endOfFile => rfl
    | stuck left => rfl
    | colon left =>
      dsimp only [PrequelEnd.bare]
      rw [Token.text_bare, readBody_map_bare]
      rfl

end Rules

/-! ### Statements -/

section Statements

theorem readStatementFrom_map_bare (t : Token) (ts : List Token) :
    readStatementFrom t.bare (ts.map Token.bare) =
      ((readStatementFrom t ts).1.bare, (readStatementFrom t ts).2.map Token.bare) := by
  have hrule : readRule (t.bare :: ts.map Token.bare) = ((readRule (t :: ts)).1.bare, (readRule (t :: ts)).2.map Token.bare) :=
    readRule_map_bare (t :: ts)
  have haction : skipNamedAction (t.bare :: ts.map Token.bare) = (skipNamedAction (t :: ts)).map Token.bare :=
    skipNamedAction_map_bare (t :: ts)
  simp only [readStatementFrom, Token.isOp_bare, Token.kind_bare, isWord_bare, hrule, haction,
    skipThroughSemicolon_map_bare, dropNext_map_bare, dropNextIf_map_bare (p := (·.isOp [';'])) fun _ => rfl,
    nextIs_map_bare (p := fun u => u.text == "grammar".toList) fun _ => rfl,
    nextIs_map_bare (p := (·.isOp [':'])) fun _ => rfl, nextIs_map_bare (p := fun t => t.kind == .action) fun _ => rfl]
  -- the ladder is split branch by branch: the branch of a header has a choice of its own
  split
  · rfl
  split
  · rfl
  split
  · rfl
  split
  · rfl
  split <;> rfl

/-- Statements are read alike wherever their tokens stand. -/
theorem bare_readStatements (ts : List Token) :
    (readStatements ts).map Statement.bare = readStatements (ts.map Token.bare) := by
  fun_induction readStatements ts with
  | case1 ts hs =>
    unfold readStatement? at hs
    split at hs
    · rename_i hnil
      rw [readStatements_eq (ts.map Token.bare), skipTrivia_map_bare, hnil]
      rfl
    · cases hs
  | case2 ts s rest hs ih =>
    unfold readStatement? at hs
    split at hs
    · cases hs
    · rename_i t us hcons
      rw [readStatements_eq (ts.map Token.bare), skipTrivia_map_bare, hcons]
      have hfrom := readStatementFrom_map_bare t us
      rw [Option.some.inj hs] at hfrom
      simp only [List.map_cons, hfrom, ih]

theorem rule?_bare (s : Statement) : s.bare.rule? = s.rule?.map AntlrRule.bare := by
  cases s <;> rfl

/-- The rules of a grammar, but for their places, are read from the tokens of its text without theirs. -/
theorem bare_rules_readGrammar (source : GrammarSource) :
    (readGrammar source).rules.map AntlrRule.bare = (readStatements (lexemes .antlr source.text)).filterMap Statement.rule? := by
  rw [lexemes, ← bare_readStatements, List.filterMap_map, ConvertedGrammar.rules, List.map_filterMap]
  exact List.filterMap_congr fun s _ => (rule?_bare s).symm

end Statements

end GrammarText.Antlr
