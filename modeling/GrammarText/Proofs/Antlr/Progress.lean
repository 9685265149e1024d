import GrammarText.Antlr.Reader
import GrammarText.Proofs.Antlr.Gist
import GrammarText.Proofs.Antlr.Rest
import Mathlib.Data.List.Chain

/-!
# Reading makes progress

Reading a statement passes over at least one token, never goes back on the way and never past the last token
(`descends_statement`). The way is made of the places where the calls that read a statement leave the reader,
one list of places for each function (`statementStops`); between two of them tokens are passed one at a time. Each
list leads from what the function is given to what it leaves (`Descends`). So reading a grammar comes to an end, with
no significant token left (`reads_readAll`), after at most one statement for each significant token
(`length_readStatements_le`).
-/

namespace GrammarText.Antlr

/-! ### Ways through the tokens -/

/-- Going from the tokens `ts` to the tokens `rest` by way of the places in the list, each of which leaves an end of
what the one before left. -/
inductive Descends : List Token → List (List Token) → List Token → Prop where
  | done (ts : List Token) : Descends ts [] ts
  | stop {ts us rest : List Token} {stops : List (List Token)} (h : us <:+ ts) (more : Descends us stops rest) :
      Descends ts (us :: stops) rest

section Descends

variable {ts us rest : List Token} {stops stops' : List (List Token)}

theorem Descends.trans (h : Descends ts stops us) (h' : Descends us stops' rest) : Descends ts (stops ++ stops') rest := by
  induction h with
  | done => exact h'
  | stop hs _ ih => exact .stop hs (ih h')

theorem Descends.one (h : us <:+ ts) : Descends ts [us] us :=
  .stop h (.done us)

/-- What is left at the end is left at every place on the way. -/
theorem Descends.suffix_of_mem (h : Descends ts stops rest) : ∀ us ∈ ts :: stops, rest <:+ us := by
  induction h with
  | done => simp
  | stop hs _ ih =>
    intro vs hvs
    rcases List.mem_cons.1 hvs with rfl | hvs
    · exact (ih _ List.mem_cons_self).trans hs
    · exact ih vs hvs

end Descends

/-! ### The places where each function stops -/

section Stops

variable {phrase : Bool} {depth : Nat} {last : Option Token} {t : Token} {ts rest : List Token}

/-- Past the next significant token if it passes the test. -/
def nextIfStops (p : Token → Bool) (ts : List Token) : List (List Token) :=
  [skipTrivia ts, dropNextIf p ts]

/-- Past the next significant token. -/
def nextStops (ts : List Token) : List (List Token) :=
  [skipTrivia ts, dropNext ts]

/-- Past the sign of a named action, the words of its name and its block. -/
def namedActionStops (ts : List Token) : List (List Token) :=
  let us := dropNext ts
  let vs := dropNextWhile (fun t => t.kind == .identifier || t.isOp [':', ':']) us
  nextStops ts ++ vs :: nextIfStops (·.kind == .action) vs

/-- What follows the arguments of a lexer command, if it has any. -/
def pastArguments (ts : List Token) : List Token :=
  if nextIs (·.isOp ['(']) ts then skipParenthesized 0 ts else ts

theorem pastArguments_suffix (ts : List Token) : pastArguments ts <:+ ts := by
  unfold pastArguments
  split
  · exact skipParenthesized_suffix 0 ts
  · exact List.suffix_rfl

theorem length_lt_of_command {more : List Token} {u : Token} (hs : skipTrivia ts = t :: rest)
    (hs' : skipTrivia (pastArguments rest) = u :: more) : more.length < ts.length := by
  have h1 := (hs ▸ skipTrivia_suffix ts : t :: rest <:+ ts).length_le
  have h2 := (pastArguments_suffix rest).length_le
  have h3 := (hs' ▸ skipTrivia_suffix (pastArguments rest) : u :: more <:+ _).length_le
  rw [List.length_cons] at h1 h3
  omega

/-- Past each name of a lexer command, its arguments and the comma behind it. -/
def commandStops (ts : List Token) : List (List Token) :=
  match _hs : skipTrivia ts with
  | [] => [[]]
  | t :: rest =>
    if t.kind == .identifier then
      match _hs' : skipTrivia (pastArguments rest) with
      | [] => [t :: rest, rest, pastArguments rest, []]
      | u :: more =>
        if u.isOp [','] then [t :: rest, rest, pastArguments rest, u :: more, more] ++ commandStops more
        else [t :: rest, rest, pastArguments rest, u :: more]
    else [t :: rest]
termination_by ts.length
decreasing_by exact length_lt_of_command _hs _hs'

/-- Past what a body drops from the token `t` on, which stands before `ts`. -/
def droppedStops (t : Token) (ts : List Token) : List (List Token) :=
  ts ::
    if t.kind == .comment then []
    else if t.kind == .action then
      match ts with
      | u :: rest => if u.isOp ['?'] then [rest] else []
      | [] => []
    else if t.isOp ['-', '>'] then commandStops ts
    else if t.isOp ['#'] then nextIfStops (·.kind == .identifier) ts
    else if t.isOp ['<'] then [skipElementOptions ts]
    else if t.kind == .identifier && nextIs isLabelSign ts then nextStops ts
    else []

/-- Past each token of a body that is kept, and past each span that is dropped. -/
def bodyStops (phrase : Bool) (depth : Nat) (last : Option Token) : List Token → List (List Token)
  | [] => []
  | t :: ts =>
    match _h : afterDropped? phrase last t ts with
    | some rest => droppedStops t ts ++ bodyStops phrase depth last rest
    | none =>
      ts :: if t.isOp [';'] ∧ depth = 0 then [] else bodyStops phrase (depthAfter depth t) (some t) ts
termination_by ts => ts.length
decreasing_by
  · have := length_le_of_afterDropped? _h
    simp only [List.length_cons]; omega
  · simp

/-- Past each modifier of a rule, and before its name. -/
def modifierStops : List Token → List (List Token)
  | [] => []
  | t :: ts =>
    if t.isTrivia then ts :: modifierStops ts
    else if isWord modifiers t then ts :: modifierStops ts
    else []

/-- Past an item in front of the colon that begins with the token `t`, which stands before `ts`. -/
def prequelItemStops (t : Token) (ts : List Token) : List (List Token) :=
  if t.kind == .charClass then [ts]
  else if isWord ["returns", "locals"] t then ts :: nextIfStops (·.kind == .charClass) ts
  else if isWord ["throws"] t then
    [ts, dropNextWhile (fun u => u.kind == .identifier || u.isOp [','] || u.isOp ['.']) ts]
  else if isWord ["options"] t && nextIs (·.kind == .action) ts then ts :: nextStops ts
  else namedActionStops (t :: ts)

/-- Past each item in front of the colon, and past the colon. -/
def prequelStops (ts : List Token) : List (List Token) :=
  match _hs : skipTrivia ts with
  | [] => [[]]
  | t :: rest =>
    (t :: rest) ::
      if t.isOp [':'] then [rest]
      else
        match _hi : afterPrequelItem? t rest with
        | some rest' => prequelItemStops t rest ++ prequelStops rest'
        | none => []
termination_by ts.length
decreasing_by
  have h1 := length_skipTrivia_le ts
  have h2 := length_le_of_afterPrequelItem? _hi
  rw [_hs, List.length_cons] at h1
  omega

/-- Past the modifiers of a rule, its name, what stands in front of its colon, and its body. -/
def ruleStops (ts : List Token) : List (List Token) :=
  modifierStops ts ++
    match (skipModifiers false ts).2 with
    | [] => []
    | name :: rest =>
      rest ::
        if name.kind != .identifier then []
        else
          prequelStops rest ++
            match skipPrequel rest with
            | .colon body => bodyStops (!isLexerName name.text) 0 none body
            | _ => []

/-- Past a statement. -/
def statementStops (ts : List Token) : List (List Token) :=
  match skipTrivia ts with
  | [] => [[]]
  | t :: rest =>
    (t :: rest) ::
      if t.isOp ['@'] then namedActionStops (t :: rest)
      else if t.kind != .identifier then [rest]
      else if isWord ["lexer", "parser"] t && nextIs (fun u => u.text == "grammar".toList) rest then
        [rest, skipThroughSemicolon rest]
      else if isWord ["grammar", "import", "mode"] t && !nextIs (·.isOp [':']) rest then
        [rest, skipThroughSemicolon rest]
      else if isWord headerBlocks t && nextIs (·.kind == .action) rest then
        rest :: nextStops rest ++ nextIfStops (·.isOp [';']) (dropNext rest)
      else ruleStops (t :: rest)

/-! Each way leads from what the function is given to what it leaves. -/

theorem descends_next (ts : List Token) : Descends ts (nextStops ts) (dropNext ts) :=
  .stop (skipTrivia_suffix ts) (.one (List.tail_suffix _))

theorem dropNextIf_suffix_skipTrivia (p : Token → Bool) (ts : List Token) : dropNextIf p ts <:+ skipTrivia ts := by
  unfold dropNextIf
  split
  · rename_i t rest hs
    rw [hs]
    split
    · exact List.suffix_cons t rest
    · exact List.suffix_rfl
  · exact List.nil_suffix

theorem descends_nextIf (p : Token → Bool) (ts : List Token) : Descends ts (nextIfStops p ts) (dropNextIf p ts) :=
  .stop (skipTrivia_suffix ts) (.one (dropNextIf_suffix_skipTrivia p ts))

theorem descends_namedAction (ts : List Token) : Descends ts (namedActionStops ts) (skipNamedAction ts) :=
  (descends_next ts).trans (.stop (dropNextWhile_suffix _ _) (descends_nextIf _ _))

/-- Past the name of a lexer command and its arguments. -/
theorem descends_command {stops : List (List Token)} {us : List Token} (hs : skipTrivia ts = t :: rest)
    (h : Descends (pastArguments rest) stops us) :
    Descends ts ((t :: rest) :: rest :: pastArguments rest :: stops) us :=
  .stop (hs ▸ skipTrivia_suffix ts) (.stop (List.suffix_cons t rest) (.stop (pastArguments_suffix rest) h))

theorem descends_commands (ts : List Token) : Descends ts (commandStops ts) (skipLexerCommands ts) := by
  have hcons : ∀ {ts rest : List Token} {t : Token}, skipTrivia ts = t :: rest → (t.kind == .identifier) = true →
      skipLexerCommands ts = match skipTrivia (pastArguments rest) with
        | [] => []
        | u :: more => if u.isOp [','] then skipLexerCommands more else u :: more :=
    fun hs ht => skipLexerCommands_cons hs (by simpa using ht)
  fun_induction commandStops ts with
  | case1 ts hs =>
    have hnil : skipLexerCommands ts = [] := by
      rw [skipLexerCommands]
      split
      · rfl
      · rename_i h
        rw [hs] at h
        cases h
    rw [hnil]
    exact .one List.nil_suffix
  | case2 ts t rest hs ht hs' =>
    rw [hcons hs ht, hs']
    exact descends_command hs (.one List.nil_suffix)
  | case3 ts t rest hs ht u more hs' hu ih =>
    rw [hcons hs ht, hs']
    dsimp only
    rw [if_pos hu]
    have hcomma : u :: more <:+ pastArguments rest := hs' ▸ skipTrivia_suffix _
    exact descends_command hs (.stop hcomma (.stop (List.suffix_cons u more) ih))
  | case4 ts t rest hs ht u more hs' hu =>
    rw [hcons hs ht, hs']
    dsimp only
    rw [if_neg hu]
    exact descends_command hs (.one (hs' ▸ skipTrivia_suffix _))
  | case5 ts t rest hs ht =>
    rw [skipLexerCommands_of_not_word hs ht]
    exact .one (hs ▸ skipTrivia_suffix ts)

theorem descends_dropped (phrase : Bool) (last : Option Token) (t : Token) (ts : List Token) :
    ∀ rest ∈ afterDropped? phrase last t ts, Descends (t :: ts) (droppedStops t ts) rest := by
  unfold afterDropped? droppedStops
  split
  · rintro rest ⟨⟩
    exact .one (List.suffix_cons t ts)
  split
  · cases ts with
    | nil =>
      rintro rest ⟨⟩
      exact .one (List.suffix_cons t [])
    | cons u us =>
      rintro rest ⟨⟩
      refine .stop (List.suffix_cons t (u :: us)) ?_
      dsimp only
      split
      · exact .one (List.suffix_cons u us)
      · exact .done _
  split
  · rintro rest ⟨⟩
    exact .stop (List.suffix_cons t ts) (descends_commands ts)
  split
  · rintro rest ⟨⟩
    exact .stop (List.suffix_cons t ts) (descends_nextIf _ ts)
  split
  · rintro rest ⟨⟩
    exact .stop (List.suffix_cons t ts) (.one (skipElementOptions_suffix ts))
  split
  · rintro rest ⟨⟩
    exact .stop (List.suffix_cons t ts) (descends_next ts)
  split
  · rintro rest ⟨⟩
    exact .one (List.suffix_cons t ts)
  · rintro rest ⟨⟩

theorem bodyStops_dropped (h : afterDropped? phrase last t ts = some rest) :
    bodyStops phrase depth last (t :: ts) = droppedStops t ts ++ bodyStops phrase depth last rest := by
  rw [bodyStops]
  split
  · rename_i hr
    rw [hr] at h
    cases h
    rfl
  · rename_i hr
    rw [hr] at h
    cases h

theorem bodyStops_kept (h : afterDropped? phrase last t ts = none) :
    bodyStops phrase depth last (t :: ts) =
      ts :: if t.isOp [';'] ∧ depth = 0 then [] else bodyStops phrase (depthAfter depth t) (some t) ts := by
  rw [bodyStops]
  split
  · rename_i hr
    rw [hr] at h
    cases h
  · rfl

theorem descends_body (phrase : Bool) (depth : Nat) (last : Option Token) (ts : List Token) :
    Descends ts (bodyStops phrase depth last ts) (readKept phrase depth last ts).2 := by
  fun_induction readKept phrase depth last ts with
  | case1 =>
    rw [bodyStops]
    exact .done _
  | case2 depth last t ts rest hd ih =>
    rw [bodyStops_dropped hd]
    exact (descends_dropped phrase last t ts rest hd).trans ih
  | case3 depth last t ts hd hs =>
    rw [bodyStops_kept hd, if_pos hs]
    exact .one (List.suffix_cons t ts)
  | case4 depth last t ts hd hs r ih =>
    rw [bodyStops_kept hd, if_neg hs]
    exact .stop (List.suffix_cons t ts) ih

theorem descends_modifiers (fragment : Bool) (ts : List Token) :
    Descends ts (modifierStops ts) (skipModifiers fragment ts).2 := by
  fun_induction skipModifiers fragment ts with
  | case1 => exact .done _
  | case2 fragment t ts ht ih =>
    rw [modifierStops, if_pos ht]
    exact .stop (List.suffix_cons t ts) ih
  | case3 fragment t ts ht hm ih =>
    rw [modifierStops, if_neg ht, if_pos hm]
    exact .stop (List.suffix_cons t ts) ih
  | case4 fragment t ts ht hm =>
    rw [modifierStops, if_neg ht, if_neg hm]
    exact .done _

theorem descends_prequelItem (t : Token) (ts : List Token) :
    ∀ rest ∈ afterPrequelItem? t ts, Descends (t :: ts) (prequelItemStops t ts) rest := by
  have hcons := List.suffix_cons t ts
  unfold afterPrequelItem? prequelItemStops
  split
  · rintro rest ⟨⟩
    exact .one hcons
  split
  · rintro rest ⟨⟩
    exact .stop hcons (descends_nextIf _ ts)
  split
  · rintro rest ⟨⟩
    exact .stop hcons (.one (dropNextWhile_suffix _ ts))
  split
  · rintro rest ⟨⟩
    exact .stop hcons (descends_next ts)
  split
  · rintro rest ⟨⟩
    exact descends_namedAction (t :: ts)
  · rintro rest ⟨⟩

theorem prequelStops_eq (ts : List Token) :
    prequelStops ts =
      match skipTrivia ts with
      | [] => [[]]
      | t :: rest =>
        (t :: rest) ::
          if t.isOp [':'] then [rest]
          else
            match afterPrequelItem? t rest with
            | some rest' => prequelItemStops t rest ++ prequelStops rest'
            | none => [] := by
  rw [prequelStops]
  split
  · rename_i h
    rw [h]
  · rename_i t rest h
    rw [h]
    dsimp only
    split
    · rfl
    · split
      · rename_i hi
        rw [hi]
      · rename_i hi
        rw [hi]

theorem descends_prequel (ts : List Token) : Descends ts (prequelStops ts) (skipPrequel ts).rest := by
  fun_induction skipPrequel ts with
  | case1 ts hs =>
    rw [prequelStops_eq, hs]
    exact .one List.nil_suffix
  | case2 ts t rest hs hc =>
    rw [prequelStops_eq, hs]
    dsimp only
    rw [if_pos hc]
    exact .stop (hs ▸ skipTrivia_suffix ts) (.one (List.suffix_cons t rest))
  | case3 ts t rest hs hc rest' hi ih =>
    rw [prequelStops_eq, hs]
    dsimp only
    rw [if_neg hc, hi]
    exact .stop (hs ▸ skipTrivia_suffix ts) ((descends_prequelItem t rest rest' hi).trans ih)
  | case4 ts t rest hs hc hi =>
    rw [prequelStops_eq, hs]
    dsimp only
    rw [if_neg hc, hi]
    exact .one (hs ▸ skipTrivia_suffix ts)

theorem descends_rule (ts : List Token) : Descends ts (ruleStops ts) (readRule ts).2 := by
  have hm := descends_modifiers false ts
  unfold ruleStops readRule
  generalize skipModifiers false ts = m at hm
  obtain ⟨fragment, ms⟩ := m
  refine hm.trans ?_
  cases ms with
  | nil => exact .done _
  | cons name rest =>
    have hp := descends_prequel rest
    refine .stop (List.suffix_cons name rest) ?_
    dsimp only
    split
    · exact .done _
    · cases hs : skipPrequel rest with
      | endOfFile =>
        rw [hs] at hp
        exact hp.trans (.done _)
      | stuck left =>
        rw [hs] at hp
        exact hp.trans (.done _)
      | colon left =>
        rw [hs] at hp
        exact hp.trans (descends_body _ _ _ left)

theorem descends_statement {s : Statement} (h : readStatement? ts = some (s, rest)) :
    Descends ts (statementStops ts) rest := by
  rw [readStatement?] at h
  rw [statementStops]
  cases hs : skipTrivia ts with
  | nil =>
    rw [hs] at h
    cases h
  | cons t us =>
    rw [hs] at h
    refine .stop (hs ▸ skipTrivia_suffix ts) ?_
    have hcons := List.suffix_cons t us
    have hrest : (readStatementFrom t us).2 = rest := congrArg Prod.snd (Option.some.inj h)
    rw [← hrest, readStatementFrom]
    split
    · exact descends_namedAction (t :: us)
    split
    · exact .one hcons
    split
    · exact .stop hcons (.one (skipThroughSemicolon_suffix us))
    split
    · exact .stop hcons (.one (skipThroughSemicolon_suffix us))
    split
    · exact .stop hcons ((descends_next us).trans (descends_nextIf _ _))
    · exact descends_rule (t :: us)

end Stops

/-! ### The reader -/

namespace Reader

variable {tokens rest : List Token} {r : Reader}

/-- Whether the reader stands at a place of the tokens. -/
def At (tokens : List Token) (r : Reader) : Prop :=
  r.passed ≤ tokens.length ∧ r.ahead = tokens.drop r.passed

theorem At.moveTo (h : r.At tokens) (hs : rest <:+ r.ahead) : (r.moveTo rest).At tokens := by
  obtain ⟨hle, hahead⟩ := h
  obtain ⟨before, hbefore⟩ := hs
  have hlength : before.length + rest.length = r.ahead.length := by rw [← hbefore, List.length_append]
  have htotal : r.ahead.length = tokens.length - r.passed := by rw [hahead, List.length_drop]
  have hpassed : (r.moveTo rest).passed = r.passed + before.length := by
    show r.passed + (r.ahead.length - rest.length) = _
    omega
  constructor
  · rw [hpassed]
    omega
  · show rest = _
    rw [hpassed, ← List.drop_drop, ← hahead, ← hbefore, List.drop_left]

/-- The numbers of tokens that the reader has passed on the way past a statement, from where it stands on. -/
def way (r : Reader) : List Nat :=
  r.passed :: (statementStops r.ahead).map fun rest => (r.moveTo rest).passed

theorem passed_moveTo_mono {ts us : List Token} (h : us <:+ ts) : (r.moveTo ts).passed ≤ (r.moveTo us).passed := by
  have hle := h.length_le
  show r.passed + (r.ahead.length - ts.length) ≤ r.passed + (r.ahead.length - us.length)
  omega

/-- Going through the tokens the reader never goes back. -/
theorem isChain_of_descends {ts : List Token} {stops : List (List Token)} (h : Descends ts stops rest) :
    ((r.moveTo ts).passed :: stops.map fun us => (r.moveTo us).passed).IsChain (· ≤ ·) ∧
      ((r.moveTo ts).passed :: stops.map fun us => (r.moveTo us).passed).getLast? = some (r.moveTo rest).passed := by
  induction h with
  | done ts => exact ⟨List.isChain_singleton _, rfl⟩
  | stop hs _ ih =>
    rw [List.map_cons, List.isChain_cons_cons, List.getLast?_cons_cons]
    exact ⟨⟨passed_moveTo_mono hs, ih.1⟩, ih.2⟩

/-- The loop that reads a grammar: as long as a significant token comes next, a statement is read. -/
inductive Reads : Reader → List (Option AntlrRule) → Reader → Prop where
  | done {r : Reader} (h : r.current.1 = none) : Reads r [] r.current.2
  | statement {r r' r'' : Reader} {rule? : Option AntlrRule} {rules : List (Option AntlrRule)}
      (h : r.current.1.isSome = true) (hs : r.current.2.readStatement = (.ok rule?, r')) (hr : Reads r' rules r'') :
      Reads r (rule? :: rules) r''

theorem readStatement_of_ahead {s : Statement} (h : readStatement? r.ahead = some (s, rest)) :
    r.readStatement = (.ok s.rule?, { r.moveTo rest with header := s.header? <|> r.header }) := by
  rw [readStatement, h]

theorem readStatement?_skipTrivia (ts : List Token) : readStatement? (Antlr.skipTrivia ts) = readStatement? ts := by
  rw [readStatement?, readStatement?, skipTrivia_skipTrivia]

theorem readStatement?_isSome (ts : List Token) : (readStatement? ts).isSome = (Antlr.skipTrivia ts).head?.isSome := by
  unfold readStatement?
  split
  · rename_i h
    rw [h]
    rfl
  · rename_i h
    rw [h]
    rfl

/-- The last header counts. -/
theorem announcedKind_cons (s : Statement) (ss : List Statement) :
    announcedKind (s :: ss) = (announcedKind ss <|> s.header?) := by
  unfold announcedKind
  cases h : s.header? with
  | none =>
    rw [List.filterMap_cons_none h]
    cases (ss.filterMap Statement.header?).getLast? <;> rfl
  | some kind =>
    rw [List.filterMap_cons_some h, List.getLast?_cons]
    cases (ss.filterMap Statement.header?).getLast? <;> rfl

theorem readStatements_of_some {ts : List Token} {s : Statement} (h : readStatement? ts = some (s, rest)) :
    readStatements ts = s :: readStatements rest := by
  rw [readStatements]
  split
  · rename_i hn
    rw [hn] at h
    cases h
  · rename_i hs
    rw [hs] at h
    cases h
    rfl

theorem readStatements_of_none {ts : List Token} (h : readStatement? ts = none) : readStatements ts = [] := by
  rw [readStatements]
  split
  · rfl
  · rename_i hs
    rw [hs] at h
    cases h

/-- The loop reads what is read at once. -/
theorem reads_readAll (r : Reader) : Reads r ((readStatements r.ahead).map Statement.rule?) r.readAll.2 := by
  induction hn : r.ahead.length using Nat.strongRecOn generalizing r with
  | ind n ih =>
    cases hs : readStatement? r.ahead with
    | none =>
      have hsome := readStatement?_isSome r.ahead
      rw [hs] at hsome
      have hnil : Antlr.skipTrivia r.ahead = [] := by simpa using hsome.symm
      have hdone : r.current.1 = none := by
        show (Antlr.skipTrivia r.ahead).head? = none
        rw [hnil]
        rfl
      have hend : r.readAll.2 = r.current.2 := by
        show { r.moveTo [] with header := announcedKind (readStatements r.ahead) <|> r.header } =
          r.moveTo (Antlr.skipTrivia r.ahead)
        rw [readStatements_of_none hs, hnil]
        rfl
      rw [readStatements_of_none hs, hend]
      exact .done hdone
    | some p =>
      obtain ⟨s, rest⟩ := p
      have hsome := readStatement?_isSome r.ahead
      rw [hs] at hsome
      have hlt := length_lt_of_readStatement? hs
      have hle := length_skipTrivia_le r.ahead
      have hrest : rest.length ≤ (Antlr.skipTrivia r.ahead).length :=
        (length_lt_of_readStatement? ((readStatement?_skipTrivia r.ahead).trans hs)).le
      have hread : r.current.2.readStatement =
          (.ok s.rule?, { r.skipTrivia.moveTo rest with header := s.header? <|> r.header }) :=
        readStatement_of_ahead ((readStatement?_skipTrivia r.ahead).trans hs)
      have hnext := ih rest.length (hn ▸ hlt) { r.skipTrivia.moveTo rest with header := s.header? <|> r.header } rfl
      have hpassed : r.passed + (r.ahead.length - (Antlr.skipTrivia r.ahead).length) +
          ((Antlr.skipTrivia r.ahead).length - rest.length) + (rest.length - 0) = r.passed + (r.ahead.length - 0) := by
        omega
      have hheader : (announcedKind (readStatements rest) <|> (s.header? <|> r.header)) =
          (announcedKind (readStatements r.ahead) <|> r.header) := by
        rw [readStatements_of_some hs, announcedKind_cons]
        cases announcedKind (readStatements rest) <;> rfl
      have hend : (readAll { r.skipTrivia.moveTo rest with header := s.header? <|> r.header }).2 = r.readAll.2 :=
        congrArg₂ (Reader.mk []) hpassed hheader
      rw [readStatements_of_some hs, List.map_cons, ← hend]
      exact .statement hsome.symm hread hnext

end Reader

/-- Every statement takes at least one significant token. -/
theorem length_readStatements_le (ts : List Token) : (readStatements ts).length ≤ (significant ts).length := by
  fun_induction readStatements ts with
  | case1 => exact Nat.zero_le _
  | case2 ts s rest hs ih =>
    unfold readStatement? at hs
    split at hs
    · cases hs
    rename_i t us hcons
    obtain rfl : (readStatementFrom t us).2 = rest := congrArg Prod.snd (Option.some.inj hs)
    have hrest : (readStatementFrom t us).2 <:+ us := by
      rcases List.suffix_cons_iff.1 (readStatementFrom_suffix t us) with heq | hsuffix
      · have hlt := length_readStatementFrom_lt t us
        rw [heq, List.length_cons] at hlt
        omega
      · exact hsuffix
    have hsig : ∀ {vs vs' : List Token}, vs <:+ vs' → (significant vs).length ≤ (significant vs').length :=
      fun h => (h.sublist.filter _).length_le
    have hts := hsig (hcons ▸ skipTrivia_suffix ts : t :: us <:+ ts)
    have ht : significant (t :: us) = t :: significant us :=
      List.filter_cons_of_pos (by simp [not_trivia_of_skipTrivia hcons])
    have hus := hsig hrest
    rw [ht, List.length_cons] at hts
    rw [List.length_cons]
    omega

/-- Reading always makes progress. At every place of the tokens where a significant token is left, a statement is read
without an error, and takes the reader further: on the way it never goes back and never past the last token. So
reading a grammar ends with no significant token left, after at most one statement for each significant token. -/
theorem reading_progress (source : Text) (r : Reader) (hr : r.At (scan .antlr source)) :
    (r.current.1.isSome = true → ∃ rule? r', r.readStatement = (.ok rule?, r') ∧ r'.At (scan .antlr source) ∧
      r.passed < r'.passed ∧ r.way.IsChain (· ≤ ·) ∧ r.way.getLast? = some r'.passed ∧
      ∀ p ∈ r.way, p ≤ (scan .antlr source).length) ∧
    ∃ rules, r.Reads rules r.readAll.2 ∧ r.readAll.1 = rules.filterMap id ∧
      r.readAll.2.At (scan .antlr source) ∧ r.readAll.2.current.1 = none ∧
      rules.length ≤ (significant r.ahead).length := by
  constructor
  · intro hsig
    have hsome : (readStatement? r.ahead).isSome = true := (Reader.readStatement?_isSome r.ahead).trans hsig
    obtain ⟨⟨s, rest⟩, hs⟩ := Option.isSome_iff_exists.1 hsome
    have hway := descends_statement hs
    have hstart : (r.moveTo r.ahead).passed = r.passed := by
      show r.passed + (r.ahead.length - r.ahead.length) = r.passed
      omega
    obtain ⟨hchain, hlast⟩ := Reader.isChain_of_descends (r := r) hway
    rw [hstart] at hchain hlast
    have hat := hr.moveTo (readStatement?_suffix hs)
    have hlt : r.passed < (r.moveTo rest).passed := by
      have hlength := length_lt_of_readStatement? hs
      show r.passed < r.passed + (r.ahead.length - rest.length)
      omega
    refine ⟨s.rule?, _, Reader.readStatement_of_ahead hs, hat, hlt, hchain, hlast, fun p hp => ?_⟩
    have hend : p ≤ (r.moveTo rest).passed := by
      rcases List.mem_cons.1 hp with rfl | hp
      · exact hlt.le
      · obtain ⟨us, hus, rfl⟩ := List.mem_map.1 hp
        exact Reader.passed_moveTo_mono (hway.suffix_of_mem us (List.mem_cons_of_mem _ hus))
    exact hend.trans hat.1
  · refine ⟨_, r.reads_readAll, ?_, hr.moveTo List.nil_suffix, rfl, ?_⟩
    · show (readStatements r.ahead).filterMap Statement.rule? = _
      rw [List.filterMap_map]
      rfl
    · rw [List.length_map]
      exact length_readStatements_le r.ahead

/-- A rule whose lexer command opens a parenthesis that nothing closes. -/
def strayTokens : Text :=
  "a : b -> c(d ; e throws f, \x7b <".toList

/-- A reader in the middle of `strayTokens`. -/
def strayReader : Reader :=
  ⟨(scan .antlr strayTokens).drop 4, 4, none⟩

theorem reading_progress_strayTokens :
    strayReader.current.1.isSome = true ∧
      (∃ rule? r', strayReader.readStatement = (.ok rule?, r') ∧ strayReader.passed < r'.passed) ∧
      strayReader.readAll.2.current.1 = none := by
  have hat : strayReader.At (scan .antlr strayTokens) := ⟨by decide +kernel, rfl⟩
  have hsig : strayReader.current.1.isSome = true := by decide +kernel
  obtain ⟨hstatement, rules, -, -, -, hnone, -⟩ := reading_progress strayTokens strayReader hat
  obtain ⟨rule?, r', hread, -, hlt, -⟩ := hstatement hsig
  exact ⟨hsig, ⟨rule?, r', hread, hlt⟩, hnone⟩

end GrammarText.Antlr
