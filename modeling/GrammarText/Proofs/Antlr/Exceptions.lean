import GrammarText.Proofs.Antlr.Places
import GrammarText.Proofs.Antlr.Recovery
import GrammarText.Proofs.Scan.Composition
import GrammarText.Proofs.Scan.Seam

/-!
# The exceptions of a rule

Between its name and its colon a rule can list the exceptions that it throws. The list is passed over up to the first
token that is no word, point or comma (`ExceptionTokens.skipPrequel_append`), so it also takes the words in that begin
what follows it. Arguments and variables are passed over without their words; but options are not, and the rule in
front of them is lost. In all other cases the rules of a grammar are those of its text without the list
(`rules_exceptionTokens`).
-/

namespace GrammarText.Antlr

/-- Whether the token can stand in a list of exceptions. -/
def isExceptionPart (t : Token) : Bool :=
  t.kind == .identifier || t.isOp [','] || t.isOp ['.']

/-- A list of exceptions: its word, and names with points and commas in between. -/
inductive ExceptionTokens : List Token → Prop where
  | intro {w : Token} {names : List Token} (hw : isWord ["throws"] w = true)
      (hn : ∀ t ∈ names, t.isTrivia = true ∨ isExceptionPart t = true) : ExceptionTokens (w :: names)

/-! ### Where the list ends -/

section Prequel

variable {ps qs us vs rest : List Token} {t colon : Token}

theorem dropNextWhile_of_not {p : Token → Bool} (ht : t.isTrivia = false) (hp : p t = false) (ts : List Token) :
    dropNextWhile p (t :: ts) = t :: ts :=
  @dropNextWhile_append t p [] (by simp) ht hp ts

theorem isExceptionPart_of_kind {k : TokenKind} (h : t.kind = k) (hi : k ≠ .identifier) (ho : k ≠ .operator) :
    isExceptionPart t = false := by
  subst h
  simp [isExceptionPart, hi, isOp_eq_false ho]

theorem isExceptionPart_of_isOp {s : Text} (h : t.isOp s = true) (hc : s ≠ [',']) (hd : s ≠ ['.']) :
    isExceptionPart t = false := by
  simp [isExceptionPart, kind_of_isOp h, isOp_eq_of_isOp h, hc, hd]

theorem isExceptionPart_of_isWord {ws : List String} (h : isWord ws t = true) : isExceptionPart t = true := by
  simp [isExceptionPart, kind_of_isWord h]

/-- A word and the gap behind it are passed over with a list of exceptions. -/
theorem passed_word_gap {ws : List String} (hw : isWord ws t = true) (hg : Trivia us) :
    ∀ u ∈ t :: us, u.isTrivia = true ∨ isExceptionPart u = true := by
  intro u hu
  rcases List.mem_cons.1 hu with rfl | hu
  · exact .inr (isExceptionPart_of_isWord hw)
  · exact .inl (hg u hu)

theorem dropNextWhile_cons_trivia {p : Token → Bool} (ht : t.isTrivia = true) (ts : List Token) :
    dropNextWhile p (t :: ts) = dropNextWhile p ts :=
  List.dropWhile_cons_of_pos (by simp [ht])

theorem skipPrequel_trivia (hg : Trivia us) (vs : List Token) : skipPrequel (us ++ vs) = skipPrequel vs := by
  rw [skipPrequel_eq, skipTrivia_append hg, ← skipPrequel_eq]

theorem nextIs_cons_trivia {p : Token → Bool} (ht : t.isTrivia = true) (ts : List Token) :
    nextIs p (t :: ts) = nextIs p ts := by
  rw [nextIs, next?, skipTrivia_cons_trivia ht]
  rfl

theorem dropNextWhile_append_of_pos {p : Token → Bool} (h : ∀ t ∈ us, t.isTrivia = true ∨ p t = true) (vs : List Token) :
    dropNextWhile p (us ++ vs) = dropNextWhile p vs :=
  List.dropWhile_append_of_pos fun t ht => by simpa using h t ht

/-- A list of exceptions goes on through the words that follow it. -/
theorem ExceptionTokens.skipPrequel_append {cs : List Token} (h : ExceptionTokens cs) (us : List Token) :
    skipPrequel (cs ++ us) = skipPrequel (dropNextWhile isExceptionPart us) := by
  obtain @⟨w, names, hw, hn⟩ := h
  have hd : isWord ["returns", "locals"] w = false := isWord_eq_false hw (by decide)
  have hitem : afterPrequelItem? w (names ++ us) = some (dropNextWhile isExceptionPart (names ++ us)) := by
    simp [afterPrequelItem?, kind_of_isWord hw, hd, hw]
    rfl
  rw [List.cons_append, skipPrequel_item (not_trivia_of_isWord hw) (isOp_eq_false (by simp [kind_of_isWord hw]) _) hitem,
    dropNextWhile_append_of_pos hn]

/-- Behind a list of exceptions everything is passed over up to the colon, unless options come next. -/
theorem skipPrequel_past_words (h : PrequelTokens qs) (ho : nextIs (isWord ["options"]) qs = false)
    (hc : colon.isOp [':'] = true) (rest : List Token) :
    skipPrequel (dropNextWhile isExceptionPart (qs ++ colon :: rest)) = .colon rest := by
  induction h with
  | nil =>
    have hpart : isExceptionPart colon = false := isExceptionPart_of_isOp hc (by decide) (by decide)
    rw [List.nil_append, dropNextWhile_of_not (isTrivia_eq_false_of_isOp hc) hpart, skipPrequel_colon hc]
  | @trivia t ts ht _ ih =>
    rw [List.cons_append, dropNextWhile_cons_trivia ht]
    exact ih ((nextIs_cons_trivia ht ts).symm.trans ho)
  | arguments ht h =>
    have hpart := isExceptionPart_of_kind ht (by decide) (by decide)
    rw [List.cons_append, dropNextWhile_of_not (isTrivia_eq_false_of_kind ht (by decide) (by decide)) hpart]
    exact skipPrequel_append (.arguments ht h) hc rest
  | @declared w vars gap ts hw hg hv h =>
    -- the word is taken for an exception; the class behind it is passed over all the same
    have hpart := isExceptionPart_of_kind hv (by decide) (by decide)
    have happ : w :: (gap ++ vars :: ts) ++ colon :: rest = w :: gap ++ vars :: (ts ++ colon :: rest) := by simp
    rw [happ, dropNextWhile_append (passed_word_gap hw hg) (isTrivia_eq_false_of_kind hv (by decide) (by decide)) hpart]
    exact skipPrequel_append (.arguments hv h) hc rest
  | options hw =>
    rw [nextIs_cons (not_trivia_of_isWord hw), hw] at ho
    cases ho
  | action ha h =>
    have hskip := skipPrequel_append (.action ha h) hc rest
    obtain @⟨sign, a, name, hs, -, -⟩ := ha
    have hpart : isExceptionPart sign = false := isExceptionPart_of_isOp hs (by decide) (by decide)
    rw [List.cons_append, List.cons_append] at hskip ⊢
    rw [dropNextWhile_of_not (isTrivia_eq_false_of_isOp hs) hpart]
    exact hskip

/-- A list of exceptions takes in the word in front of options, and then their block stands where no token can. -/
theorem skipPrequel_past_options (h : PrequelTokens qs) (ho : nextIs (isWord ["options"]) qs = true) (us : List Token) :
    skipPrequel (dropNextWhile isExceptionPart (qs ++ us)) = .stuck (skipTrivia (dropNext (qs ++ us))) := by
  have hother : ∀ {t : Token} {ts : List Token}, t.isTrivia = false → isWord ["options"] t = false →
      nextIs (isWord ["options"]) (t :: ts) = true → False := by
    intro t ts ht hw hn
    rw [nextIs_cons ht, hw] at hn
    cases hn
  induction h with
  | nil => cases ho
  | @trivia t ts ht _ ih =>
    have hdrop : dropNext (t :: (ts ++ us)) = dropNext (ts ++ us) := by
      rw [dropNext, skipTrivia_cons_trivia ht]
      rfl
    rw [List.cons_append, hdrop, dropNextWhile_cons_trivia ht]
    exact ih ((nextIs_cons_trivia ht ts).symm.trans ho)
  | arguments ht =>
    exact (hother (isTrivia_eq_false_of_kind ht (by decide) (by decide)) (by simp [isWord, ht]) ho).elim
  | declared hw => exact (hother (not_trivia_of_isWord hw) (isWord_eq_false hw (by decide)) ho).elim
  | @options w a gap ts hw hg ha =>
    have hat := isTrivia_eq_false_of_kind ha (by decide) (by decide)
    have hstuck : afterPrequelItem? a (ts ++ us) = none := by
      simp [afterPrequelItem?, ha, isWord, isOp_eq_false]
    have hdrop : dropNext (w :: (gap ++ a :: ts) ++ us) = gap ++ a :: (ts ++ us) := by
      rw [List.cons_append, dropNext, skipTrivia_cons (not_trivia_of_isWord hw)]
      simp
    have happ : w :: (gap ++ a :: ts) ++ us = w :: gap ++ a :: (ts ++ us) := by simp
    rw [hdrop, skipTrivia_gap hg hat, happ,
      dropNextWhile_append (passed_word_gap hw hg) hat (isExceptionPart_of_kind ha (by decide) (by decide)),
      skipPrequel_eq, skipTrivia_cons hat]
    dsimp only
    rw [hstuck, if_neg (by simp [isOp_eq_false, ha])]
  | action ha =>
    obtain @⟨sign, a, name, hs, -, -⟩ := ha
    exact (hother (isTrivia_eq_false_of_isOp hs) (by simp [isWord, kind_of_isOp hs]) ho).elim

/-- The last of the tokens is the last of their second part, or of the first if there is no second. -/
theorem last_of_append {as ts : List Token} {p : Token} (h : ps ++ [p] = as ++ ts) :
    (ts = [] ∧ as.getLast? = some p ∧ as.dropLast = ps) ∨ ∃ ts', ts = ts' ++ [p] ∧ ps = as ++ ts' := by
  rcases List.eq_nil_or_concat' ts with rfl | ⟨ts', q, rfl⟩
  · rw [List.append_nil] at h
    rw [← h]
    exact .inl ⟨rfl, List.getLast?_concat, List.dropLast_concat⟩
  · rw [← List.append_assoc] at h
    obtain ⟨rfl, hq⟩ := List.append_inj' h rfl
    obtain rfl := List.singleton_inj.1 hq
    exact .inr ⟨ts', rfl, rfl⟩

/-- What stands last in front of the colon: a gap, a class or a block. -/
theorem PrequelTokens.last {p : Token} (h : PrequelTokens (ps ++ [p])) :
    (p.isTrivia = true ∧ PrequelTokens ps) ∨ p.kind = .charClass ∨ p.kind = .action := by
  generalize hts : ps ++ [p] = ts at h
  induction h generalizing ps with
  | nil => simp at hts
  | @trivia t ts ht h ih =>
    rcases @last_of_append ps [t] ts p hts with ⟨rfl, hlast, rfl⟩ | ⟨ts', rfl, rfl⟩
    · obtain rfl := Option.some.inj hlast
      exact .inl ⟨ht, .nil⟩
    · exact (ih rfl).imp_left fun hp => ⟨hp.1, .trivia ht hp.2⟩
  | @arguments t ts ht h ih =>
    rcases @last_of_append ps [t] ts p hts with ⟨rfl, hlast, -⟩ | ⟨ts', rfl, rfl⟩
    · obtain rfl := Option.some.inj hlast
      exact .inr (.inl ht)
    · exact (ih rfl).imp_left fun hp => ⟨hp.1, .arguments ht hp.2⟩
  | @declared w vars gap ts hw hg hv h ih =>
    rcases @last_of_append ps (w :: gap ++ [vars]) ts p (by simpa using hts) with ⟨rfl, hlast, -⟩ | ⟨ts', rfl, rfl⟩
    · rw [List.getLast?_concat] at hlast
      obtain rfl := Option.some.inj hlast
      exact .inr (.inl hv)
    · refine (ih rfl).imp_left fun hp => ⟨hp.1, ?_⟩
      simpa using PrequelTokens.declared hw hg hv hp.2
  | @options w a gap ts hw hg ha h ih =>
    rcases @last_of_append ps (w :: gap ++ [a]) ts p (by simpa using hts) with ⟨rfl, hlast, -⟩ | ⟨ts', rfl, rfl⟩
    · rw [List.getLast?_concat] at hlast
      obtain rfl := Option.some.inj hlast
      exact .inr (.inr ha)
    · refine (ih rfl).imp_left fun hp => ⟨hp.1, ?_⟩
      simpa using PrequelTokens.options hw hg ha hp.2
  | @action as ts ha h ih =>
    rcases last_of_append hts with ⟨rfl, hlast, -⟩ | ⟨ts', rfl, rfl⟩
    · obtain @⟨sign, a, name, hs, hn, hk⟩ := ha
      rw [← List.cons_append, List.getLast?_concat] at hlast
      obtain rfl := Option.some.inj hlast
      exact .inr (.inr hk)
    · exact (ih rfl).imp_left fun hp => ⟨hp.1, .action ha hp.2⟩

end Prequel

/-! ### Texts with and without the list -/

section Cut

variable {gap ms ps qs us rest : List Token} {name colon p : Token} {fragment : Bool}

/-- What a rule is depends on what stands behind its name only through the way to its colon. -/
theorem readStatements_name (hg : Trivia gap) (hm : ModifierTokens ms fragment) (hn : name.kind = .identifier)
    (hk : isWord keywords name = false) (us : List Token) :
    readStatements (gap ++ (ms ++ name :: us)) =
      match skipPrequel us with
      | .endOfFile => .skipped :: readStatements []
      | .stuck rest => .abandoned name.text name.start.line :: readStatements rest
      | .colon rest =>
        .rule ⟨name.text, (readBody (!isLexerName name.text) rest).1, fragment, name.start.line⟩ ::
          readStatements (readBody (!isLexerName name.text) rest).2 := by
  have hnt := isTrivia_eq_false_of_kind hn (by decide) (by decide)
  obtain ⟨t, vs, heq, ht, hread⟩ := @readStatementFrom_modifiers ms us name fragment hm hn hk
  have hmods := @skipModifiers_append ms us name fragment hm hnt (isWord_mono hk (by decide)) false
  rw [readStatements_eq, skipTrivia_append hg, heq, skipTrivia_cons (isTrivia_eq_false_of_kind ht (by decide) (by decide))]
  dsimp only
  rw [hread, readRule, hmods, Bool.false_or]
  dsimp only
  rw [if_neg (by simp [hn])]
  cases skipPrequel us <;> rfl

theorem isWord_of_isWord {ws : List String} {t : Token} (h : isWord ws t = true)
    (hw : ∀ w ∈ ws, w.toList.head?.any isNameStart = true ∧ w.toList.all isNamePart = true) : t.isWord = true := by
  have hk := kind_of_isWord h
  rw [isWord, Bool.and_eq_true, List.any_eq_true] at h
  obtain ⟨-, w, hmem, htext⟩ := h
  obtain ⟨hstart, hpart⟩ := hw w hmem
  rw [Token.isWord, hk, beq_iff_eq.1 htext, hstart, hpart]
  rfl

theorem ExceptionTokens.head {cs : List Token} (h : ExceptionTokens cs) :
    ∃ w names, cs = w :: names ∧ w.isWord = true ∧ w.text = "throws".toList := by
  obtain @⟨w, names, hw, -⟩ := h
  refine ⟨w, names, rfl, isWord_of_isWord hw (by decide), ?_⟩
  simpa [isWord, kind_of_isWord hw] using hw

/-- What stands in front of a list of exceptions, unless it is whitespace, ends there whatever follows. -/
theorem apart_of_exceptions {source r : Text} {cs : List Token} (hscan : lexemes .antlr source = p :: (cs ++ us))
    (hp : PrequelTokens (ps ++ [p])) (hc : ExceptionTokens cs) (hw : p.kind ≠ .whitespace) :
    Apart .antlr p.kind p.text r := by
  obtain ⟨w, names, rfl, -, htext⟩ := hc.head
  obtain ⟨-, hapart⟩ := lexeme_of_lexemes_append hscan (by simp)
  rcases hp.last with ⟨htrivia, -⟩ | hk | hk
  · -- a line comment would go on through the list
    have hk : p.kind = .comment := by simpa [Token.isTrivia, hw] using htrivia
    rw [hk] at hapart ⊢
    intro hline
    exact absurd (hapart hline 't' (by simp [spelling, htext])) (by decide)
  · rw [hk]
    trivial
  · rw [hk]
    trivial

/-- Without a list of exceptions a text has the same tokens, but for the gaps that meet where the list was. -/
theorem lexemes_without_exceptions {source : Text} {cs : List Token}
    (hscan : lexemes .antlr source = gap ++ (ms ++ name :: (ps ++ (cs ++ us)))) (hn : name.isWord = true)
    (hp : PrequelTokens ps) (hc : ExceptionTokens cs) :
    ∃ vs, lexemes .antlr (spelling (gap ++ (ms ++ name :: (ps ++ us)))) = gap ++ (ms ++ name :: vs) ∧
      skipPrequel vs = skipPrequel us := by
  obtain ⟨w, names, hcs, hword, -⟩ := hc.head
  have hne : cs ++ us ≠ [] := by simp [hcs]
  rcases List.eq_nil_or_concat' ps with rfl | ⟨ps, p, rfl⟩
  · -- the name and the word of the list do not touch
    obtain ⟨_, -, hname⟩ := @lexemes_eq_append _ _ (gap ++ ms) (name :: w :: (names ++ us)) (by simpa [hcs] using hscan)
    exact absurd ⟨hn, hword⟩ (not_mergeable_of_lexemes hname.symm).2
  · have hcut : lexemes .antlr source = (gap ++ (ms ++ name :: ps)) ++ p :: (cs ++ us) := by simpa using hscan
    by_cases hw : p.kind = .whitespace
    · obtain ⟨-, hps⟩ := hp.last.resolve_right (by simp [hw])
      obtain ⟨ws, ws', vs, hws, hws', hgap, rfl⟩ := lexemes_erased_whitespace hcut hne hw
      have htrivia : ∀ {ws : List Token}, (∀ t ∈ ws, t.kind = .whitespace) → Trivia ws :=
        fun h t ht => by simp [Token.isTrivia, h t ht]
      refine ⟨ps ++ (ws ++ vs), by simpa using hgap, ?_⟩
      rw [hps.skipPrequel_append, skipPrequel_trivia (htrivia hws), skipPrequel_trivia (htrivia hws')]
    · obtain ⟨_, -, hlast⟩ := lexemes_eq_append hcut
      have hapart := apart_of_exceptions (r := spelling us) hlast.symm hp hc hw
      refine ⟨ps ++ [p] ++ us, ?_, hp.skipPrequel_append us⟩
      simpa using lexemes_erased hcut hne hapart

/-- The rules of a text that begins with a rule that lists exceptions. Unless options follow the list, they are the
rules of the text without it. If options do, the rule is lost: the rules are those of what stands behind the
word that the options begin with. -/
theorem rules_exceptionTokens {source : GrammarSource} {cs : List Token}
    (hscan : lexemes .antlr source.text = gap ++ (ms ++ name :: (ps ++ (cs ++ (qs ++ colon :: rest)))))
    (hg : Trivia gap) (hm : ModifierTokens ms fragment) (hn : name.isWord = true) (hk : isWord keywords name = false)
    (hp : PrequelTokens ps) (hc : ExceptionTokens cs) (hq : PrequelTokens qs) (hcolon : colon.isOp [':'] = true) :
    (nextIs (isWord ["options"]) qs = false →
      (readGrammar source).rules.map AntlrRule.bare =
        (readGrammar ⟨source.path, spelling (gap ++ (ms ++ name :: (ps ++ (qs ++ colon :: rest))))⟩).rules.map
          AntlrRule.bare) ∧
      (nextIs (isWord ["options"]) qs = true →
        (readGrammar source).rules.map AntlrRule.bare =
          (readGrammar ⟨source.path, spelling (dropNext (qs ++ colon :: rest))⟩).rules.map AntlrRule.bare) := by
  have hid : name.kind = .identifier := by
    simp only [Token.isWord, Bool.and_eq_true, beq_iff_eq] at hn
    exact hn.1.1
  have hrest := hc.skipPrequel_append (qs ++ colon :: rest)
  rw [bare_rules_readGrammar, bare_rules_readGrammar, bare_rules_readGrammar, hscan,
    readStatements_name hg hm hid hk, hp.skipPrequel_append, hrest]
  constructor
  · intro ho
    obtain ⟨vs, hvs, hskip⟩ := lexemes_without_exceptions hscan hn hp hc
    rw [hvs, readStatements_name hg hm hid hk, hskip, skipPrequel_append hq hcolon, skipPrequel_past_words hq ho hcolon]
  · intro ho
    obtain ⟨before, hbefore⟩ := dropNext_suffix (qs ++ colon :: rest)
    have hsuffix : lexemes .antlr source.text =
        gap ++ (ms ++ name :: (ps ++ (cs ++ before))) ++ dropNext (qs ++ colon :: rest) := by
      rw [hscan]
      nth_rewrite 1 [← hbefore]
      simp
    obtain ⟨r, -, hr⟩ := lexemes_eq_append hsuffix
    have hagain : lexemes .antlr (spelling (dropNext (qs ++ colon :: rest))) = dropNext (qs ++ colon :: rest) := by
      rw [hr, spelling_lexemes]
    rw [hagain, skipPrequel_past_options hq ho]
    refine (List.filterMap_cons_none rfl).trans ?_
    rw [readStatements_congr (skipTrivia_skipTrivia _)]

end Cut

/-- A rule with exceptions between its return value and its local variables. -/
def listedExceptions : GrammarSource :=
  ⟨"a.g4".toList, "a returns [x] throws E.F, G locals [y] : b ; c : d ;".toList⟩

theorem rules_listedExceptions :
    (readGrammar listedExceptions).rules.map AntlrRule.bare =
      (readGrammar ⟨"a.g4".toList, "a returns [x]  locals [y] : b ; c : d ;".toList⟩).rules.map AntlrRule.bare := by
  have hscan : lexemes .antlr listedExceptions.text =
      [] ++ ([] ++ ⟨.identifier, ['a'], {}⟩ ::
        ([⟨.whitespace, [' '], {}⟩, ⟨.identifier, "returns".toList, {}⟩, ⟨.whitespace, [' '], {}⟩,
            ⟨.charClass, "[x]".toList, {}⟩, ⟨.whitespace, [' '], {}⟩] ++
          ([⟨.identifier, "throws".toList, {}⟩, ⟨.whitespace, [' '], {}⟩, ⟨.identifier, ['E'], {}⟩, ⟨.operator, ['.'], {}⟩,
              ⟨.identifier, ['F'], {}⟩, ⟨.operator, [','], {}⟩, ⟨.whitespace, [' '], {}⟩, ⟨.identifier, ['G'], {}⟩] ++
            ([⟨.whitespace, [' '], {}⟩, ⟨.identifier, "locals".toList, {}⟩, ⟨.whitespace, [' '], {}⟩,
                ⟨.charClass, "[y]".toList, {}⟩, ⟨.whitespace, [' '], {}⟩] ++
              ⟨.operator, [':'], {}⟩ :: lexemes .antlr " b ; c : d ;".toList)))) := by
    decide +kernel
  have hreturns : PrequelTokens [⟨.whitespace, [' '], {}⟩, ⟨.identifier, "returns".toList, {}⟩, ⟨.whitespace, [' '], {}⟩,
      ⟨.charClass, "[x]".toList, {}⟩, ⟨.whitespace, [' '], {}⟩] :=
    .trivia rfl (@PrequelTokens.declared _ _ [_] _ (by decide) (by simp [Trivia, Token.isTrivia]) rfl (.trivia rfl .nil))
  have hlocals : PrequelTokens [⟨.whitespace, [' '], {}⟩, ⟨.identifier, "locals".toList, {}⟩, ⟨.whitespace, [' '], {}⟩,
      ⟨.charClass, "[y]".toList, {}⟩, ⟨.whitespace, [' '], {}⟩] :=
    .trivia rfl (@PrequelTokens.declared _ _ [_] _ (by decide) (by simp [Trivia, Token.isTrivia]) rfl (.trivia rfl .nil))
  have hrules := (rules_exceptionTokens hscan (by simp [Trivia]) .nil (by decide) (by decide) hreturns
    (.intro (by decide) (by decide)) hlocals (by decide)).1 (by decide)
  exact hrules.trans (congrArg (fun s => (readGrammar ⟨"a.g4".toList, s⟩).rules.map AntlrRule.bare) (by decide +kernel))

/-- Options behind exceptions lose the rule: the list is not without effect. -/
theorem optionsBehindExceptions_lost :
    ¬∀ (source : GrammarSource) (gap ms ps cs qs rest : List Token) (name colon : Token) (fragment : Bool),
      lexemes .antlr source.text = gap ++ (ms ++ name :: (ps ++ (cs ++ (qs ++ colon :: rest)))) →
      Trivia gap → ModifierTokens ms fragment → name.isWord = true → isWord keywords name = false →
      PrequelTokens ps → ExceptionTokens cs → PrequelTokens qs → colon.isOp [':'] = true →
        (readGrammar source).rules.map AntlrRule.bare =
          (readGrammar ⟨source.path, spelling (gap ++ (ms ++ name :: (ps ++ (qs ++ colon :: rest))))⟩).rules.map
            AntlrRule.bare := by
  intro h
  have hqs : PrequelTokens [⟨.whitespace, [' '], {}⟩, ⟨.identifier, "options".toList, {}⟩, ⟨.whitespace, [' '], {}⟩,
      ⟨.action, "\x7bx\x7d".toList, {}⟩, ⟨.whitespace, [' '], {}⟩] :=
    .trivia rfl (@PrequelTokens.options _ _ [_] _ (by decide) (by simp [Trivia, Token.isTrivia]) rfl (.trivia rfl .nil))
  have hlost := h ⟨"a.g4".toList, "a throws E options \x7bx\x7d : b ;".toList⟩ [] [] [⟨.whitespace, [' '], {}⟩]
    [⟨.identifier, "throws".toList, {}⟩, ⟨.whitespace, [' '], {}⟩, ⟨.identifier, ['E'], {}⟩] _
    (lexemes .antlr " b ;".toList) ⟨.identifier, ['a'], {}⟩ ⟨.operator, [':'], {}⟩ false (by decide +kernel)
    (by simp [Trivia]) .nil (by decide) (by decide) (.trivia rfl .nil) (.intro (by decide) (by decide)) hqs (by decide)
  revert hlost
  decide +kernel

end GrammarText.Antlr
