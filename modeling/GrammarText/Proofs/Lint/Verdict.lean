import GrammarText.Command.Run
import GrammarText.Proofs.Files.Contents
import GrammarText.Proofs.Lint.Balance
import GrammarText.Proofs.Rule.Partition

/-!
# The verdict of the built-in checks

A grammar passes if its checks find no error; warnings do not count. `PassesCheck` says what that means for
the rules: no name twice, no empty alternative, matching parentheses, no loose bracket, and no reference
to a name that neither a rule has nor a token could have. Every built-in check is matched with the
condition that it tests (`noError_findDuplicates`, `noError_findUnbalanced`, `noError_findUndefined`); the
other two only warn.
-/

namespace GrammarText

/-- What the rules of a grammar have to be like for the built-in checks to find no error. -/
structure PassesCheck (rules : List Rule) : Prop where
  distinct : (rules.map Rule.name).Nodup
  filled : ∀ r ∈ rules, ∀ a ∈ r.alternatives, a.significant ≠ []
  matched : ∀ r ∈ rules, Matched r.body
  brackets : ∀ r ∈ rules, ∀ t ∈ r.body, ¬t.IsLooseBracket
  resolved : ∀ r ∈ rules, ∀ t ∈ r.body, t.isReference = true →
    t.text ∈ rules.map Rule.name ∨ isTerminalName t.text = true

/-- Whether none of the findings is an error. -/
def NoError (fs : List Finding) : Prop :=
  ∀ f ∈ fs, f.severity ≠ .error

/-! ### Rules and alternatives by their tokens -/

section Tokens

variable {t : Token} {ts : List Token}

/-- A token of a body is a bar or stands in an alternative. -/
theorem mem_splitBars {depth : Nat} (h : t ∈ ts) : t.isOp ['|'] = true ∨ ∃ p ∈ splitBars depth ts, t ∈ p := by
  induction ts generalizing depth with
  | nil => cases h
  | cons u ts ih =>
    by_cases hb : u.isOp ['|'] = true ∧ depth = 0
    · rw [splitBars, if_pos hb]
      rcases List.mem_cons.1 h with rfl | h
      · exact .inl hb.1
      · rcases @ih 0 h with hbar | ⟨p, hp, ht⟩
        · exact .inl hbar
        · exact .inr ⟨p, List.mem_cons_of_mem _ hp, ht⟩
    · obtain ⟨p, ps, hp, hps⟩ := splitBars_cons_of_not_bar ts hb
      rw [hps]
      rcases List.mem_cons.1 h with rfl | h
      · exact .inr ⟨t :: p, List.mem_cons_self, List.mem_cons_self⟩
      · rcases @ih (depthAfter depth u) h with hbar | ⟨q, hq, ht⟩
        · exact .inl hbar
        rw [hp] at hq
        rcases List.mem_cons.1 hq with rfl | hq
        · exact .inr ⟨u :: q, List.mem_cons_self, List.mem_cons_of_mem _ ht⟩
        · exact .inr ⟨q, List.mem_cons_of_mem _ hq, ht⟩

/-- What holds of every bar holds of the tokens of a body exactly if it holds of those of its pieces. -/
theorem forall_splitBars {p : Token → Prop} (hp : ∀ t, t.isOp ['|'] = true → p t) :
    (∀ piece ∈ splitBars 0 ts, ∀ t ∈ piece, p t) ↔ ∀ t ∈ ts, p t := by
  constructor
  · intro h t ht
    rcases mem_splitBars ht with hb | ⟨piece, hpiece, ht⟩
    · exact hp t hb
    · exact h piece hpiece t ht
  · exact fun h piece hpiece t ht => h t ((infix_of_mem_splitBars hpiece).subset ht)

end Tokens

/-! ### The single checks -/

section Checks

variable {ctx : LintContext} {rules : List Rule} {n : Text}

theorem noError_iff_eq_nil {fs : List Finding} (h : ∀ f ∈ fs, f.severity = .error) : NoError fs ↔ fs = [] := by
  rw [List.eq_nil_iff_forall_not_mem]
  exact ⟨fun hno f hf => hno f hf (h f hf), fun hnil f hf => absurd hf (hnil f)⟩

theorem pairwise_zipIdx {α : Type} (l : List α) : l.zipIdx.Pairwise fun x y => x.2 < y.2 := by
  rw [← List.pairwise_map, List.zipIdx_map_snd]
  exact List.pairwise_lt_range'

/-- Findings rule by rule hold no error if no rule has one. -/
theorem noError_flatMap_zipIdx {f : Rule × Nat → List Finding} {p : Rule → Prop}
    (h : ∀ r ∈ rules, ∀ i, NoError (f (r, i)) ↔ p r) : NoError (rules.zipIdx.flatMap f) ↔ ∀ r ∈ rules, p r := by
  rw [NoError, List.forall_mem_flatMap]
  constructor
  · intro hno r hr
    obtain ⟨i, hi, rfl⟩ := List.getElem_of_mem hr
    exact (h _ hr i).1 (hno (rules[i], i) (List.mem_zipIdx_iff_getElem?.2 (List.getElem?_eq_getElem hi)))
  · rintro hp ⟨r, i⟩ hr
    have hmem := List.fst_mem_of_mem_zipIdx hr
    exact (h r hmem i).2 (hp r hmem)

/-- No name is defined twice. -/
theorem noError_findDuplicates : NoError (findDuplicates ctx) ↔ (ctx.rules.map Rule.name).Nodup := by
  have herror : ∀ f ∈ findDuplicates ctx, f.severity = .error := by
    intro f hf
    obtain ⟨⟨r, i⟩, -, hr⟩ := List.mem_filterMap.1 hf
    obtain ⟨first, -, rfl⟩ := Option.map_eq_some_iff.1 hr
    rfl
  rw [noError_iff_eq_nil herror, findDuplicates, List.filterMap_eq_nil_iff, List.Nodup, List.pairwise_map,
    List.pairwise_iff_getElem]
  simp only [Option.map_eq_none_iff, List.find?_eq_none, beq_iff_eq]
  constructor
  · intro h i j hi hj hij
    refine h (ctx.rules[j], j) ?_ ctx.rules[i] ?_
    · exact List.mem_zipIdx_iff_getElem?.2 (List.getElem?_eq_getElem hj)
    · exact List.mem_take_iff_getElem.2 ⟨i, by omega, rfl⟩
  · rintro h ⟨r, j⟩ hr first hfirst
    obtain ⟨hj, hrule⟩ := List.getElem?_eq_some_iff.1 (List.mem_zipIdx_iff_getElem?.1 hr)
    obtain ⟨i, hi, rfl⟩ := List.mem_take_iff_getElem.1 hfirst
    exact fun heq => h i j (by omega) hj (by omega) (heq.trans (congrArg Rule.name hrule.symm))

theorem delimiterProblems_eq_nil {a : Alternative} : delimiterProblems a = [] ↔
    a.significant ≠ [] ∧ parenthesesBalanced a.tokens = true ∧ bracketsBalanced a.tokens = true := by
  rw [delimiterProblems, Alternative.isEmpty]
  cases hs : a.significant <;> cases parenthesesBalanced a.tokens <;> cases bracketsBalanced a.tokens <;> simp

theorem severity_of_mem_delimiterProblems {a : Alternative} {p : Problem} (h : p ∈ delimiterProblems a) :
    p.severity = .error := by
  have hp : p ∈ [Problem.emptyAlternative, .unbalancedParentheses, .unbalancedClass] := by
    unfold delimiterProblems at h
    split at h
    · simp_all
    · rcases List.mem_append.1 h with h | h <;> split at h <;> simp_all
  simp only [List.mem_cons, List.not_mem_nil, or_false] at hp
  rcases hp with rfl | rfl | rfl <;> rfl

theorem noError_findUnbalanced :
    NoError (findUnbalanced ctx) ↔ ∀ r ∈ ctx.rules, ∀ a ∈ r.alternatives, delimiterProblems a = [] := by
  refine noError_flatMap_zipIdx fun r _ i => ?_
  have herror : ∀ f ∈ r.alternatives.flatMap fun a => (delimiterProblems a).map (alternativeFinding r i a),
      f.severity = .error := by
    intro f hf
    obtain ⟨a, -, ha⟩ := List.mem_flatMap.1 hf
    obtain ⟨p, hp, rfl⟩ := List.mem_map.1 ha
    exact severity_of_mem_delimiterProblems hp
  rw [noError_iff_eq_nil herror]
  simp only [List.flatMap_eq_nil_iff, List.map_eq_nil_iff]

/-! ### References -/

theorem isDefined_iff : isDefined rules n = true ↔ n ∈ rules.map Rule.name := by
  simp [isDefined, List.any_eq_true]

theorem lookup_map_pair {α β : Type} [BEq α] [LawfulBEq α] (f : α → β) (l : List α) (x : α) :
    (l.map fun n => (n, f n)).lookup x = if x ∈ l then some (f x) else none := by
  induction l with
  | nil => rfl
  | cons n l ih =>
    rw [List.map_cons, List.lookup_cons, ih]
    cases h : x == n with
    | true => simp [eq_of_beq h]
    | false => simp [ne_of_beq_false h]

/-- The graph keeps of every name the references of its rules that no rule has. -/
theorem mem_danglingOf {name : Text} : n ∈ (DependencyGraph.ofRules rules).danglingOf name ↔
    ∃ r ∈ rules, r.name = name ∧ n ∈ referencedNames r.body ∧ isDefined rules n = false := by
  have hmem : n ∈ referencesOf rules (fun n => !isDefined rules n) name ↔
      ∃ r ∈ rules, r.name = name ∧ n ∈ referencedNames r.body ∧ isDefined rules n = false := by
    simp [referencesOf, List.mem_eraseDups, and_assoc]
  simp only [DependencyGraph.danglingOf, DependencyGraph.ofRules, lookup_map_pair]
  split
  · rw [Option.getD_some, hmem]
  · rename_i hname
    refine ⟨fun h => absurd h List.not_mem_nil, ?_⟩
    rintro ⟨r, hr, rfl, hn, hd⟩
    refine absurd ?_ hname
    simp only [List.mem_eraseDups, List.mem_map, List.mem_filter, List.any_eq_true]
    exact ⟨r, ⟨hr, n, hn, by simp [hd]⟩, rfl⟩

/-- Reporting every name once does not change which names are reported. -/
theorem forall_mem_eraseDupsBy_fst {α β : Type} [BEq α] [LawfulBEq α] {p : α → Prop} (l : List (α × β)) :
    (∀ x ∈ l.eraseDupsBy fun x y => x.1 == y.1, p x.1) ↔ ∀ x ∈ l, p x.1 := by
  induction hn : l.length using Nat.strongRecOn generalizing l with
  | ind n ih =>
    match l with
    | [] => simp
    | a :: l =>
      have hlt : (l.filter fun b => decide ((b.1 == a.1) = false)).length < n :=
        Nat.lt_of_le_of_lt (List.length_filter_le _ _) (by rw [← hn]; exact Nat.lt_succ_self _)
      rw [List.eraseDupsBy_cons, List.forall_mem_cons, List.forall_mem_cons, ih _ hlt _ rfl]
      refine and_congr_right fun ha => ⟨fun h x hx => ?_, fun h x hx => h x (List.mem_of_mem_filter hx)⟩
      by_cases hxa : x.1 = a.1
      · exact hxa ▸ ha
      · exact h x (List.mem_filter.2 ⟨hx, by simpa using hxa⟩)

theorem forall_mem_missingReferences {missing : List Text} {as : List Alternative} {p : Text → Prop} :
    (∀ x ∈ missingReferences missing as, p x.1) ↔
      ∀ a ∈ as, ∀ n ∈ referencedNames a.tokens, n ∈ missing → p n := by
  rw [missingReferences, forall_mem_eraseDupsBy_fst]
  simp only [List.forall_mem_flatMap, List.forall_mem_map, List.mem_filter, List.contains_iff_mem, and_imp]

theorem mem_referencedNames {ts : List Token} : n ∈ referencedNames ts ↔ ∃ t ∈ ts, t.isReference = true ∧ t.text = n := by
  simp [referencedNames, and_assoc]

/-- Every name that is referred to and that no rule has could be the name of a token. -/
theorem noError_findUndefined {start : Option Text} : NoError (findUndefined (.ofRules rules start)) ↔
    ∀ r ∈ rules, ∀ t ∈ r.body, t.isReference = true →
      t.text ∈ rules.map Rule.name ∨ isTerminalName t.text = true := by
  refine noError_flatMap_zipIdx fun r hr i => ?_
  have hseverity : ∀ x : Text × Alternative, (alternativeFinding r i x.2
      (if isTerminalName x.1 then .undefinedToken x.1 else .undefinedRule x.1)).severity ≠ .error ↔
        isTerminalName x.1 = true := by
    intro x
    cases h : isTerminalName x.1 <;> simp [alternativeFinding, Finding.severity, Problem.severity]
  have hbar : ∀ t : Token, t.isOp ['|'] = true →
      t.isReference = true → t.text ∈ rules.map Rule.name ∨ isTerminalName t.text = true := by
    intro t hb ht
    simp [Token.isReference, kind_of_isOp hb] at ht
  simp only [NoError, List.forall_mem_map, hseverity]
  rw [forall_mem_missingReferences (p := fun n => isTerminalName n = true), ← forall_splitBars hbar,
    ← forall_alternatives (p := fun piece => ∀ t ∈ piece, t.isReference = true → _)]
  refine forall₂_congr fun a ha => ?_
  have hbody : a.tokens <:+: r.body := (forall_alternatives (p := (· <:+: r.body))).2 (fun _ => infix_of_mem_splitBars) a ha
  constructor
  · intro h t ht href
    cases hd : isDefined rules t.text with
    | true => exact .inl (isDefined_iff.1 hd)
    | false =>
      have hn : ∀ us : List Token, t ∈ us → t.text ∈ referencedNames us :=
        fun us hu => mem_referencedNames.2 ⟨t, hu, href, rfl⟩
      exact .inr (h t.text (hn _ ht) (mem_danglingOf.2 ⟨r, hr, rfl, hn _ (hbody.subset ht), hd⟩))
  · intro h n hn hmissing
    obtain ⟨t, ht, href, rfl⟩ := mem_referencedNames.1 hn
    obtain ⟨-, -, -, -, hd⟩ := mem_danglingOf.1 hmissing
    refine (h t ht href).resolve_left fun hmem => ?_
    simp [isDefined_iff.2 hmem] at hd

/-! ### Checks that only warn -/

theorem noError_findLeftRecursion : NoError (findLeftRecursion ctx) := by
  refine (noError_flatMap_zipIdx (p := fun _ => True) fun r _ i => ?_).2 fun _ _ => trivial
  rw [NoError, List.forall_mem_map]
  exact iff_true_intro fun a _ => by simp [alternativeFinding, Finding.severity, Problem.severity]

theorem noError_findUnreachable : NoError (findUnreachable ctx) := by
  intro f hf
  unfold findUnreachable at hf
  split at hf
  · obtain rfl := List.mem_singleton.1 hf
    simp [Finding.severity]
  · rcases List.mem_append.1 hf with hf | hf
    · split at hf
      · obtain rfl := List.mem_singleton.1 hf
        simp [Finding.severity]
      · cases hf
    · obtain ⟨⟨r, i⟩, -, hr⟩ := List.mem_filterMap.1 hf
      dsimp only at hr
      split at hr
      · obtain rfl := Option.some.inj hr
        simp [ruleFinding, Finding.severity, Problem.severity]
      · cases hr

end Checks

/-! ### The verdict -/

section Verdict

variable {rules : List Rule} {source : Text} {start : Option Text}

/-- A report succeeds if none of the built-in checks finds an error. -/
theorem success_lintRules_iff : (lintRules defaultChecks rules start).success = true ↔
    ∀ b : BuiltinCheck, NoError (b.findings (.ofRules rules start)) := by
  have hmem : ∀ f, f ∈ ((defaultChecks.flatMap fun c => c.findings (.ofRules rules start)).mergeSort Finding.before) ↔
      ∃ b : BuiltinCheck, f ∈ b.findings (.ofRules rules start) := by
    intro f
    rw [List.mem_mergeSort]
    constructor
    · intro h
      obtain ⟨c, hc, hf⟩ := List.mem_flatMap.1 h
      obtain ⟨b, -, rfl⟩ := List.mem_map.1 hc
      exact ⟨b, hf⟩
    · rintro ⟨b, hf⟩
      have hb : b ∈ BuiltinCheck.all := by cases b <;> simp [BuiltinCheck.all]
      exact List.mem_flatMap.2 ⟨b.toCheck, List.mem_map_of_mem hb, hf⟩
  rw [LintReport.success, lintRules, runChecks, List.isEmpty_iff, messagesOf, List.map_eq_nil_iff,
    List.filter_eq_nil_iff]
  simp only [hmem, NoError, beq_iff_eq]
  exact ⟨fun h b f hf => h f ⟨b, hf⟩, fun h f ⟨b, hf⟩ => h b f hf⟩

/-- The delimiters of a rule of a text are as they should be in every alternative exactly if no alternative
is empty, the parentheses of the body match and none of its brackets is loose. -/
theorem delimiterProblems_rule_iff {r : Rule} (h : r.body <:+: scan .ebnf source) :
    (∀ a ∈ r.alternatives, delimiterProblems a = []) ↔
      (∀ a ∈ r.alternatives, a.significant ≠ []) ∧ Matched r.body ∧ ∀ t ∈ r.body, ¬t.IsLooseBracket := by
  have hbar : ∀ t : Token, t.isOp ['|'] = true → ¬t.IsLooseBracket := by
    intro t hb
    simp [Token.IsLooseBracket, kind_of_isOp hb]
  have hbrackets : (∀ piece ∈ splitBars 0 r.body, bracketsBalanced piece = true) ↔ ∀ t ∈ r.body, ¬t.IsLooseBracket := by
    rw [← forall_splitBars hbar]
    exact forall₂_congr fun piece hp => bracketsBalanced_iff ((infix_of_mem_splitBars hp).trans h)
  simp only [delimiterProblems_eq_nil, forall_and]
  rw [← all_parenthesesBalanced_iff, ← hbrackets, ← forall_alternatives, ← forall_alternatives]
  rfl

/-- No check finds an error exactly if the rules are as `PassesCheck` says. -/
theorem noError_iff_passesCheck (h : ∀ r ∈ rules, r.body <:+: scan .ebnf source) :
    (∀ b : BuiltinCheck, NoError (b.findings (.ofRules rules start))) ↔ PassesCheck rules := by
  have hdelimiters := forall₂_congr fun r hr => delimiterProblems_rule_iff (h r hr)
  constructor
  · intro hno
    have hsplit := hdelimiters.1 (noError_findUnbalanced.1 (hno .delimiters))
    exact
      { distinct := noError_findDuplicates.1 (hno .duplicates)
        filled := fun r hr => (hsplit r hr).1
        matched := fun r hr => (hsplit r hr).2.1
        brackets := fun r hr => (hsplit r hr).2.2
        resolved := noError_findUndefined.1 (hno .undefined) }
  · intro hp b
    cases b with
    | duplicates => exact noError_findDuplicates.2 hp.distinct
    | delimiters =>
      exact noError_findUnbalanced.2 (hdelimiters.2 fun r hr => ⟨hp.filled r hr, hp.matched r hr, hp.brackets r hr⟩)
    | undefined => exact noError_findUndefined.2 hp.resolved
    | leftRecursion => exact noError_findLeftRecursion
    | reachability => exact noError_findUnreachable

theorem success_lintDocument_iff (source : Text) (start : Option Text) :
    (lintDocument defaultChecks source start).success = true ↔ PassesCheck (documentRules source) := by
  rw [lintDocument, success_lintRules_iff]
  exact noError_iff_passesCheck fun r hr => body_infix_of_mem_extract hr

/-- The status of the command on a file that can be read is that of the report, from some start rule. -/
theorem result_check {w : Workbench} {r : CheckRequest} {path : Text}
    (h : readNamedSource w.disk r.file = .ok ⟨path, source⟩) :
    ∃ start, (w.check r).result = .ok (if (lintDocument defaultChecks source start).success then 0 else 1) :=
  ⟨((r.start.filter (!·.isEmpty)).map String.toList).or w.settings.startRule, by rw [Workbench.check, h]⟩

/-- Checking a document succeeds exactly if its rules are as `PassesCheck` says, whatever the start rule is.
So does the command on a file that can be read, whatever it is asked to start from and to print. -/
theorem verdict_iff (source : Text) (start : Option Text) :
    ((lintDocument defaultChecks source start).success = true ↔ PassesCheck (documentRules source)) ∧
      ∀ (w : Workbench) (r : CheckRequest) (path : Text), readNamedSource w.disk r.file = .ok ⟨path, source⟩ →
        ((w.check r).result = .ok 0 ↔ PassesCheck (documentRules source)) := by
  refine ⟨success_lintDocument_iff source start, fun w r path hread => ?_⟩
  obtain ⟨asked, hresult⟩ := result_check hread
  rw [hresult, ← success_lintDocument_iff source asked]
  cases (lintDocument defaultChecks source asked).success <;> simp

/-- Two rules with a group, a class with brackets in it, and a token that no rule has. -/
def sumRules : Text :=
  "sum ::= term ('+' term)* | [^a-z[\\]]] ;\nterm ::= NUM ;".toList

/-- A folder with the rules in a file. -/
def sumsBench : Workbench where
  disk := ⟨.folder [("sums.ebnf", .file (encodeUtf8 sumRules))], []⟩
  settings := {}
  log := fun _ => ""

theorem passesCheck_sumRules : PassesCheck (documentRules sumRules) where
  distinct := by decide +kernel
  filled := by decide +kernel
  matched := fun r hr => parenthesesBalanced_iff.1 <|
    (by decide +kernel : ∀ r ∈ documentRules sumRules, parenthesesBalanced r.body = true) r hr
  brackets := by decide +kernel
  resolved := by decide +kernel

theorem verdict_iff_sumRules :
    readNamedSource sumsBench.disk "sums.ebnf" = .ok ⟨"sums.ebnf".toList, sumRules⟩ ∧
      (lintDocument defaultChecks sumRules (some ['x'])).success = true ∧
      (sumsBench.check { file := "sums.ebnf", json := true }).result = .ok 0 := by
  have hpath : Path.ofString "sums.ebnf" = ⟨.working, ["sums.ebnf"]⟩ := by decide +kernel
  have htext : readText sumsBench.disk (Path.ofString "sums.ebnf") = .ok sumRules := by
    rw [hpath]
    exact readText_name (by decide +kernel) _ rfl
  have hread : readNamedSource sumsBench.disk "sums.ebnf" = .ok ⟨"sums.ebnf".toList, sumRules⟩ := by
    rw [readNamedSource_of_readText htext, hpath, normalizeNewlines_of_not_mem (by decide +kernel)]
    rfl
  obtain ⟨hlint, hcheck⟩ := verdict_iff sumRules (some ['x'])
  exact ⟨hread, hlint.2 passesCheck_sumRules,
    (hcheck sumsBench { file := "sums.ebnf", json := true } _ hread).2 passesCheck_sumRules⟩

end Verdict

end GrammarText
