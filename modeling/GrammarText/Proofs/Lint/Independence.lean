import GrammarText.Lint.Report
import GrammarText.Proofs.Antlr.Gist
import GrammarText.Proofs.Rule.Alternatives

/-!
# What layout changes in a report

The built-in checks look at the names of rules and at significant tokens only. A rule and its gist, which is
the rule without whitespace, comments and places, are split into the same alternatives (`alternatives_gist`), have
the same references and the same graph (`ofRules_map_gist`), and every check finds the same in them
(`findings_gist`) up to lines and quoted text, which are no part of an `Outline`. So rules that differ in layout
only have reports of one outline (`lintRules_outline`).
-/

namespace GrammarText

open Antlr

/-- The branch without whitespace, comments and places. -/
def Alternative.gist (a : Alternative) : Alternative where
  tokens := Antlr.gist a.tokens
  index := a.index

/-- The rule without whitespace, comments and places. -/
def Rule.gist (r : Rule) : Rule where
  name := r.name
  body := Antlr.gist r.body

@[simp] theorem Rule.name_gist (r : Rule) : r.gist.name = r.name := rfl

/-- What a finding says, apart from its wording and its line. -/
structure Outline where
  id : String
  severity : Severity
  rule : Option Text
  ruleIndex : Option Nat
  alternative : Option Nat
deriving DecidableEq, Repr

/-- The outline of a finding. -/
def Finding.outline (f : Finding) : Outline where
  id := f.id
  severity := f.severity
  rule := f.site?.map Site.rule
  ruleIndex := f.site?.map Site.ruleIndex
  alternative := f.site?.bind Site.alternative

/-! ### Tokens -/

section Tokens

variable {ts : List Token}

theorem significant_gist (ts : List Token) : significant (gist ts) = gist ts := by
  simp [gist, significant, List.filter_map, Function.comp_def]

theorem referencedNames_gist (ts : List Token) : referencedNames (gist ts) = referencedNames ts := by
  induction ts with
  | nil => rfl
  | cons t ts ih =>
    rw [referencedNames] at ih ⊢
    cases ht : t.isTrivia with
    | true =>
      have hr : t.isReference = false := by
        simp only [Token.isTrivia, Bool.or_eq_true, beq_iff_eq] at ht
        rcases ht with hk | hk <;> simp [Token.isReference, hk]
      rw [gist_cons_trivia ht, ih, referencedNames, referencedNames, List.filter_cons_of_neg (by simp [hr])]
    | false =>
      have hr : t.bare.isReference = t.isReference := rfl
      rw [gist_cons ht, List.filter_cons, hr, referencedNames, List.filter_cons]
      split
      · rw [List.map_cons, List.map_cons, ih]
        rfl
      · exact ih

/-- Whitespace and comments do not take part in splitting. -/
theorem splitBars_gist (depth : Nat) (ts : List Token) : splitBars depth (gist ts) = (splitBars depth ts).map gist := by
  induction ts generalizing depth with
  | nil => rfl
  | cons t ts ih =>
    by_cases hb : t.isOp ['|'] = true ∧ depth = 0
    · rw [gist_cons (isTrivia_eq_false_of_isOp hb.1), splitBars, Token.isOp_bare, if_pos hb, ih, splitBars, if_pos hb]
      rfl
    · obtain ⟨p, ps, hp, hps⟩ := splitBars_cons_of_not_bar ts hb
      have ih' := ih (depthAfter depth t)
      rw [hp, List.map_cons] at ih'
      rw [hps, List.map_cons]
      cases ht : t.isTrivia with
      | true =>
        have hdepth : depthAfter depth t = depth := by simp [depthAfter, isOp_of_isTrivia ht]
        rw [gist_cons_trivia ht, gist_cons_trivia ht, ← ih', hdepth]
      | false =>
        have hdepth : depthAfter depth t.bare = depthAfter depth t := rfl
        rw [gist_cons ht, gist_cons ht, splitBars, Token.isOp_bare, if_neg hb, hdepth, ih']
        rfl

/-- Steps that trivia do not make leave the running sum as it is. -/
theorem staysBalanced_gist {step : Token → Int} (hbare : ∀ t : Token, step t.bare = step t)
    (htrivia : ∀ t : Token, t.isTrivia = true → step t = 0) {sum : Int} (h : 0 ≤ sum) :
    staysBalanced sum ((gist ts).map step) = staysBalanced sum (ts.map step) := by
  induction ts generalizing sum with
  | nil => rfl
  | cons t ts ih =>
    cases ht : t.isTrivia with
    | true => simp [gist_cons_trivia ht, ih h, staysBalanced, htrivia t ht, h]
    | false =>
      rw [gist_cons ht, List.map_cons, List.map_cons, hbare, staysBalanced, staysBalanced]
      by_cases hs : 0 ≤ sum + step t
      · rw [ih hs]
      · simp [hs]

theorem parenthesesBalanced_gist (ts : List Token) : parenthesesBalanced (gist ts) = parenthesesBalanced ts := by
  refine staysBalanced_gist (fun _ => rfl) (fun t ht => ?_) (Int.le_refl 0)
  simp [parenthesisStep, isOp_of_isTrivia ht]

theorem bracketsBalanced_gist (ts : List Token) : bracketsBalanced (gist ts) = bracketsBalanced ts := by
  refine staysBalanced_gist (fun _ => rfl) (fun t ht => ?_) (Int.le_refl 0)
  simp only [Token.isTrivia, Bool.or_eq_true, beq_iff_eq] at ht
  rcases ht with hk | hk <;> simp [bracketStep, hk]

theorem skipGroup_map_bare (depth : Nat) (ts : List Token) :
    skipGroup depth (ts.map Token.bare) = (skipGroup depth ts).map Token.bare := by
  fun_induction skipGroup depth ts with
  | case1 => rfl
  | case2 t ts => rw [List.map_cons, skipGroup, if_pos rfl]
  | case3 depth t ts hd ho ih => rw [List.map_cons, skipGroup, if_neg hd, Token.isOp_bare, if_pos ho, ih]
  | case4 depth t ts hd ho hc ih =>
    rw [List.map_cons, skipGroup, if_neg hd, Token.isOp_bare, if_neg ho, Token.isOp_bare, if_pos hc, ih]
  | case5 depth t ts hd ho hc ih =>
    rw [List.map_cons, skipGroup, if_neg hd, Token.isOp_bare, if_neg ho, Token.isOp_bare, if_neg hc, ih]

theorem skipLeadingItems_map_bare (ts : List Token) :
    skipLeadingItems (ts.map Token.bare) = (skipLeadingItems ts).map Token.bare := by
  fun_induction skipLeadingItems ts with
  | case1 => rw [List.map_nil, skipLeadingItems]
  | case2 t ts hk ih => rw [List.map_cons, skipLeadingItems, Token.kind_bare, if_pos hk, ih]
  | case3 t ts hk ho ih =>
    rw [List.map_cons, skipLeadingItems, Token.kind_bare, if_neg hk, Token.isOp_bare, if_pos ho, skipGroup_map_bare, ih]
  | case4 t ts hk ho =>
    rw [List.map_cons, skipLeadingItems, Token.kind_bare, if_neg hk, Token.isOp_bare, if_neg ho]

end Tokens

/-! ### Alternatives -/

section Alternatives

theorem alternatives_gist (r : Rule) : r.gist.alternatives = r.alternatives.map Alternative.gist := by
  rw [Rule.alternatives, Rule.alternatives, alternatives, alternatives, Rule.gist, splitBars_gist, List.zipIdx_map,
    List.map_map, List.map_map]
  rfl

theorem delimiterProblems_gist (a : Alternative) : delimiterProblems a.gist = delimiterProblems a := by
  have hempty : a.gist.isEmpty = a.isEmpty := by
    rw [Alternative.isEmpty, Alternative.isEmpty, Alternative.significant, Alternative.gist, significant_gist,
      Antlr.gist, List.isEmpty_map]
    rfl
  rw [delimiterProblems, delimiterProblems, hempty, Alternative.gist, parenthesesBalanced_gist, bracketsBalanced_gist]

theorem leadingName?_gist (a : Alternative) : a.gist.leadingName? = a.leadingName? := by
  rw [Alternative.leadingName?, Alternative.leadingName?, Alternative.significant, Alternative.gist, significant_gist,
    Antlr.gist, skipLeadingItems_map_bare, List.find?_map, Option.map_map]
  rfl

/-- The pairs that are kept are chosen by what the map does not change. -/
theorem eraseDupsBy_map {α β : Type} {same : α → α → Bool} {same' : β → β → Bool} {f : α → β}
    (h : ∀ x y, same' (f x) (f y) = same x y) (l : List α) :
    (l.map f).eraseDupsBy same' = (l.eraseDupsBy same).map f := by
  induction hn : l.length using Nat.strongRecOn generalizing l with
  | ind n ih =>
    match l with
    | [] => rfl
    | a :: l =>
      have hlt : (l.filter fun b => decide (same b a = false)).length < n :=
        Nat.lt_of_le_of_lt (List.length_filter_le _ _) (by rw [← hn]; exact Nat.lt_succ_self _)
      rw [List.map_cons, List.eraseDupsBy_cons, List.eraseDupsBy_cons, List.map_cons, List.filter_map, ← ih _ hlt _ rfl]
      simp only [Function.comp_def, h]

theorem missingReferences_gist (missing : List Text) (as : List Alternative) :
    missingReferences missing (as.map Alternative.gist) =
      (missingReferences missing as).map (Prod.map id Alternative.gist) := by
  have hmap : ∀ l : List (Text × Alternative), (l.map (Prod.map id Alternative.gist)).eraseDupsBy (fun x y => x.1 == y.1) =
      (l.eraseDupsBy fun x y => x.1 == y.1).map (Prod.map id Alternative.gist) := eraseDupsBy_map fun _ _ => rfl
  rw [missingReferences, missingReferences, ← hmap, List.flatMap_map, List.map_flatMap]
  simp only [Alternative.gist, referencedNames_gist, List.map_map]
  rfl

end Alternatives

/-! ### Contexts -/

section Contexts

variable (rules : List Rule)

theorem isDefined_map_gist (n : Text) : isDefined (rules.map Rule.gist) n = isDefined rules n :=
  List.any_map

theorem referencesOf_map_gist (keep : Text → Bool) (n : Text) :
    referencesOf (rules.map Rule.gist) keep n = referencesOf rules keep n := by
  rw [referencesOf, referencesOf, List.filter_map, List.flatMap_map]
  simp only [Rule.gist, referencedNames_gist]
  rfl

/-- Layout plays no part in the graph. -/
theorem ofRules_map_gist : DependencyGraph.ofRules (rules.map Rule.gist) = DependencyGraph.ofRules rules := by
  have hdefined : isDefined (rules.map Rule.gist) = isDefined rules := funext (isDefined_map_gist rules)
  have hnames : ∀ rs : List Rule, (rs.map Rule.gist).map Rule.name = rs.map Rule.name := fun rs => List.map_map
  rw [DependencyGraph.ofRules, DependencyGraph.ofRules, List.filter_map, hnames, hnames, hdefined]
  simp only [referencesOf_map_gist, Function.comp_def, Rule.gist, referencedNames_gist]

theorem inferStartRule_map_gist (start : Option Text) :
    inferStartRule (rules.map Rule.gist) start = inferStartRule rules start := by
  have hhead : (((rules.map Rule.gist).find? fun r => isStructuralName r.name) <|> (rules.map Rule.gist).head?).map
      Rule.name = ((rules.find? fun r => isStructuralName r.name) <|> rules.head?).map Rule.name := by
    rw [List.find?_map, List.head?_map]
    simp only [Function.comp_def, Rule.gist]
    cases rules.find? fun r => isStructuralName r.name <;> cases rules.head? <;> rfl
  unfold inferStartRule
  split
  · rfl
  · exact hhead

/-- The context of the gists is that of the rules, but for the rules themselves. -/
theorem contextOfRules_map_gist (start : Option Text) : LintContext.ofRules (rules.map Rule.gist) start =
    { LintContext.ofRules rules start with rules := rules.map Rule.gist } := by
  rw [LintContext.ofRules, ofRules_map_gist, inferStartRule_map_gist]
  rfl

end Contexts

/-! ### The single checks -/

section Checks

variable (rules : List Rule) (start : Option Text)

/-- Findings rule by rule have the same outlines for the gists if they have for every rule. -/
theorem outline_flatMap_zipIdx {f g : Rule × Nat → List Finding}
    (h : ∀ r i, (f (r.gist, i)).map Finding.outline = (g (r, i)).map Finding.outline) :
    ((rules.map Rule.gist).zipIdx.flatMap f).map Finding.outline = (rules.zipIdx.flatMap g).map Finding.outline := by
  rw [List.zipIdx_map, List.flatMap_map, List.map_flatMap, List.map_flatMap]
  exact congrArg (List.flatMap · _) (funext fun x => h x.1 x.2)

theorem outline_filterMap_zipIdx {f g : Rule × Nat → Option Finding}
    (h : ∀ r i, (f (r.gist, i)).map Finding.outline = (g (r, i)).map Finding.outline) :
    ((rules.map Rule.gist).zipIdx.filterMap f).map Finding.outline =
      (rules.zipIdx.filterMap g).map Finding.outline := by
  rw [List.zipIdx_map, List.filterMap_map, List.map_filterMap, List.map_filterMap]
  exact congrArg (List.filterMap · _) (funext fun x => h x.1 x.2)

theorem findDuplicates_gist : (findDuplicates (.ofRules (rules.map Rule.gist) start)).map Finding.outline =
    (findDuplicates (.ofRules rules start)).map Finding.outline := by
  refine outline_filterMap_zipIdx rules fun r i => ?_
  change (((List.take i (rules.map Rule.gist)).find? _).map _).map _ = _
  rw [← List.map_take, List.find?_map, Option.map_map, Option.map_map, Option.map_map]
  rfl

theorem findUnbalanced_gist : (findUnbalanced (.ofRules (rules.map Rule.gist) start)).map Finding.outline =
    (findUnbalanced (.ofRules rules start)).map Finding.outline := by
  refine outline_flatMap_zipIdx rules fun r i => ?_
  simp only [alternatives_gist, List.flatMap_map, List.map_flatMap, delimiterProblems_gist, List.map_map]
  rfl

theorem findUndefined_gist : (findUndefined (.ofRules (rules.map Rule.gist) start)).map Finding.outline =
    (findUndefined (.ofRules rules start)).map Finding.outline := by
  refine outline_flatMap_zipIdx rules fun r i => ?_
  simp only [LintContext.ofRules, ofRules_map_gist, alternatives_gist, missingReferences_gist, List.map_map]
  rfl

theorem findLeftRecursion_gist : (findLeftRecursion (.ofRules (rules.map Rule.gist) start)).map Finding.outline =
    (findLeftRecursion (.ofRules rules start)).map Finding.outline := by
  refine outline_flatMap_zipIdx rules fun r i => ?_
  simp only [alternatives_gist, List.filter_map, Function.comp_def, leadingName?_gist, List.map_map]
  rfl

theorem findUnreachable_gist : (findUnreachable (.ofRules (rules.map Rule.gist) start)).map Finding.outline =
    (findUnreachable (.ofRules rules start)).map Finding.outline := by
  rw [contextOfRules_map_gist]
  unfold findUnreachable
  dsimp only
  cases hstart : (LintContext.ofRules rules start).startRule with
  | none => rfl
  | some n =>
    simp only [List.map_append, isDefined_map_gist]
    congr 1
    refine outline_filterMap_zipIdx rules fun r i => ?_
    have hdefined : isDefined ((rules.map Rule.gist).take i) r.name = isDefined (rules.take i) r.name := by
      rw [← List.map_take, isDefined_map_gist]
    simp only [Rule.name_gist, hdefined, Option.map_if]
    rfl

/-- Every built-in check finds the same in rules and in their gists. -/
theorem findings_gist (b : BuiltinCheck) : (b.findings (.ofRules (rules.map Rule.gist) start)).map Finding.outline =
    (b.findings (.ofRules rules start)).map Finding.outline := by
  cases b with
  | duplicates => exact findDuplicates_gist rules start
  | delimiters => exact findUnbalanced_gist rules start
  | undefined => exact findUndefined_gist rules start
  | leftRecursion => exact findLeftRecursion_gist rules start
  | reachability => exact findUnreachable_gist rules start

end Checks

/-! ### Reports -/

/-- The order of a report, said on outlines. -/
def Outline.before (o o' : Outline) : Bool :=
  let key := fun n : Option Nat => (n.map Int.ofNat).getD (-1)
  key o.ruleIndex < key o'.ruleIndex ||
    (key o.ruleIndex == key o'.ruleIndex && key o.alternative ≤ key o'.alternative)

section Reports

variable (checks : List BuiltinCheck) {rules rules' : List Rule} (start : Option Text)

theorem before_outline (f g : Finding) : f.before g = f.outline.before g.outline := by
  have hrule : ∀ f : Finding, f.ruleKey = (f.outline.ruleIndex.map Int.ofNat).getD (-1) := by
    rintro (_ | _ | _) <;> rfl
  have halternative : ∀ f : Finding, f.alternativeKey = (f.outline.alternative.map Int.ofNat).getD (-1) := by
    rintro (_ | _ | ⟨⟨_, _, _, _ | _⟩, _⟩) <;> rfl
  rw [Finding.before, Outline.before, hrule, hrule, halternative, halternative]

/-- The outlines of a report are those of its checks, put in order. -/
theorem outline_findings_lintRules : (lintRules (checks.map BuiltinCheck.toCheck) rules start).findings.map Finding.outline =
    (checks.flatMap fun b => (b.findings (.ofRules rules start)).map Finding.outline).mergeSort Outline.before := by
  rw [lintRules, runChecks, List.map_mergeSort fun f _ g _ => before_outline f g, List.flatMap_map, List.map_flatMap]
  rfl

theorem count_eq_countP_outline (report : LintReport) (s : Severity) :
    report.count s = (report.findings.map Finding.outline).countP (·.severity == s) := by
  rw [LintReport.count, List.countP_map]
  rfl

/-- A report succeeds if it counts no error. -/
theorem success_lintRules (cs : List Check) (rules : List Rule) :
    (lintRules cs rules start).success = ((lintRules cs rules start).count .error == 0) := by
  have hmessages : ∀ fs : List Finding, (messagesOf .error fs).isEmpty = (fs.countP (·.severity == .error) == 0) := by
    intro fs
    rw [messagesOf, List.isEmpty_map, List.countP_eq_length_filter]
    cases fs.filter (·.severity == .error) <;> rfl
  exact hmessages _

/-- Two rules that differ in layout at most: they have one name, and the same significant tokens. -/
def SameGrammar (r r' : Rule) : Prop :=
  r.name = r'.name ∧ (significant r.body).map Token.sign = (significant r'.body).map Token.sign

instance (r r' : Rule) : Decidable (SameGrammar r r') :=
  inferInstanceAs (Decidable (_ ∧ _))

theorem SameGrammar.gist_eq {r r' : Rule} (h : SameGrammar r r') : r.gist = r'.gist := by
  rw [Rule.gist, Rule.gist, h.1, gist_eq_of_map_sign h.2]

/-- Reports on rules that differ in layout only have one start rule and one outline. So they agree on success and on
the number of errors and of warnings. -/
theorem lintRules_outline (h : List.Forall₂ SameGrammar rules rules') :
    let report := lintRules (checks.map BuiltinCheck.toCheck) rules start
    let report' := lintRules (checks.map BuiltinCheck.toCheck) rules' start
    report.startRule = report'.startRule ∧
      report.findings.map Finding.outline = report'.findings.map Finding.outline ∧
        report.success = report'.success ∧ ∀ s, report.count s = report'.count s := by
  have hgist : rules.map Rule.gist = rules'.map Rule.gist := by
    induction h with
    | nil => rfl
    | cons h _ ih => rw [List.map_cons, List.map_cons, h.gist_eq, ih]
  have hfindings : (lintRules (checks.map BuiltinCheck.toCheck) rules start).findings.map Finding.outline =
      (lintRules (checks.map BuiltinCheck.toCheck) rules' start).findings.map Finding.outline := by
    simp only [outline_findings_lintRules, ← findings_gist rules, ← findings_gist rules', hgist]
  have hcount : ∀ s, (lintRules (checks.map BuiltinCheck.toCheck) rules start).count s =
      (lintRules (checks.map BuiltinCheck.toCheck) rules' start).count s := fun s => by
    rw [count_eq_countP_outline, count_eq_countP_outline, hfindings]
  refine ⟨?_, hfindings, ?_, hcount⟩
  · change inferStartRule rules start = inferStartRule rules' start
    rw [← inferStartRule_map_gist, hgist, inferStartRule_map_gist]
  · rw [success_lintRules, success_lintRules, hcount]

/-- Rules without any layout. -/
def crampedRules : Text :=
  "sum::=sum'+'term|(|[x]]);term::=NUM;term::=lost".toList

/-- The same rules with whitespace and comments. -/
def airyRules : Text :=
  "(* sums *)\nsum ::= sum '+' term\n  | (|[x] ] ) // loose\n  ;\nterm ::= /* one */ NUM ;\n\nterm ::= lost ;\n".toList

theorem lintRules_outline_airyRules :
    List.Forall₂ SameGrammar (documentRules crampedRules) (documentRules airyRules) ∧
      documentRules crampedRules ≠ documentRules airyRules ∧
        (lintDocument defaultChecks crampedRules none).findings.map Finding.outline =
          (lintDocument defaultChecks airyRules none).findings.map Finding.outline ∧
        (lintDocument defaultChecks crampedRules none).success = (lintDocument defaultChecks airyRules none).success := by
  have hrules : List.Forall₂ SameGrammar (documentRules crampedRules) (documentRules airyRules) := by decide +kernel
  obtain ⟨-, hfindings, hsuccess, -⟩ := lintRules_outline BuiltinCheck.all none hrules
  exact ⟨hrules, by decide +kernel, hfindings, hsuccess⟩

end Reports

end GrammarText
