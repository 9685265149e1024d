import GrammarText.Proofs.Lint.Sharing
import Mathlib.Data.Prod.Lex

/-!
# Failing checks

`analyze_isolates_failures` is about a run of built-in checks in any order and number, mixed with checks that always fail
and leave the context intact (`FailingCheck`). The run ends with a report; its findings are the stable sort of what the
built-in checks find (`StablySorted`), and each failing check costs one warning, in the order of the list. Without a
failing check the report is the same but for its warning, and another order of the checks gives the same verdict,
findings and messages up to their order.

A check that breaks off is not isolated in itself: what it wrote to the context, what it handed over and what its error
tells about the run reach the report (`interrupted_checks_interfere`).
-/

namespace GrammarText

/-! ### The order of a report -/

/-- The place of a finding in a report: by rule, then by alternative; what is about no rule or about no alternative comes
first. -/
def Finding.place : Finding → Int ×ₗ Int
  | .noStartRule | .undefinedStart _ => toLex (-1, -1)
  | .inRule site _ => toLex (site.ruleIndex, (site.alternative.map Int.ofNat).getD (-1))

theorem Finding.before_iff_place_le (f g : Finding) : f.before g ↔ f.place ≤ g.place := by
  have hplace : ∀ f : Finding, f.place = toLex (f.ruleKey, f.alternativeKey) := by
    rintro (_ | _ | ⟨⟨_, _, _, _ | _⟩, _⟩) <;> rfl
  rw [hplace, hplace, Prod.Lex.toLex_le_toLex, Finding.before, Bool.or_eq_true, Bool.and_eq_true, decide_eq_true_eq,
    beq_iff_eq, decide_eq_true_eq]

/-- A list in order of place, in which findings of one place stand as they stood before. -/
structure StablySorted (found sorted : List Finding) : Prop where
  perm : sorted.Perm found
  ordered : sorted.Pairwise fun f g => f.place ≤ g.place
  stable : ∀ k, (sorted.filter fun f => f.place = k) = found.filter fun f => f.place = k

theorem stablySorted_mergeSort (found : List Finding) : StablySorted found (found.mergeSort Finding.before) := by
  have htrans : ∀ f g h : Finding, f.before g → g.before h → f.before h := by
    intro f g h
    simpa only [Finding.before_iff_place_le] using le_trans
  have htotal : ∀ f g : Finding, f.before g || g.before f := by
    intro f g
    simpa only [Bool.or_eq_true, Finding.before_iff_place_le] using le_total f.place g.place
  have hperm := List.mergeSort_perm found Finding.before
  refine ⟨hperm, ?_, fun k => ?_⟩
  · exact (List.pairwise_mergeSort htrans htotal found).imp (Finding.before_iff_place_le _ _).mp
  · -- What has one place is in order as it stands, so sorting keeps it as a sublist, and there is no more of it.
    have hkept : (found.filter fun f => f.place = k).Pairwise fun f g => f.before g := by
      refine List.pairwise_of_forall_mem_list fun f hf g hg => ?_
      have hf : f.place = k := by simpa using (List.mem_filter.mp hf).2
      have hg : g.place = k := by simpa using (List.mem_filter.mp hg).2
      exact (Finding.before_iff_place_le f g).mpr (le_of_eq (hf.trans hg.symm))
    have hsub := (List.sublist_mergeSort htrans htotal hkept List.filter_sublist).filter fun f => f.place = k
    simp only [List.filter_filter, Bool.and_self] at hsub
    exact (hsub.eq_of_length (hperm.filter _).length_eq.symm).symm

/-! ### Checks that fail -/

/-- A check that always fails. It may ask the context before that, but it hands nothing over, leaves the context intact,
and its error tells what the context says and nothing about the run. -/
structure FailingCheck extends SharedCheck where
  text : LintContext → String
  fails : ∀ ctx s, s.Intact ctx → ∃ s', s'.Intact ctx ∧ run s = ⟨[], some (.error (text ctx)), s'⟩

/-- The warning about a failing check. -/
def FailingCheck.warning (c : FailingCheck) (ctx : LintContext) : String :=
  s!"Rule {c.id} encountered an error: {c.text ctx}"

/-- A check of a list: one of the built-in checks, or one that fails. -/
inductive ListedCheck where
  | builtin (b : BuiltinCheck)
  | failing (c : FailingCheck)

namespace ListedCheck

/-- The check as the linter runs it. -/
def shared : ListedCheck → SharedCheck
  | builtin b => b.shared
  | failing c => c.toSharedCheck

/-- What the check finds. -/
def findings (ctx : LintContext) : ListedCheck → List Finding
  | builtin b => b.findings ctx
  | failing _ => []

/-- The warning about the check, if it fails. -/
def warning? (ctx : LintContext) : ListedCheck → Option String
  | builtin _ => none
  | failing c => some (c.warning ctx)

/-- The check by itself, as it is in a list of checks without a shared context. -/
def toCheck : ListedCheck → Check
  | builtin b => b.toCheck
  | failing c => ⟨c.id, c.description, fun ctx => .error (c.text ctx)⟩

theorem findings_toCheck (ctx : LintContext) (c : ListedCheck) : c.toCheck.findings ctx = c.findings ctx := by
  cases c <;> rfl

theorem failure?_toCheck (ctx : LintContext) (c : ListedCheck) : c.toCheck.failure? ctx = c.warning? ctx := by
  cases c <;> rfl

theorem realizes_shared (c : ListedCheck) : c.shared.Realizes c.toCheck := by
  cases c with
  | builtin b => exact b.realizes_shared
  | failing c => exact ⟨rfl, c.fails⟩

end ListedCheck

/-! ### Reports -/

section Reports

variable (rules : List Rule) (start : Option Text)

/-- The report of a list of checks is the sum of what they add. -/
theorem lintRules_toCheck (checks : List ListedCheck) :
    lintRules (checks.map ListedCheck.toCheck) rules start =
      let ctx := LintContext.ofRules rules start
      let findings := (checks.flatMap (·.findings ctx)).mergeSort Finding.before
      { startRule := ctx.startRule
        errors := messagesOf .error findings
        warnings := messagesOf .warning findings ++ checks.filterMap (·.warning? ctx)
        findings := findings } := by
  rw [lintRules, runChecks]
  simp only [List.flatMap_map, List.filterMap_map, Function.comp_def, ListedCheck.findings_toCheck,
    ListedCheck.failure?_toCheck]

theorem analyze_shared (checks : List ListedCheck) :
    analyze (checks.map ListedCheck.shared) rules start = .ok (lintRules (checks.map ListedCheck.toCheck) rules start) := by
  refine analyze_eq_lintRules ?_ rules start
  rw [List.forall₂_map_left_iff, List.forall₂_map_right_iff]
  exact List.forall₂_same.2 fun c _ => c.realizes_shared

theorem warnings_lintRules_toCheck (checks : List ListedCheck) :
    (lintRules (checks.map ListedCheck.toCheck) rules start).warnings =
      messagesOf .warning (lintRules (checks.map ListedCheck.toCheck) rules start).findings ++
        checks.filterMap (·.warning? (.ofRules rules start)) := by
  rw [lintRules_toCheck]

/-- A failing check adds its warning to a report, between those of the failing checks before it and after it. -/
theorem lintRules_insert_failing (before : List ListedCheck) (c : FailingCheck) (after : List ListedCheck) :
    lintRules ((before ++ .failing c :: after).map ListedCheck.toCheck) rules start =
      let ctx := LintContext.ofRules rules start
      let report := lintRules ((before ++ after).map ListedCheck.toCheck) rules start
      { report with
        warnings := messagesOf .warning report.findings ++ before.filterMap (·.warning? ctx) ++
          c.warning ctx :: after.filterMap (·.warning? ctx) } := by
  rw [lintRules_toCheck, lintRules_toCheck]
  simp only [List.flatMap_append, List.flatMap_cons, List.filterMap_append, List.filterMap_cons, List.append_assoc,
    ListedCheck.findings, ListedCheck.warning?, List.nil_append]

theorem perm_messagesOf {fs gs : List Finding} (h : fs.Perm gs) (s : Severity) :
    (messagesOf s fs).Perm (messagesOf s gs) :=
  (h.filter _).map _

/-- Two reports on the same grammar that differ at most in the order of what they list. -/
structure SameVerdict (report report' : LintReport) : Prop where
  startRule : report.startRule = report'.startRule
  success : report.success = report'.success
  findings : report.findings.Perm report'.findings
  errors : report.errors.Perm report'.errors
  warnings : report.warnings.Perm report'.warnings

theorem sameVerdict_of_perm {checks checks' : List ListedCheck} (h : checks.Perm checks') :
    SameVerdict (lintRules (checks.map ListedCheck.toCheck) rules start)
      (lintRules (checks'.map ListedCheck.toCheck) rules start) := by
  have hfindings : ((checks.flatMap (·.findings (.ofRules rules start))).mergeSort Finding.before).Perm
      ((checks'.flatMap (·.findings (.ofRules rules start))).mergeSort Finding.before) :=
    (List.mergeSort_perm _ _).trans ((h.flatMap_right _).trans (List.mergeSort_perm _ _).symm)
  rw [lintRules_toCheck, lintRules_toCheck]
  exact ⟨rfl, (perm_messagesOf hfindings .error).isEmpty_eq, hfindings, perm_messagesOf hfindings .error,
    (perm_messagesOf hfindings .warning).append (h.filterMap _)⟩

/-- A run over built-in and failing checks ends with a report. Its findings are what the built-in checks find, and each
failing check costs one warning, in the order of the list. One more failing check changes nothing else, and another order
of the checks changes neither the verdict nor what is listed, but for its order. -/
theorem analyze_isolates_failures (checks : List ListedCheck) :
    let ctx := LintContext.ofRules rules start
    let failures := fun cs : List ListedCheck => cs.filterMap (·.warning? ctx)
    ∃ report, analyze (checks.map ListedCheck.shared) rules start = .ok report ∧
      StablySorted (checks.flatMap (·.findings ctx)) report.findings ∧
      report.errors = messagesOf .error report.findings ∧
      report.warnings = messagesOf .warning report.findings ++ failures checks ∧
      (∀ before c after, before ++ after = checks →
        analyze ((before ++ .failing c :: after).map ListedCheck.shared) rules start =
          .ok { report with
            warnings := messagesOf .warning report.findings ++ failures before ++ c.warning ctx :: failures after }) ∧
      ∀ checks' : List ListedCheck, checks'.Perm checks →
        ∃ report', analyze (checks'.map ListedCheck.shared) rules start = .ok report' ∧ SameVerdict report' report := by
  intro ctx failures
  refine ⟨_, analyze_shared rules start checks, ?_, rfl, warnings_lintRules_toCheck rules start checks, ?_, ?_⟩
  · rw [lintRules_toCheck]
    exact stablySorted_mergeSort _
  · rintro before c after rfl
    rw [analyze_shared, lintRules_insert_failing]
  · exact fun checks' h => ⟨_, analyze_shared rules start checks', sameVerdict_of_perm rules start h⟩

end Reports

/-- Makes the context forget what it has split, and then asks for a rule past the end. -/
def lookPastEnd : Sharing (List Finding) := do
  modify fun s => { s with kept := [] }
  let ctx ← Sharing.context
  let _ ← Sharing.alternatives ctx.rules.length
  return []

theorem ends_lookPastEnd (ctx : LintContext) :
    Session.Ends (·.Intact ctx) lookPastEnd (.error (.error "list index out of range")) := by
  have hforget : Session.Ends (·.Intact ctx) (modify fun s => { s with kept := [] } : Sharing PUnit) (.ok ⟨⟩) :=
    fun _ h => ⟨rfl, h.unchanged, fun _ _ hkept => nomatch hkept⟩
  have hend : ruleAt? ctx.rules ctx.rules.length = none := List.getElem?_eq_none (Nat.le_refl _)
  exact hforget.bind (Sharing.ends_context.bind ((Sharing.ends_alternatives_none hend).bind_error _))

/-- A check that fails although it writes to the context. -/
def strayingCheck : FailingCheck where
  id := "straying"
  description := "Looks past the last rule"
  run s := .ofOutcome (lookPastEnd.outcome s)
  text _ := "list index out of range"
  fails ctx s h :=
    have ⟨hend, hintact⟩ := ends_lookPastEnd ctx s h
    ⟨_, hintact, congrArg (fun r => CheckRun.ofOutcome (r, _)) hend⟩

theorem analyze_isolates_failures_strayingCheck :
    let checks := [ListedCheck.failing strayingCheck, .builtin .delimiters, .failing strayingCheck]
    ∃ report, analyze (checks.map ListedCheck.shared) (documentRules "a ::= ( a ;".toList) none = .ok report ∧
      report.findings = [.inRule ⟨"a".toList, 1, 0, some 0⟩ .unbalancedParentheses] ∧
      report.warnings = ["Rule straying encountered an error: list index out of range",
        "Rule straying encountered an error: list index out of range"] := by
  intro checks
  obtain ⟨report, hrun, hsorted, -, hwarnings, -⟩ :=
    analyze_isolates_failures (documentRules "a ::= ( a ;".toList) none checks
  have hfound : (checks.flatMap fun c => c.findings (.ofRules (documentRules "a ::= ( a ;".toList) none)) =
      [.inRule ⟨"a".toList, 1, 0, some 0⟩ .unbalancedParentheses] := by decide +kernel
  have hfindings := List.perm_singleton.mp (hfound ▸ hsorted.perm)
  refine ⟨report, hrun, hfindings, hwarnings.trans ?_⟩
  rw [hfindings]
  rfl

/-! ### What a check that breaks off can leave behind -/

/-- A check that breaks off in every context. -/
def SharedCheck.BreaksOff (c : SharedCheck) : Prop :=
  ∀ s, (c.run s).interruption.isSome

/-- Takes the last alternative of the first rule and all undefined names away from the context, and fails. -/
def meddle : Sharing (List Finding) := do
  let as ← Sharing.alternatives 0
  modify fun s => { s with
    kept := (0, as.dropLast) :: s.kept
    graph := { s.graph with dangling := [] } }
  throw (.error "meddled")

/-- A check that writes to the context and fails. -/
def meddlingCheck : SharedCheck :=
  ⟨"meddling", "Writes to the context", fun s => .ofOutcome (meddle.outcome s)⟩

/-- A check that hands over a finding and fails. -/
def hastyCheck : SharedCheck :=
  ⟨"hasty", "Hands over a finding", fun s => ⟨[.noStartRule], some (.error "too soon"), s⟩⟩

/-- A check that fails with the number of rules that were split before. -/
def countingCheck : SharedCheck :=
  ⟨"counting", "Counts what was split", fun s => ⟨[], some (.error (toString s.kept.length)), s⟩⟩

/-- A check that asks to stop. -/
def stoppingCheck : SharedCheck :=
  ⟨"stopping", "Stops", fun s => ⟨[], some .stop, s⟩⟩

/-- A rule with an undefined name and an empty alternative. -/
def faultyRule : List Rule :=
  documentRules "a ::= b | ;".toList

theorem breaksOff_meddlingCheck : meddlingCheck.BreaksOff := by
  intro s
  change (CheckRun.ofOutcome (meddle.outcome s)).interruption.isSome = true
  rw [meddle, Session.outcome_bind]
  rcases (Sharing.alternatives 0).outcome s with ⟨_ | _, _⟩ <;> rfl

/-- Checks that always break off can hide what later checks would find, add findings, give other warnings in another
place of the list, and end the run. -/
theorem interrupted_checks_interfere :
    (∀ c ∈ [meddlingCheck, hastyCheck, countingCheck, stoppingCheck], c.BreaksOff) ∧
      (analyze [BuiltinCheck.undefined.shared] faultyRule none).map (·.errors) =
        .ok ["Rule 'a' line 1: reference to undefined rule 'b'"] ∧
      (analyze [meddlingCheck, BuiltinCheck.undefined.shared] faultyRule none).map (·.errors) = .ok [] ∧
      (analyze [BuiltinCheck.delimiters.shared] faultyRule none).map (·.errors) =
        .ok ["Rule 'a' line 1: empty alternative"] ∧
      (analyze [meddlingCheck, BuiltinCheck.delimiters.shared] faultyRule none).map (·.errors) = .ok [] ∧
      (analyze [hastyCheck] faultyRule none).map (·.findings) = .ok [.noStartRule] ∧
      (analyze [countingCheck, BuiltinCheck.delimiters.shared] faultyRule none).map (·.warnings) =
        .ok ["Rule counting encountered an error: 0"] ∧
      (analyze [BuiltinCheck.delimiters.shared, countingCheck] faultyRule none).map (·.warnings) =
        .ok ["Rule counting encountered an error: 1"] ∧
      (analyze [stoppingCheck] faultyRule none).map (·.findings) = .error .stop := by
  refine ⟨?_, ?_, ?_, ?_, ?_, ?_, ?_, ?_, rfl⟩
  · intro c hc
    simp only [List.mem_cons, List.not_mem_nil, or_false] at hc
    rcases hc with rfl | rfl | rfl | rfl
    · exact breaksOff_meddlingCheck
    all_goals exact fun _ => rfl
  all_goals decide +kernel

end GrammarText
