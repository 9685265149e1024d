import GrammarText.Proofs.Layout.Spacing
import GrammarText.Proofs.Lint.Reachability

/-!
# Structural names and structural rules

A rule is classed by its name: as a rule for tokens if the name is an upper-case word, else as a structural rule if the
name begins with a lower-case letter or an underscore. The choice of the start rule and the check for reachability ask
the second question only. The two agree on all names but the upper-case words that begin with an underscore, which are
classed as terminal and pass for structural names (`isStructuralName_iff`). So these are the only terminal rules that
are reported as unreachable or chosen to start from, and `structural_agreement` says exactly when that happens.
-/

namespace GrammarText

/-! ### Names -/

section Names

variable {first rest first' rest' : Char → Bool} {t n : Text}

/-- A name that is classed as terminal and begins with an underscore. -/
def UnderscoredTerminal (n : Text) : Prop :=
  nameClass n = .terminal ∧ n.head? = some '_'

instance (n : Text) : Decidable (UnderscoredTerminal n) :=
  inferInstanceAs (Decidable (_ ∧ _))

/-- A text has a shape if it consists of a first character and a rest, up to a final line feed. -/
theorem hasShape_iff : hasShape first rest t = true ↔
    ∃ c r, dropFinalNewline t = c :: r ∧ first c = true ∧ ∀ d ∈ r, rest d = true := by
  rw [hasShape]
  cases dropFinalNewline t with
  | nil => simp
  | cons c r => simp

theorem head?_of_dropFinalNewline {c : Char} {r : Text} (h : dropFinalNewline t = c :: r) : t.head? = some c := by
  have hprefix : dropFinalNewline t <+: t := by
    rw [dropFinalNewline]
    split
    · exact List.dropLast_prefix t
    · exact List.prefix_rfl
  rw [h] at hprefix
  obtain ⟨s, rfl⟩ := hprefix
  rfl

theorem isWordChar_of_upper_or_digit {c : Char} (h : (c == '_' || c.isUpper || c.isDigit) = true) :
    isWordChar c = true := by
  rw [Bool.or_eq_true] at h
  rcases h with hname | hdigit
  · have hstart : (c == '_' || (c.isUpper || c.isLower)) = true := by
      rw [← Bool.or_assoc, hname, Bool.true_or]
    have hletter := isLetter_of_isNameStart hstart
    rw [isWordChar, isAlphanumeric, ← Bool.or_assoc, Bool.or_comm (c == '_'), hletter, Bool.true_or]
  · have hrun : inRuns numericRuns c.toNat = true := by
      have hc := (isDigit_iff c).1 hdigit
      rw [numericRuns, inRuns, if_neg (by omega), decide_eq_true_eq]
      omega
    rw [isWordChar, isAlphanumeric, hrun, Bool.or_true, Bool.or_true]

/-- What passes for a structural name is classed as structural, or it is an upper-case word with an underscore in front. -/
theorem isStructuralName_iff (n : Text) :
    isStructuralName n = true ↔ nameClass n = .structural ∨ UnderscoredTerminal n := by
  cases hterminal : isTerminalName n with
  | false =>
    cases hs : isStructuralName n <;> simp [UnderscoredTerminal, nameClass, hterminal, hs]
  | true =>
    have hclass : nameClass n = .terminal := by rw [nameClass, if_pos hterminal]
    obtain ⟨c, r, hn, hc, hr⟩ := hasShape_iff.1 hterminal
    rw [UnderscoredTerminal, hclass, head?_of_dropFinalNewline hn, isStructuralName, hasShape_iff]
    simp only [reduceCtorEq, true_and, false_or, Option.some.injEq]
    constructor
    · rintro ⟨c', r', hn', hc', -⟩
      obtain ⟨rfl, rfl⟩ := List.cons.inj (hn.symm.trans hn')
      -- no letter is both a capital and a small one
      by_contra hne
      have hupper : c.isUpper = true := by simpa [hne] using hc
      have hlower : c.isLower = true := by simpa [hne] using hc'
      have hz : c.val.toNat ≤ 'Z'.val.toNat := (of_decide_eq_true hupper : 'A'.val ≤ c.val ∧ c.val ≤ 'Z'.val).2
      have ha : 'a'.val.toNat ≤ c.val.toNat := of_decide_eq_true (Bool.and_eq_true_iff.1 hlower).1
      exact absurd (Nat.le_trans ha hz) (by decide)
    · rintro rfl
      exact ⟨'_', r, hn, rfl, fun d hd => isWordChar_of_upper_or_digit (hr d hd)⟩

end Names

/-! ### The start rule and the unreachable rules -/

/-- Whether the rule is classed as structural. -/
def Rule.isStructural (r : Rule) : Bool :=
  r.nameClass == .structural

/-- The place of a rule as a whole. -/
def ruleSite (r : Rule) (i : Nat) : Site :=
  ⟨r.name, r.start.line, i, none⟩

section Rules

variable {rules : List Rule} {given : Option Text} {r : Rule}

theorem isStructural_iff : r.isStructural = true ↔ nameClass r.name = .structural :=
  beq_iff_eq

/-- The first rule that passes for structural is the first structural one exactly if no upper-case word with an underscore
in front comes before it. -/
theorem find?_isStructuralName_iff {q : Rule} (h : rules.find? Rule.isStructural = some q) :
    (rules.find? fun r => isStructuralName r.name).map Rule.name = some q.name ↔
      ∀ p ∈ rules.takeWhile (!·.isStructural), ¬UnderscoredTerminal p.name := by
  have hq : nameClass q.name = .structural := isStructural_iff.1 (List.find?_some h)
  induction rules with
  | nil => cases h
  | cons r rules ih =>
    cases hr : r.isStructural with
    | true =>
      have hname : isStructuralName r.name = true := (isStructuralName_iff _).2 (.inl (isStructural_iff.1 hr))
      rw [List.find?_cons_of_pos hr, Option.some.injEq] at h
      rw [List.find?_cons_of_pos (p := fun r : Rule => isStructuralName r.name) hname, List.takeWhile_cons_of_neg (by simp [hr]), h]
      simp
    | false =>
      rw [List.find?_cons_of_neg (by simp [hr])] at h
      rw [List.takeWhile_cons_of_pos (by simp [hr]), List.forall_mem_cons]
      by_cases hu : UnderscoredTerminal r.name
      · have hname : isStructuralName r.name = true := (isStructuralName_iff _).2 (.inr hu)
        have hne : r.name ≠ q.name := fun heq => by simp [isStructural_iff.2 (heq ▸ hq)] at hr
        rw [List.find?_cons_of_pos (p := fun r : Rule => isStructuralName r.name) hname]
        simp [hne, hu]
      · have hname : ¬isStructuralName r.name = true := by
          rw [isStructuralName_iff, ← isStructural_iff]
          simp [hr, hu]
        rw [List.find?_cons_of_neg (p := fun r : Rule => isStructuralName r.name) hname, and_iff_right hu]
        exact ih h

/-- Without a given name, the start rule is the first that passes for structural, if there is one. -/
theorem inferStartRule_of_find? (hgiven : given.getD [] = []) (h : rules.find? (fun r => isStructuralName r.name) = some r) :
    inferStartRule rules given = some r.name := by
  rcases given with _ | _ | ⟨c, name⟩
  · simp [inferStartRule, h]
  · simp [inferStartRule, h]
  · cases hgiven

theorem inferStartRule_eq_some_iff {q : Rule} (hgiven : given.getD [] = []) (h : rules.find? Rule.isStructural = some q) :
    inferStartRule rules given = some q.name ↔
      ∀ p ∈ rules.takeWhile (!·.isStructural), ¬UnderscoredTerminal p.name := by
  have hq : isStructuralName q.name = true := (isStructuralName_iff _).2 (.inl (isStructural_iff.1 (List.find?_some h)))
  obtain ⟨r, hr⟩ := Option.isSome_iff_exists.1
    (List.find?_isSome.2 ⟨q, List.mem_of_find?_eq_some h, hq⟩ : (rules.find? fun r => isStructuralName r.name).isSome = true)
  rw [← find?_isStructuralName_iff h, inferStartRule_of_find? hgiven hr, hr, Option.map_some]

/-- Without a rule to start from there is nothing to reach. -/
theorem unreachableFindings_of_none (h : inferStartRule rules given = none) : unreachableFindings rules given = [] := by
  have hstart : (LintContext.ofRules rules given).startRule = none := h
  rw [unreachableFindings, BuiltinCheck.findings, findUnreachable, hstart]
  simp [Finding.id]

/-- What is reported as unreachable: the first definitions of names that pass for structural and that no chain of
references leads to. -/
theorem mem_unreachableFindings {f : Finding} : f ∈ unreachableFindings rules given ↔
    ∃ start r i, inferStartRule rules given = some start ∧ IsFirst rules r i ∧ ¬Leads rules start r.name ∧
      (r.isStructural = true ∨ UnderscoredTerminal r.name) ∧ f = .inRule (ruleSite r i) (.unreachable start) := by
  cases h : inferStartRule rules given with
  | none => simp [unreachableFindings_of_none h]
  | some start =>
    rw [mem_unreachableFindings_iff h]
    simp only [isStructuralName_iff, ← isStructural_iff, Option.some.injEq, exists_and_left, exists_eq_left']
    rfl

/-- How far the linter agrees with the classes of names. It reports a rule as unreachable only if the rule is structural, or
terminal with an underscore in front of its name. All the rules that it reports are structural exactly if every rule of the
second kind is reached. Without a given name it starts from the first structural rule exactly if no rule of the second
kind comes before. -/
theorem structural_agreement (rules : List Rule) (given : Option Text) :
    (∀ f ∈ unreachableFindings rules given, ∃ r i, IsFirst rules r i ∧ f.site? = some (ruleSite r i) ∧
      (r.nameClass = .structural ∨ UnderscoredTerminal r.name)) ∧
    ((∀ f ∈ unreachableFindings rules given, ∃ r i, IsFirst rules r i ∧ f.site? = some (ruleSite r i) ∧
        r.nameClass = .structural) ↔
      ∀ start, inferStartRule rules given = some start → ∀ r ∈ rules, UnderscoredTerminal r.name →
        Leads rules start r.name) ∧
    (given.getD [] = [] → ∀ q, rules.find? Rule.isStructural = some q →
      (inferStartRule rules given = some q.name ↔
        ∀ r ∈ rules.takeWhile (!·.isStructural), ¬UnderscoredTerminal r.name)) := by
  refine ⟨fun f hf => ?_, ⟨fun h start hstart r hr hu => ?_, fun h f hf => ?_⟩, fun hgiven q hq =>
    inferStartRule_eq_some_iff hgiven hq⟩
  · obtain ⟨start, r, i, -, hfirst, -, hname, rfl⟩ := mem_unreachableFindings.1 hf
    exact ⟨r, i, hfirst, rfl, hname.imp_left isStructural_iff.1⟩
  · by_contra hleads
    obtain ⟨q, i, hfirst, hq⟩ := exists_isFirst (List.mem_map_of_mem hr)
    rw [← hq] at hu hleads
    obtain ⟨p, j, -, hsite, hp⟩ := h _ (mem_unreachableFindings.2 ⟨start, q, i, hstart, hfirst, hleads, .inr hu, rfl⟩)
    have hname : q.name = p.name := congrArg Site.rule (Option.some.inj hsite)
    have hclass : nameClass q.name = .structural := hname ▸ hp
    exact absurd (hclass.symm.trans hu.1) (by simp)
  · obtain ⟨start, r, i, hstart, hfirst, hleads, hname, rfl⟩ := mem_unreachableFindings.1 hf
    have hnot : ¬UnderscoredTerminal r.name := fun hu =>
      hleads (h start hstart r (List.mem_of_getElem? hfirst.1) hu)
    exact ⟨r, i, hfirst, rfl, isStructural_iff.1 (hname.resolve_right hnot)⟩

/-- A rule for phrases and one for tokens that nothing refers to. -/
def privateToken : Text :=
  "sum ::= 'x' ;\n_NUM ::= [0-9] ;".toList

/-- A rule for tokens in front of the rules for phrases. -/
def leadingToken : Text :=
  "_NUM ::= [0-9] ;\nsum ::= _NUM ;".toList

/-- The upper-case word is reported as a rule for phrases that is out of reach, and is chosen to start from in front of the
only structural rule. -/
theorem privateToken_reported :
    nameClass "_NUM".toList = .terminal ∧
      (∃ f ∈ unreachableFindings (documentRules privateToken) none, f.site?.map Site.rule = some "_NUM".toList) ∧
      inferStartRule (documentRules leadingToken) none = some "_NUM".toList ∧
      ((documentRules leadingToken).find? Rule.isStructural).map Rule.name = some "sum".toList := by
  have hstart : inferStartRule (documentRules privateToken) none = some "sum".toList := by decide +kernel
  obtain ⟨r, i, hfirst, hr⟩ : ∃ r i, IsFirst (documentRules privateToken) r i ∧ r.name = "_NUM".toList :=
    exists_isFirst (by decide +kernel)
  have hleads : ¬Leads (documentRules privateToken) "sum".toList r.name := by
    rw [hr]
    exact not_leads_of_closed (List.mem_singleton_self _) (by decide) (by decide +kernel)
  have hunder : UnderscoredTerminal r.name := by
    rw [hr]
    decide +kernel
  refine ⟨by decide +kernel, ⟨.inRule (ruleSite r i) (.unreachable "sum".toList), ?_, congrArg some hr⟩,
    by decide +kernel, by decide +kernel⟩
  exact mem_unreachableFindings.2 ⟨_, r, i, hstart, hfirst, hleads, .inr hunder, rfl⟩

end Rules

end GrammarText
