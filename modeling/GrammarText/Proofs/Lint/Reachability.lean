import GrammarText.Proofs.Lint.Verdict
import Mathlib.Logic.Relation

/-!
# Reachability

What the search through the dependency graph finds, said by chains of references: `Leads rules a b` if a chain, possibly
empty, leads from the name `a` to the name `b`. The search keeps an invariant, that every name that a visited one refers
to is visited or waits (`visit_closed`). So it ends with exactly the names that chains lead to (`mem_reachableFrom_iff`),
and the check reports the structural names that are left, each once and at its first definition
(`reachability_exact`).
-/

namespace GrammarText

/-- A definition of the one name refers to the other, which is defined as well. -/
def Refers (rules : List Rule) (a b : Text) : Prop :=
  b ∈ rules.map Rule.name ∧
    ∃ r ∈ rules, r.name = a ∧ ∃ alt ∈ r.alternatives, ∃ t ∈ alt.tokens, t.isReference = true ∧ t.text = b

/-- A chain of references, possibly empty, leads from the one name to the other. -/
def Leads (rules : List Rule) : Text → Text → Prop :=
  Relation.ReflTransGen (Refers rules)

/-! ### The search -/

namespace DependencyGraph

section Search

variable {g : DependencyGraph} {visited waiting : List Text} {n : Text}

theorem dependencies_of_lookup {ns : List Text} (h : g.edges.lookup n = some ns) : g.dependencies n = ns := by
  rw [dependencies, h, Option.getD_some]

theorem dependencies_of_lookup_eq_none (h : g.edges.lookup n = none) : g.dependencies n = [] := by
  rw [dependencies, h, Option.getD_none]

/-- Names are only visited once. -/
theorem visit_nodup (h : visited.Nodup) : (g.visit visited waiting).Nodup := by
  fun_induction visit g visited waiting with
  | case1 visited => exact h
  | case2 visited n waiting hn ih => exact ih h
  | case3 visited n waiting hn ns hns ih => exact ih (List.nodup_cons.2 ⟨by simpa using hn, h⟩)
  | case4 visited n waiting hn hnone ih => exact ih (List.nodup_cons.2 ⟨by simpa using hn, h⟩)

/-- Whatever the search finds was visited before, or a chain leads to it from a name that waited. -/
theorem of_mem_visit {m : Text} (h : m ∈ g.visit visited waiting) :
    m ∈ visited ∨ ∃ n ∈ waiting, Relation.ReflTransGen (fun a b => b ∈ g.dependencies a) n m := by
  fun_induction visit g visited waiting with
  | case1 visited => exact .inl h
  | case2 visited n waiting hn ih =>
    rcases ih h with hm | ⟨k, hk, hchain⟩
    · exact .inl hm
    · exact .inr ⟨k, List.mem_cons_of_mem n hk, hchain⟩
  | case3 visited n waiting hn ns hns ih =>
    rcases ih h with hm | ⟨k, hk, hchain⟩
    · rcases List.mem_cons.1 hm with rfl | hm
      · exact .inr ⟨m, List.mem_cons_self, .refl⟩
      · exact .inl hm
    · rcases List.mem_append.1 hk with hk | hk
      · exact .inr ⟨n, List.mem_cons_self, .head ((dependencies_of_lookup hns).symm ▸ hk) hchain⟩
      · exact .inr ⟨k, List.mem_cons_of_mem n hk, hchain⟩
  | case4 visited n waiting hn hnone ih =>
    rcases ih h with hm | ⟨k, hk, hchain⟩
    · rcases List.mem_cons.1 hm with rfl | hm
      · exact .inr ⟨m, List.mem_cons_self, .refl⟩
      · exact .inl hm
    · exact .inr ⟨k, List.mem_cons_of_mem n hk, hchain⟩

/-- Nothing that was visited or waited is lost. -/
theorem subset_visit : visited ++ waiting ⊆ g.visit visited waiting := by
  fun_induction visit g visited waiting with
  | case1 visited => rw [List.append_nil]; exact List.Subset.refl visited
  | case2 visited n waiting hn ih =>
    intro m hm
    simp only [List.mem_append, List.mem_cons] at hm
    rcases hm with hm | rfl | hm
    · exact ih (List.mem_append_left _ hm)
    · exact ih (List.mem_append_left _ (by simpa using hn))
    · exact ih (List.mem_append_right _ hm)
  | case3 visited n waiting hn ns hns ih =>
    intro m hm
    apply ih
    simp only [List.mem_append, List.mem_cons] at hm ⊢
    tauto
  | case4 visited n waiting hn hnone ih =>
    intro m hm
    apply ih
    simp only [List.mem_append, List.mem_cons] at hm ⊢
    tauto

/-- Every name that a visited one refers to is visited or waits: so at the end all of them are visited. -/
theorem visit_closed (h : ∀ a ∈ visited, ∀ b ∈ g.dependencies a, b ∈ visited ∨ b ∈ waiting) :
    ∀ a ∈ g.visit visited waiting, ∀ b ∈ g.dependencies a, b ∈ g.visit visited waiting := by
  fun_induction visit g visited waiting with
  | case1 visited => exact fun a ha b hb => (h a ha b hb).resolve_right List.not_mem_nil
  | case2 visited n waiting hn ih =>
    apply ih
    intro a ha b hb
    rcases h a ha b hb with hb | hb
    · exact .inl hb
    · rcases List.mem_cons.1 hb with rfl | hb
      · exact .inl (by simpa using hn)
      · exact .inr hb
  | case3 visited n waiting hn ns hns ih =>
    apply ih
    intro a ha b hb
    simp only [List.mem_cons, List.mem_append]
    rcases List.mem_cons.1 ha with rfl | ha
    · exact .inr (.inl (dependencies_of_lookup hns ▸ hb))
    · have := h a ha b hb
      simp only [List.mem_cons] at this
      tauto
  | case4 visited n waiting hn hnone ih =>
    apply ih
    intro a ha b hb
    rcases List.mem_cons.1 ha with rfl | ha
    · rw [dependencies_of_lookup_eq_none hnone] at hb
      cases hb
    · have := h a ha b hb
      simp only [List.mem_cons] at this ⊢
      tauto

/-- The search finds what chains of edges lead to, and nothing else. -/
theorem mem_reachableFrom {start m : Text} :
    m ∈ g.reachableFrom start ↔ Relation.ReflTransGen (fun a b => b ∈ g.dependencies a) start m := by
  constructor
  · intro h
    obtain ⟨n, hn, hchain⟩ := (of_mem_visit h).resolve_left List.not_mem_nil
    rwa [← List.mem_singleton.1 hn]
  · intro hchain
    induction hchain with
    | refl => exact subset_visit (List.mem_append_right _ List.mem_cons_self)
    | tail _ hstep ih => exact visit_closed (fun a ha => absurd ha List.not_mem_nil) _ ih _ hstep

end Search

end DependencyGraph

/-! ### The graph of a list of rules -/

section Graph

variable {rules : List Rule}

/-- What no bar satisfies is found in the alternatives exactly if it is found in the body. -/
theorem exists_mem_alternatives {body : List Token} {p : Token → Prop} (hp : ∀ t, t.isOp ['|'] = true → ¬p t) :
    (∃ a ∈ alternatives body, ∃ t ∈ a.tokens, p t) ↔ ∃ t ∈ body, p t := by
  have hnone := (forall_alternatives (p := fun piece => ∀ t ∈ piece, ¬p t)).trans (@forall_splitBars body _ hp)
  simpa using not_congr hnone

theorem mem_referencesOf {keep : Text → Bool} {a b : Text} :
    b ∈ referencesOf rules keep a ↔ keep b = true ∧ ∃ r ∈ rules, r.name = a ∧ b ∈ referencedNames r.body := by
  simp only [referencesOf, List.mem_eraseDups, List.mem_flatMap, List.mem_filter, beq_iff_eq]
  tauto

/-- The edges of the graph are the references between defined names. -/
theorem mem_dependencies_iff {a b : Text} : b ∈ (DependencyGraph.ofRules rules).dependencies a ↔ Refers rules a b := by
  have href : ∀ r : Rule, b ∈ referencedNames r.body ↔
      ∃ alt ∈ r.alternatives, ∃ t ∈ alt.tokens, t.isReference = true ∧ t.text = b := by
    intro r
    have hbar : ∀ t : Token, t.isOp ['|'] = true → ¬(t.isReference = true ∧ t.text = b) := by
      intro t hb
      simp [Token.isReference, kind_of_isOp hb]
    rw [mem_referencedNames]
    exact (exists_mem_alternatives hbar).symm
  simp only [DependencyGraph.dependencies, DependencyGraph.ofRules, lookup_map_pair, List.mem_eraseDups, Refers, ← href]
  split
  · rw [Option.getD_some, mem_referencesOf, isDefined_iff]
  · rename_i ha
    refine ⟨fun h => absurd h List.not_mem_nil, ?_⟩
    rintro ⟨-, r, hr, rfl, -⟩
    exact absurd (List.mem_map_of_mem hr) ha

theorem mem_reachableFrom_iff {start n : Text} :
    n ∈ (DependencyGraph.ofRules rules).reachableFrom start ↔ Leads rules start n := by
  rw [DependencyGraph.mem_reachableFrom, Leads]
  simp only [mem_dependencies_iff]

/-- No chain leads out of names that refer to one another only. -/
theorem not_leads_of_closed {ns : List Text} {a b : Text} (ha : a ∈ ns) (hb : b ∉ ns)
    (hclosed : ∀ n ∈ ns, ∀ m ∈ (DependencyGraph.ofRules rules).dependencies n, m ∈ ns) : ¬Leads rules a b := by
  intro hleads
  refine hb ?_
  clear hb
  induction hleads with
  | refl => exact ha
  | tail _ hstep ih => exact hclosed _ ih _ (mem_dependencies_iff.2 hstep)

end Graph

/-! ### The check -/

section Check

variable {rules : List Rule} {given : Option Text} {start : Text}

/-- The rule stands at the index, and no rule before it has its name. -/
def IsFirst (rules : List Rule) (r : Rule) (i : Nat) : Prop :=
  rules[i]? = some r ∧ ∀ q ∈ rules.take i, q.name ≠ r.name

/-- What the check for reachability reports about rules. -/
def unreachableFindings (rules : List Rule) (given : Option Text) : List Finding :=
  (BuiltinCheck.reachability.findings (.ofRules rules given)).filter (·.id == "unreachable-rule")

/-- Every name that a rule has is defined a first time. -/
theorem exists_isFirst {n : Text} (h : n ∈ rules.map Rule.name) : ∃ r i, IsFirst rules r i ∧ r.name = n := by
  have hlt : rules.findIdx (·.name == n) < rules.length := by
    obtain ⟨r, hr, hn⟩ := List.mem_map.1 h
    exact List.findIdx_lt_length_of_exists ⟨r, hr, beq_iff_eq.2 hn⟩
  have hname : (rules[rules.findIdx (·.name == n)]).name = n := by
    simpa using List.findIdx_getElem (p := fun r : Rule => r.name == n) (w := hlt)
  refine ⟨_, _, ⟨List.getElem?_eq_getElem hlt, fun q hq => ?_⟩, hname⟩
  obtain ⟨j, hj, rfl⟩ := List.mem_take_iff_getElem.1 hq
  have hbefore : j < rules.findIdx (·.name == n) := by omega
  rw [hname]
  simpa using List.not_of_lt_findIdx hbefore

/-- Only one definition of a name is the first. -/
theorem IsFirst.unique {r q : Rule} {i j : Nat} (hr : IsFirst rules r i) (hq : IsFirst rules q j) (h : r.name = q.name) :
    r = q ∧ i = j := by
  have hnot : ∀ {r q : Rule} {i j : Nat}, IsFirst rules r i → IsFirst rules q j → r.name = q.name → ¬i < j := by
    intro r q i j hr hq h hij
    obtain ⟨hi, rfl⟩ := List.getElem?_eq_some_iff.1 hr.1
    exact hq.2 _ (List.mem_take_iff_getElem.2 ⟨i, by omega, rfl⟩) h
  have hij : i = j := by
    have h1 := hnot hr hq h
    have h2 := hnot hq hr h.symm
    omega
  refine ⟨Option.some.inj ?_, hij⟩
  rw [← hr.1, ← hq.1, hij]

/-- The findings about rules, without the one about the start rule. -/
theorem unreachableFindings_eq (h : inferStartRule rules given = some start) :
    unreachableFindings rules given = rules.zipIdx.filterMap fun (r, i) =>
      if !((DependencyGraph.ofRules rules).reachableFrom start).contains r.name && isStructuralName r.name &&
          !isDefined (rules.take i) r.name then
        some (ruleFinding r i (.unreachable start))
      else none := by
  have hstart : (LintContext.ofRules rules given).startRule = some start := h
  rw [unreachableFindings, BuiltinCheck.findings, findUnreachable, hstart, List.filter_append]
  have hfirst : ∀ c : Bool, (if c then [Finding.undefinedStart start] else []).filter (·.id == "unreachable-rule") = [] := by
    intro c
    cases c <;> simp [Finding.id]
  rw [hfirst, List.nil_append]
  refine Eq.trans (List.filter_eq_self.2 fun f hf => ?_) rfl
  obtain ⟨⟨r, i⟩, -, hr⟩ := List.mem_filterMap.1 hf
  dsimp only at hr
  split at hr
  · obtain rfl := Option.some.inj hr
    rfl
  · cases hr

theorem mem_unreachableFindings_iff (h : inferStartRule rules given = some start) {f : Finding} :
    f ∈ unreachableFindings rules given ↔ ∃ r i, IsFirst rules r i ∧ ¬Leads rules start r.name ∧
      isStructuralName r.name = true ∧ f = ruleFinding r i (.unreachable start) := by
  rw [unreachableFindings_eq h, List.mem_filterMap]
  have htest : ∀ (r : Rule) (i : Nat), (!((DependencyGraph.ofRules rules).reachableFrom start).contains r.name &&
      isStructuralName r.name && !isDefined (rules.take i) r.name) = true ↔
      ¬Leads rules start r.name ∧ isStructuralName r.name = true ∧ ∀ q ∈ rules.take i, q.name ≠ r.name := by
    intro r i
    simp [isDefined, mem_reachableFrom_iff, and_assoc]
  constructor
  · rintro ⟨⟨r, i⟩, hmem, hf⟩
    dsimp only at hf
    split at hf
    · rename_i hc
      obtain ⟨hleads, hname, hfirst⟩ := (htest r i).1 hc
      exact ⟨r, i, ⟨List.mem_zipIdx_iff_getElem?.1 hmem, hfirst⟩, hleads, hname, (Option.some.inj hf).symm⟩
    · cases hf
  · rintro ⟨r, i, ⟨hget, hfirst⟩, hleads, hname, rfl⟩
    refine ⟨(r, i), List.mem_zipIdx_iff_getElem?.2 hget, ?_⟩
    dsimp only
    rw [if_pos ((htest r i).2 ⟨hleads, hname, hfirst⟩)]

/-- The findings are in the order of the rules. -/
theorem pairwise_unreachableFindings (h : inferStartRule rules given = some start) :
    (unreachableFindings rules given).Pairwise fun f g => f.ruleKey < g.ruleKey := by
  rw [unreachableFindings_eq h]
  refine (pairwise_zipIdx rules).filterMap _ fun x y hlt f hf g hg => ?_
  dsimp only at hf hg
  split at hf
  · split at hg
    · obtain rfl := Option.some.inj hf
      obtain rfl := Option.some.inj hg
      simpa [Finding.ruleKey, Finding.site?, ruleFinding] using hlt
    · cases hg
  · cases hf

/-- Reachability is exact. Starting from the rule that is inferred, the search ends with exactly the names that chains of
references lead to, each once. The check reports exactly the structural names that no chain leads to: it reports each once,
at the index of its first definition, and in the order of these definitions. -/
theorem reachability_exact (h : inferStartRule rules given = some start) :
    ((DependencyGraph.ofRules rules).reachableFrom start).Nodup ∧
    (∀ n, n ∈ (DependencyGraph.ofRules rules).reachableFrom start ↔ Leads rules start n) ∧
    (∀ f, f ∈ unreachableFindings rules given ↔ ∃ r i, IsFirst rules r i ∧ ¬Leads rules start r.name ∧
      isStructuralName r.name = true ∧ f = ruleFinding r i (.unreachable start)) ∧
    (∀ n ∈ rules.map Rule.name, ¬Leads rules start n → isStructuralName n = true → ∃ r i, IsFirst rules r i ∧ r.name = n ∧
      (unreachableFindings rules given).filter (fun f => f.site?.any (·.rule == n)) =
        [ruleFinding r i (.unreachable start)]) ∧
    (unreachableFindings rules given).Pairwise fun f g => f.ruleKey < g.ruleKey := by
  have hmem := @mem_unreachableFindings_iff _ _ _ h
  have hordered := pairwise_unreachableFindings h
  refine ⟨DependencyGraph.visit_nodup List.nodup_nil, fun _ => mem_reachableFrom_iff, fun _ => hmem, ?_, hordered⟩
  intro n hn hleads hname
  obtain ⟨r, i, hfirst, rfl⟩ := exists_isFirst hn
  refine ⟨r, i, hfirst, rfl, ?_⟩
  -- all findings about the name are this one, and no two findings are the same
  have hnodup : (unreachableFindings rules given).Nodup := hordered.imp fun hlt => by
    rintro rfl
    exact Int.lt_irrefl _ hlt
  have hself : ruleFinding r i (.unreachable start) ∈
      (unreachableFindings rules given).filter (fun f => f.site?.any (·.rule == r.name)) := by
    refine List.mem_filter.2 ⟨hmem.2 ⟨r, i, hfirst, hleads, hname, rfl⟩, ?_⟩
    simp [ruleFinding, Finding.site?]
  have hall : ∀ f ∈ (unreachableFindings rules given).filter (fun f => f.site?.any (·.rule == r.name)),
      f = ruleFinding r i (.unreachable start) := by
    intro f hf
    obtain ⟨hf, habout⟩ := List.mem_filter.1 hf
    obtain ⟨q, j, hq, -, -, rfl⟩ := hmem.1 hf
    have hqr : q.name = r.name := by simpa [ruleFinding, Finding.site?] using habout
    obtain ⟨rfl, rfl⟩ := hq.unique hfirst hqr
    rfl
  have hone : ((unreachableFindings rules given).filter (fun f => f.site?.any (·.rule == r.name))).length = 1 := by
    have hle := List.nodup_replicate.1 (List.eq_replicate_of_mem hall ▸ hnodup.filter _)
    have hpos := List.length_pos_of_mem hself
    omega
  rw [List.eq_replicate_of_mem hall, hone, List.replicate_one]

/-- A rule that refers to itself, one that is defined twice, and two that nothing but themselves leads to. -/
def loopRules : Text :=
  "sum ::= term | sum ;\nold ::= sum ;\nterm ::= [0-9] ;\nterm ::= NUM gone ;\nold ::= lost ;\nlost ::= old ;".toList

theorem reachability_exact_loopRules :
    inferStartRule (documentRules loopRules) none = some "sum".toList ∧
      Leads (documentRules loopRules) "sum".toList "term".toList ∧
      ¬Leads (documentRules loopRules) "sum".toList "old".toList ∧
      ∃ r i, IsFirst (documentRules loopRules) r i ∧ r.name = "old".toList ∧
        (unreachableFindings (documentRules loopRules) none).filter (fun f => f.site?.any (·.rule == "old".toList)) =
          [ruleFinding r i (.unreachable "sum".toList)] := by
  have hstart : inferStartRule (documentRules loopRules) none = some "sum".toList := by decide +kernel
  have hterm : Leads (documentRules loopRules) "sum".toList "term".toList :=
    .single (mem_dependencies_iff.1 (by decide +kernel))
  have hold : ¬Leads (documentRules loopRules) "sum".toList "old".toList :=
    not_leads_of_closed (List.mem_cons_self (l := ["term".toList])) (by decide) (by decide +kernel)
  obtain ⟨-, -, -, hreported, -⟩ := reachability_exact hstart
  exact ⟨hstart, hterm, hold, hreported _ (by decide +kernel) hold (by decide +kernel)⟩

end Check

end GrammarText
