import GrammarText.Proofs.Lint.Independence
import GrammarText.Proofs.Lint.Verdict

/-!
# Names that no rule has

The check for undefined names looks them up in a table with one entry for a name, which has the references of all its
definitions, and reports them for each definition on its own. The table hides nothing and adds nothing, since what a
definition refers to is missing for all of them or for none (`mem_danglingOf_iff`). So a rule's findings are the names
among its references that no rule has, each once and in the order in which they first appear
(`map_fst_missingReferences`, `pairwise_eraseDups_filter`), each at the first alternative that refers to it
(`firstRefers_of_mem`). `undefined_reported` says it for all rules.
-/

namespace GrammarText

/-! ### Each name once -/

section Lists

variable {α β : Type} [BEq α] [LawfulBEq α]

/-- What is kept stands in the order in which it first appears, whatever else is left out. -/
theorem pairwise_eraseDups_filter (p : α → Bool) (l : List α) :
    (l.filter p).eraseDups.Pairwise fun x y => l.idxOf x < l.idxOf y := by
  induction l using List.reverseRecOn with
  | nil => exact List.Pairwise.nil
  | append_singleton l a ih =>
    have hold : ∀ x ∈ (l.filter p).eraseDups, x ∈ l ∧ (l ++ [a]).idxOf x = l.idxOf x := fun x hx =>
      have hl := List.mem_of_mem_filter (List.mem_eraseDups.1 hx)
      ⟨hl, List.idxOf_append_of_mem hl⟩
    have hkept : (l.filter p).eraseDups.Pairwise fun x y => (l ++ [a]).idxOf x < (l ++ [a]).idxOf y :=
      ih.imp_of_mem fun hx hy hlt => by rwa [(hold _ hx).2, (hold _ hy).2]
    rw [List.filter_append, List.eraseDups_append]
    by_cases hnew : p a = true ∧ a ∉ l
    · have hlast : ((List.filter p [a]).removeAll (l.filter p)).eraseDups = [a] := by
        simp [List.removeAll, List.eraseDups_cons, hnew.1, hnew.2]
      rw [hlast]
      refine List.pairwise_append.2 ⟨hkept, List.pairwise_singleton _ a, fun x hx y hy => ?_⟩
      rw [(hold x hx).2, List.mem_singleton.1 hy, List.idxOf_append_of_notMem hnew.2]
      exact Nat.lt_add_right _ (List.idxOf_lt_length_of_mem (hold x hx).1)
    · have hnone : (List.filter p [a]).removeAll (l.filter p) = [] := by
        rw [not_and_not_right] at hnew
        by_cases hp : p a = true
        · simp [List.removeAll, hp, hnew hp]
        · simp [List.removeAll, hp]
      rwa [hnone, List.eraseDups_nil, List.append_nil]

/-- Of the pairs with one first part, the first one is kept. -/
theorem find?_of_mem_eraseDupsBy_fst {l : List (α × β)} {x : α × β}
    (h : x ∈ l.eraseDupsBy fun x y => x.1 == y.1) : l.find? (·.1 == x.1) = some x := by
  induction hn : l.length using Nat.strongRecOn generalizing l with
  | ind n ih =>
    match l with
    | [] => cases h
    | y :: l =>
      rw [List.eraseDupsBy_cons] at h
      rcases List.mem_cons.1 h with rfl | h
      · exact List.find?_cons_of_pos (beq_self_eq_true _)
      · have hlt : (l.filter fun b => decide ((b.1 == y.1) = false)).length < n :=
          Nat.lt_of_le_of_lt (List.length_filter_le _ _) (by rw [← hn]; exact Nat.lt_succ_self _)
        have hfound := ih _ hlt h rfl
        have hxy : (x.1 == y.1) = false := by
          have hmem := List.mem_of_find?_eq_some hfound
          simpa using (List.mem_filter.1 hmem).2
        rw [List.find?_cons_of_neg (by simpa [BEq.comm] using hxy), ← hfound, List.find?_filter]
        congr 1
        funext b
        by_cases hb : b.1 = x.1 <;> simp [hb, hxy]

omit [BEq α] [LawfulBEq α] in
/-- If the members that pass the test are all the same, and none is there twice, there is one. -/
theorem filter_eq_singleton {l : List α} {p : α → Bool} {x : α} (hnodup : l.Nodup) (hmem : x ∈ l) (hx : p x = true)
    (hall : ∀ y ∈ l, p y = true → y = x) : l.filter p = [x] := by
  have hsame : ∀ y ∈ l.filter p, y = x := fun y hy => hall y (List.mem_of_mem_filter hy) (List.of_mem_filter hy)
  have hle := List.nodup_replicate.1 (List.eq_replicate_of_mem hsame ▸ hnodup.filter p)
  have hpos := List.length_pos_of_mem (List.mem_filter.2 ⟨hmem, hx⟩)
  rw [List.eq_replicate_of_mem hsame, Nat.le_antisymm hle hpos, List.replicate_one]

end Lists

/-! ### The references of a rule -/

section Rules

variable {r : Rule} {n : Text} {k : Nat}

/-- The alternative at the index is the first of the rule that refers to the name. -/
structure FirstRefers (r : Rule) (n : Text) (k : Nat) : Prop where
  refers : ∃ a, r.alternatives[k]? = some a ∧ n ∈ referencedNames a.tokens
  earlier : ∀ a ∈ r.alternatives.take k, n ∉ referencedNames a.tokens

theorem FirstRefers.unique {j : Nat} (hk : FirstRefers r n k) (hj : FirstRefers r n j) : k = j := by
  have hnot : ∀ {k j : Nat}, FirstRefers r n k → FirstRefers r n j → ¬k < j := by
    intro k j hk hj hlt
    obtain ⟨a, ha, hn⟩ := hk.refers
    obtain ⟨hlen, rfl⟩ := List.getElem?_eq_some_iff.1 ha
    exact hj.earlier _ (List.mem_take_iff_getElem.2 ⟨k, by omega, rfl⟩) hn
  have h1 := hnot hk hj
  have h2 := hnot hj hk
  omega

/-- Alternatives are numbered by their places. -/
theorem index_alternatives {a : Alternative} (h : r.alternatives[k]? = some a) : a.index = k := by
  rw [Rule.alternatives, alternatives, List.getElem?_map, List.getElem?_zipIdx] at h
  simp only [Option.map_map, Option.map_eq_some_iff] at h
  obtain ⟨ts, -, rfl⟩ := h
  simp

/-- What no bar satisfies is found in the pieces of a body as it is found in the body. -/
theorem flatMap_filter_splitBars {p : Token → Bool} (hp : ∀ t, t.isOp ['|'] = true → p t = false) (depth : Nat)
    (ts : List Token) : (splitBars depth ts).flatMap (List.filter p) = ts.filter p := by
  induction ts generalizing depth with
  | nil => rfl
  | cons t ts ih =>
    by_cases hb : t.isOp ['|'] = true ∧ depth = 0
    · rw [splitBars, if_pos hb, List.flatMap_cons, List.filter_nil, List.nil_append, ih,
        List.filter_cons_of_neg (by simp [hp t hb.1])]
    · obtain ⟨piece, pieces, hpieces, hsplit⟩ := splitBars_cons_of_not_bar ts hb
      have ih' := ih (depthAfter depth t)
      rw [hpieces, List.flatMap_cons] at ih'
      rw [hsplit, List.flatMap_cons, List.filter_cons, List.filter_cons, ← ih']
      split
      · exact List.cons_append
      · rfl

/-- The references of a rule are those of its alternatives, one after the other. -/
theorem flatMap_referencedNames (r : Rule) :
    r.alternatives.flatMap (fun a => referencedNames a.tokens) = referencedNames r.body := by
  have hbar : ∀ t : Token, t.isOp ['|'] = true → t.isReference = false := by
    intro t hb
    simp [Token.isReference, kind_of_isOp hb]
  rw [referencedNames, ← flatMap_filter_splitBars hbar 0 r.body, ← map_tokens_alternatives, List.flatMap_map,
    List.map_flatMap]
  rfl

/-- The names that are reported for a rule: the missing ones among its references, each once. -/
theorem map_fst_missingReferences (missing : List Text) (r : Rule) :
    (missingReferences missing r.alternatives).map Prod.fst =
      ((referencedNames r.body).filter missing.contains).eraseDups := by
  have hmap : ∀ l : List (Text × Alternative), (l.eraseDupsBy fun x y => x.1 == y.1).map Prod.fst =
      (l.map Prod.fst).eraseDups := fun l => (eraseDupsBy_map (fun _ _ => rfl) l).symm
  rw [missingReferences, hmap, ← flatMap_referencedNames, List.map_flatMap, List.filter_flatMap]
  simp only [List.map_map, Function.comp_def, List.map_id']

/-- A missing name is reported at the first alternative that refers to it. -/
theorem firstRefers_of_mem {missing : List Text} {x : Text × Alternative}
    (h : x ∈ missingReferences missing r.alternatives) : FirstRefers r x.1 x.2.index := by
  obtain ⟨n, a⟩ := x
  have hfound := find?_of_mem_eraseDupsBy_fst h
  rw [List.find?_flatMap] at hfound
  obtain ⟨before, b, after, hsplit, hb, hbefore⟩ := List.findSome?_eq_some_iff.1 hfound
  obtain ⟨m, hm, heq⟩ := List.mem_map.1 (List.mem_of_find?_eq_some hb)
  obtain ⟨rfl, rfl⟩ := Prod.mk.inj heq
  obtain ⟨hrefers, hmissing⟩ := List.mem_filter.1 hm
  have hget : r.alternatives[before.length]? = some b := by rw [hsplit]; simp
  rw [index_alternatives hget]
  refine ⟨⟨b, hget, hrefers⟩, fun c hc hearlier => ?_⟩
  rw [hsplit, List.take_left] at hc
  have hnone := List.find?_eq_none.1 (hbefore c hc) (m, c)
    (List.mem_map.2 ⟨m, List.mem_filter.2 ⟨hearlier, hmissing⟩, rfl⟩)
  simp at hnone

theorem exists_firstRefers (h : n ∈ referencedNames r.body) : ∃ k, FirstRefers r n k := by
  have hkept : n ∈ (missingReferences [n] r.alternatives).map Prod.fst := by
    rw [map_fst_missingReferences, List.mem_eraseDups]
    exact List.mem_filter.2 ⟨h, by simp⟩
  obtain ⟨⟨n, a⟩, hx, rfl⟩ := List.mem_map.1 hkept
  exact ⟨a.index, firstRefers_of_mem hx⟩

end Rules

/-! ### The findings -/

section Findings

variable {rules : List Rule} {given : Option Text} {r : Rule} {i k : Nat} {n : Text} {f : Finding}

/-- The rule at the index refers to the name, and no rule has the name. -/
structure Unresolved (rules : List Rule) (r : Rule) (i : Nat) (n : Text) : Prop where
  place : rules[i]? = some r
  referred : ∃ t ∈ r.body, t.isReference = true ∧ t.text = n
  missing : n ∉ rules.map Rule.name

/-- The finding that the rule at the index refers to an undefined name, first in the alternative of the given number. -/
def undefinedFinding (r : Rule) (i : Nat) (n : Text) (k : Nat) : Finding :=
  .inRule ⟨r.name, r.start.line, i, some k⟩ (if isTerminalName n then .undefinedToken n else .undefinedRule n)

/-- The index of the rule and the undefined name that a finding is about, if it is about one. -/
def Finding.reference? : Finding → Option (Nat × Text)
  | .inRule site (.undefinedRule n) | .inRule site (.undefinedToken n) => some (site.ruleIndex, n)
  | _ => none

@[simp] theorem reference?_undefinedFinding : (undefinedFinding r i n k).reference? = some (i, n) := by
  rw [undefinedFinding]
  split <;> rfl

/-- The table of undefined names does not tell the definitions of a name apart, and need not. -/
theorem mem_danglingOf_iff (h : rules[i]? = some r) :
    n ∈ (DependencyGraph.ofRules rules).danglingOf r.name ∧ n ∈ referencedNames r.body ↔ Unresolved rules r i n := by
  have hr := List.mem_of_getElem? h
  rw [mem_danglingOf, ← Bool.not_eq_true, isDefined_iff]
  constructor
  · rintro ⟨⟨-, -, -, -, hmissing⟩, hn⟩
    exact ⟨h, mem_referencedNames.1 hn, hmissing⟩
  · rintro ⟨-, hn, hmissing⟩
    exact ⟨⟨r, hr, rfl, mem_referencedNames.2 hn, hmissing⟩, mem_referencedNames.2 hn⟩

theorem findUndefined_eq : findUndefined (.ofRules rules given) = rules.zipIdx.flatMap fun (r, i) =>
    (missingReferences ((DependencyGraph.ofRules rules).danglingOf r.name) r.alternatives).map fun (n, a) =>
      undefinedFinding r i n a.index :=
  rfl

theorem mem_findUndefined_iff : f ∈ findUndefined (.ofRules rules given) ↔
    ∃ r i n k, Unresolved rules r i n ∧ FirstRefers r n k ∧ f = undefinedFinding r i n k := by
  have hreported : ∀ {r i n}, rules[i]? = some r →
      (n ∈ (missingReferences ((DependencyGraph.ofRules rules).danglingOf r.name) r.alternatives).map Prod.fst ↔
        Unresolved rules r i n) := by
    intro r i n h
    rw [map_fst_missingReferences, List.mem_eraseDups, List.mem_filter, List.contains_iff_mem, and_comm,
      mem_danglingOf_iff h]
  rw [findUndefined_eq, List.mem_flatMap]
  constructor
  · rintro ⟨⟨r, i⟩, hr, hf⟩
    obtain ⟨⟨n, a⟩, hx, rfl⟩ := List.mem_map.1 hf
    have hplace := List.mem_zipIdx_iff_getElem?.1 hr
    exact ⟨r, i, n, a.index, (hreported hplace).1 (List.mem_map_of_mem hx), firstRefers_of_mem hx, rfl⟩
  · rintro ⟨r, i, n, k, hn, hk, rfl⟩
    obtain ⟨⟨n, a⟩, hx, rfl⟩ := List.mem_map.1 ((hreported hn.place).2 hn)
    refine ⟨(r, i), List.mem_zipIdx_iff_getElem?.2 hn.place, List.mem_map.2 ⟨(n, a), hx, ?_⟩⟩
    rw [hk.unique (firstRefers_of_mem hx)]

/-- Of two references, the first one stands in an earlier rule, or its name appears in the same rule before that of
the other. -/
def Earlier (rules : List Rule) (x y : Nat × Text) : Prop :=
  x.1 < y.1 ∨ x.1 = y.1 ∧ ∃ r, rules[x.1]? = some r ∧
    (referencedNames r.body).idxOf x.2 < (referencedNames r.body).idxOf y.2

theorem Earlier.irrefl (x : Nat × Text) : ¬Earlier rules x x := by
  rintro (h | ⟨-, r, -, h⟩) <;> exact lt_irrefl _ h

theorem pairwise_findUndefined : (findUndefined (.ofRules rules given)).Pairwise fun f g =>
    ∃ x y, f.reference? = some x ∧ g.reference? = some y ∧ Earlier rules x y := by
  rw [findUndefined_eq, List.pairwise_flatMap]
  constructor
  · rintro ⟨r, i⟩ hr
    have hplace := List.mem_zipIdx_iff_getElem?.1 hr
    have horder := pairwise_eraseDups_filter
      ((DependencyGraph.ofRules rules).danglingOf r.name).contains (referencedNames r.body)
    rw [← map_fst_missingReferences, List.pairwise_map] at horder
    refine List.pairwise_map.2 (horder.imp fun {x y} hlt => ?_)
    exact ⟨(i, x.1), (i, y.1), reference?_undefinedFinding, reference?_undefinedFinding, .inr ⟨rfl, r, hplace, hlt⟩⟩
  · refine (pairwise_zipIdx rules).imp fun {x y} hlt f hf g hg => ?_
    obtain ⟨⟨n, a⟩, -, rfl⟩ := List.mem_map.1 hf
    obtain ⟨⟨m, b⟩, -, rfl⟩ := List.mem_map.1 hg
    exact ⟨(x.2, n), (y.2, m), reference?_undefinedFinding, reference?_undefinedFinding, .inl hlt⟩

/-- Undefined names are reported once for each definition. The check finds one thing for each rule and each name that the
rule refers to and no rule has, and nothing else. The finding is about the first alternative of the rule that refers to
the name; it warns of an undefined token if the name is a terminal name and is the error of an undefined reference
otherwise. The findings are in the order of the rules, those of a rule in the order in which the names first appear. -/
theorem undefined_reported (rules : List Rule) (given : Option Text) :
    (∀ f, f ∈ findUndefined (.ofRules rules given) ↔
      ∃ r i n k, Unresolved rules r i n ∧ FirstRefers r n k ∧ f = undefinedFinding r i n k) ∧
    (∀ r i n, Unresolved rules r i n → ∃ k, FirstRefers r n k ∧
      (findUndefined (.ofRules rules given)).filter (·.reference? == some (i, n)) = [undefinedFinding r i n k]) ∧
    (∀ r i n k, (undefinedFinding r i n k).ruleKey = i ∧ (undefinedFinding r i n k).alternativeKey = k ∧
      (undefinedFinding r i n k).id = (if isTerminalName n then "undefined-token" else "undefined-reference") ∧
      (undefinedFinding r i n k).severity = if isTerminalName n then .warning else .error) ∧
    (findUndefined (.ofRules rules given)).Pairwise fun f g =>
      ∃ x y, f.reference? = some x ∧ g.reference? = some y ∧ Earlier rules x y := by
  refine ⟨fun _ => mem_findUndefined_iff, fun r i n hn => ?_, fun r i n k => ?_, pairwise_findUndefined⟩
  · obtain ⟨k, hk⟩ := exists_firstRefers (mem_referencedNames.2 hn.referred)
    refine ⟨k, hk, filter_eq_singleton ?_ (mem_findUndefined_iff.2 ⟨r, i, n, k, hn, hk, rfl⟩) (by simp) ?_⟩
    · refine pairwise_findUndefined.imp ?_
      rintro f _ ⟨x, y, hx, hy, hxy⟩ rfl
      obtain rfl := Option.some.inj (hx.symm.trans hy)
      exact Earlier.irrefl x hxy
    · rintro f hf habout
      obtain ⟨q, j, m, l, hm, hl, rfl⟩ := mem_findUndefined_iff.1 hf
      obtain ⟨rfl, rfl⟩ : j = i ∧ m = n := by simpa using habout
      obtain rfl := Option.some.inj (hm.place.symm.trans hn.place)
      rw [hl.unique hk]
  · cases h : isTerminalName n <;> simp [undefinedFinding, h, Finding.ruleKey, Finding.alternativeKey, Finding.site?,
      Finding.id, Finding.severity, Problem.id, Problem.severity]

/-- A rule that is defined twice, with names that no rule has in one definition or in both. -/
def partedRules : Text :=
  "a ::= b | gone b | NUM gone ;\nb ::= 'x' ;\na ::= ( b | NUM ) | gone lost ;".toList

theorem undefined_reported_partedRules :
    ∃ r k, Unresolved (documentRules partedRules) r 2 "gone".toList ∧ FirstRefers r "gone".toList k ∧
      (findUndefined (.ofRules (documentRules partedRules) none)).filter (·.reference? == some (2, "gone".toList)) =
        [undefinedFinding r 2 "gone".toList k] := by
  obtain ⟨hall, hone, -⟩ := undefined_reported (documentRules partedRules) none
  have hfound : .inRule ⟨"a".toList, 3, 2, some 1⟩ (.undefinedRule "gone".toList) ∈
      findUndefined (.ofRules (documentRules partedRules) none) := by decide +kernel
  obtain ⟨r, i, n, k, hn, -, hf⟩ := (hall _).1 hfound
  have habout : some (2, "gone".toList) = some (i, n) := (congrArg Finding.reference? hf).trans reference?_undefinedFinding
  obtain ⟨rfl, rfl⟩ := Prod.mk.inj (Option.some.inj habout)
  obtain ⟨k, hk, hfilter⟩ := hone r 2 _ hn
  exact ⟨r, k, hn, hk, hfilter⟩

end Findings

end GrammarText
