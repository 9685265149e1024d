import GrammarText.Lint.Check
import GrammarText.Proofs.Lint.Balance
import GrammarText.Rule.Extract

/-!
# The leading name of an alternative

The search for the name that an alternative begins with passes over literals, character classes and groups, and then
takes the first name that it meets. A group whose parentheses match is passed over as a whole (`skipGroup_append`), but
the first mark of repetition ends the passing over: from there on every name counts, also one inside a group. So the
name is the one that follows the leading items only if the items behind the first marked one refer to nothing
(`leadingName?_items`); otherwise it is the first name in them (`markedLiteral_ends_skipping`).
-/

namespace GrammarText

/-- What an alternative can begin with before its leading name: a literal, a character class, or a group whose parentheses
match. -/
inductive IsItem : List Token → Prop where
  | literal {t : Token} (h : t.kind = .literal) : IsItem [t]
  | charClass {t : Token} (h : t.kind = .charClass) : IsItem [t]
  | group {p q : Token} {inner : List Token} (hp : p.isOp ['('] = true) (hi : Matched inner) (hq : q.isOp [')'] = true) :
      IsItem (p :: (inner ++ [q]))

/-- An item with the marks of repetition behind it. -/
structure LeadingItem where
  item : List Token
  marks : List Token := []
  isItem : IsItem item
  isMark : ∀ t ∈ marks, t.isOneOf [['?'], ['*'], ['+']] = true

/-- The tokens of an item with its marks. -/
def LeadingItem.tokens (x : LeadingItem) : List Token :=
  x.item ++ x.marks

/-- The items behind the first one that is marked. -/
def itemsBehindMark : List LeadingItem → List LeadingItem
  | [] => []
  | x :: xs => if x.marks.isEmpty then itemsBehindMark xs else xs

section Items

variable {t x : Token} {ts rest inner : List Token} {a : Alternative} {items : List LeadingItem}

/-- A group is passed over to where its parenthesis closes, whatever is open inside of it. -/
theorem skipGroup_append (depth : Nat) (h : staysBalanced depth (inner.map parenthesisStep) = true) (ts : List Token) :
    skipGroup (depth + 1) (inner ++ ts) = skipGroup 1 ts := by
  induction inner generalizing depth with
  | nil =>
    have hdepth : depth = 0 := by simpa [staysBalanced] using h
    rw [hdepth, List.nil_append]
  | cons t inner ih =>
    rw [List.map_cons, staysBalanced, Bool.and_eq_true, decide_eq_true_iff] at h
    obtain ⟨hstep, hinner⟩ := h
    rw [List.cons_append, skipGroup, if_neg (Nat.succ_ne_zero depth)]
    cases ho : t.isOp ['('] with
    | true =>
      rw [parenthesisStep_of_open ho] at hinner
      rw [if_pos rfl]
      exact ih (depth + 1) hinner
    | false =>
      cases hc : t.isOp [')'] with
      | true =>
        rw [parenthesisStep_of_close hc] at hstep hinner
        obtain ⟨depth, rfl⟩ : ∃ d, depth = d + 1 := ⟨depth - 1, by omega⟩
        rw [if_neg Bool.false_ne_true, if_pos rfl]
        exact ih depth (by simpa using hinner)
      | false =>
        rw [parenthesisStep_of_neither ho hc, Int.add_zero] at hinner
        rw [if_neg Bool.false_ne_true, if_neg Bool.false_ne_true]
        exact ih depth hinner

theorem skipLeadingItems_item (h : IsItem ts) (rest : List Token) :
    skipLeadingItems (ts ++ rest) = skipLeadingItems rest := by
  cases h with
  | literal h => rw [List.singleton_append, skipLeadingItems, if_pos (by simp [h])]
  | charClass h => rw [List.singleton_append, skipLeadingItems, if_pos (by simp [h])]
  | @group p q inner hp hi hq =>
    have hmatched : staysBalanced (0 : Nat) (inner.map parenthesisStep) = true := parenthesesBalanced_iff.2 hi
    have hclose : skipGroup 1 (q :: rest) = skipGroup 0 rest := by
      have ho : q.isOp ['('] = false := isOp_eq_of_isOp hq ['(']
      rw [skipGroup, if_neg Nat.one_ne_zero, ho, hq]
      rfl
    have hskip : skipGroup 1 (inner ++ [q] ++ rest) = rest := by
      rw [List.append_assoc, skipGroup_append 0 hmatched, List.singleton_append, hclose]
      cases rest <;> rfl
    rw [List.cons_append, skipLeadingItems, if_neg (by simp [kind_of_isOp hp]), if_pos hp, hskip]

/-- Nothing that is an operator, apart from an opening parenthesis, and no name is passed over. -/
theorem skipLeadingItems_of_neither (hk : t.kind = .operator ∨ t.kind = .identifier) (ho : t.isOp ['('] = false)
    (ts : List Token) : skipLeadingItems (t :: ts) = t :: ts := by
  rw [skipLeadingItems, if_neg (by rcases hk with hk | hk <;> simp [hk]), if_neg (by simp [ho])]

theorem kind_of_isReference (h : t.isReference = true) : t.kind = .identifier := by
  rw [Token.isReference, Bool.and_eq_true, beq_iff_eq] at h
  exact h.1

/-- A mark of repetition is an operator that opens nothing. -/
theorem operator_of_isMark (h : t.isOneOf [['?'], ['*'], ['+']] = true) :
    t.kind = .operator ∧ t.isOp ['('] = false := by
  obtain ⟨s, hs, ht⟩ := List.any_eq_true.1 h
  simp only [List.mem_cons, List.not_mem_nil, or_false] at hs
  refine ⟨kind_of_isOp ht, ?_⟩
  rcases hs with rfl | rfl | rfl <;> exact isOp_eq_of_isOp ht ['(']

theorem find?_marks (h : ∀ t ∈ ts, t.isOneOf [['?'], ['*'], ['+']] = true) : ts.find? Token.isReference = none := by
  rw [List.find?_eq_none]
  intro t ht href
  have hop := (operator_of_isMark (h t ht)).1
  rw [kind_of_isReference href] at hop
  cases hop

/-- The first name behind what is passed over is the first one among the items behind a mark, or else the name that
follows the items. -/
theorem find?_skipLeadingItems (hx : x.isReference = true) (items : List LeadingItem) :
    (skipLeadingItems (items.flatMap LeadingItem.tokens ++ x :: rest)).find? Token.isReference =
      some ((((itemsBehindMark items).flatMap LeadingItem.tokens).find? Token.isReference).getD x) := by
  induction items with
  | nil =>
    have hk := kind_of_isReference hx
    rw [List.flatMap_nil, List.nil_append, skipLeadingItems_of_neither (.inr hk) (by simp [Token.isOp, hk]),
      List.find?_cons_of_pos hx]
    rfl
  | cons item items ih =>
    rw [List.flatMap_cons, LeadingItem.tokens, List.append_assoc, List.append_assoc, skipLeadingItems_item item.isItem,
      itemsBehindMark]
    have hmarks := item.isMark
    cases hm : item.marks with
    | nil => exact ih
    | cons m marks =>
      rw [hm] at hmarks
      obtain ⟨hk, ho⟩ := operator_of_isMark (hmarks m List.mem_cons_self)
      rw [List.cons_append, skipLeadingItems_of_neither (.inl hk) ho, ← List.cons_append, List.find?_append,
        find?_marks hmarks, Option.none_or, List.find?_append, List.find?_cons_of_pos hx, List.isEmpty_cons,
        if_neg Bool.false_ne_true]
      cases (items.flatMap LeadingItem.tokens).find? Token.isReference <;> rfl

/-- The leading name of an alternative that begins with items and a name: it is the first name in the items behind the
first marked one if there is one, and else the name that follows the items. So this name is found exactly if the items
behind the first marked one do not begin with another name. -/
theorem leadingName?_items (hx : x.isReference = true)
    (h : a.significant = items.flatMap LeadingItem.tokens ++ x :: rest) :
    a.leadingName? =
        some ((((itemsBehindMark items).flatMap LeadingItem.tokens).find? Token.isReference).getD x).text ∧
      (a.leadingName? = some x.text ↔
        ∀ t, ((itemsBehindMark items).flatMap LeadingItem.tokens).find? Token.isReference = some t → t.text = x.text) := by
  have hname : a.leadingName? =
      some ((((itemsBehindMark items).flatMap LeadingItem.tokens).find? Token.isReference).getD x).text := by
    rw [Alternative.leadingName?, h, find?_skipLeadingItems hx, Option.map_some]
  refine ⟨hname, ?_⟩
  rw [hname, Option.some.injEq]
  cases ((itemsBehindMark items).flatMap LeadingItem.tokens).find? Token.isReference with
  | none => simp
  | some t => simp

/-- An item for a group around tokens whose parentheses match. -/
def LeadingItem.group (inner : List Token) (h : parenthesesBalanced inner = true) : LeadingItem where
  item := ⟨.operator, ['('], {}⟩ :: (inner ++ [⟨.operator, [')'], {}⟩])
  isItem := .group rfl (parenthesesBalanced_iff.1 h) rfl
  isMark := by simp

/-- A group in a group, a marked literal and a marked class. -/
def nestedItems : List LeadingItem :=
  [.group [⟨.identifier, ['b'], {}⟩, ⟨.operator, ['('], {}⟩, ⟨.identifier, ['c'], {}⟩, ⟨.operator, [')'], {}⟩] rfl,
   { item := [⟨.literal, "'d'".toList, {}⟩]
     marks := [⟨.operator, ['+'], {}⟩]
     isItem := .literal rfl
     isMark := by decide },
   { item := [⟨.charClass, "[e]".toList, {}⟩]
     marks := [⟨.operator, ['*'], {}⟩, ⟨.operator, ['?'], {}⟩]
     isItem := .charClass rfl
     isMark := by decide }]

theorem leadingName?_nestedItems :
    let name : Token := ⟨.identifier, ['f'], {}⟩
    let a : Alternative := ⟨nestedItems.flatMap LeadingItem.tokens ++ [name, ⟨.identifier, ['b'], {}⟩], 0⟩
    name.isReference = true ∧ a.significant = nestedItems.flatMap LeadingItem.tokens ++ [name, ⟨.identifier, ['b'], {}⟩] ∧
      a.leadingName? = some name.text := by
  intro name a
  have hname : name.isReference = true := by decide +kernel
  have hsignificant : a.significant = nestedItems.flatMap LeadingItem.tokens ++ [name, ⟨.identifier, ['b'], {}⟩] := by
    decide +kernel
  refine ⟨hname, hsignificant, (leadingName?_items hname hsignificant).2.2 fun t ht => ?_⟩
  have hnone : ((itemsBehindMark nestedItems).flatMap LeadingItem.tokens).find? Token.isReference = none := by
    decide +kernel
  rw [hnone] at ht
  cases ht

/-- A marked literal and a group. -/
def markedItems : List LeadingItem :=
  [{ item := [⟨.literal, "'a'".toList, {}⟩]
     marks := [⟨.operator, ['+'], {}⟩]
     isItem := .literal rfl
     isMark := by decide },
   .group [⟨.identifier, ['b'], {}⟩] rfl]

/-- Behind a mark a group is not passed over: the name inside of it is taken for the leading one, and the rule of that name
is reported to begin with itself. -/
theorem markedLiteral_ends_skipping :
    let name : Token := ⟨.identifier, ['c'], {}⟩
    let a : Alternative := ⟨markedItems.flatMap LeadingItem.tokens ++ [name], 0⟩
    a.significant = markedItems.flatMap LeadingItem.tokens ++ [name] ∧ name.isReference = true ∧
      a.leadingName? = some ['b'] ∧
      findLeftRecursion (.ofRules (documentRules "b ::= 'a'+ ( b ) c ;".toList) none) =
        [.inRule ⟨['b'], 1, 0, some 0⟩ (.leftRecursion "'a'+ ( b ) c".toList)] := by
  refine ⟨by decide +kernel, by decide +kernel, by decide +kernel, by decide +kernel⟩

end Items

end GrammarText
