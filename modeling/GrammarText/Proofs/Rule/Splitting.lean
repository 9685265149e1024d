import GrammarText.Proofs.Rule.Alternatives

/-!
# Splitting and joining

Splitting a body and joining alternatives undo each other. The bars that splitting drops are those outside
parentheses (`outerBars`), and putting them back between the pieces gives the body again (`joinBars_splitBars`). The
pieces hold no such bar, and all but the last leave no parenthesis open (`separated_splitBars`); pieces of this kind,
joined with any bars, are split into themselves (`splitBars_joinBars`).
-/

namespace GrammarText

/-! ### Bars outside parentheses -/

/-- Each token with the number of parentheses that are open before it. -/
def withDepths (depth : Nat) : List Token → List (Token × Nat)
  | [] => []
  | t :: ts => (t, depth) :: withDepths (depthAfter depth t) ts

/-- The bars outside parentheses, `depth` of which are open at the start. -/
def outerBars (depth : Nat) (ts : List Token) : List Token :=
  ((withDepths depth ts).filter fun p => p.1.isOp ['|'] && p.2 == 0).map Prod.fst

section Bars

variable {t bar : Token} {ts p : List Token} {depth : Nat}

theorem isOp_of_mem_outerBars (h : bar ∈ outerBars depth ts) : bar.isOp ['|'] = true := by
  obtain ⟨q, hq, rfl⟩ := List.mem_map.1 h
  obtain ⟨-, hbar⟩ := List.mem_filter.1 hq
  rw [Bool.and_eq_true] at hbar
  exact hbar.1

/-- A bar opens and closes nothing. -/
theorem depthAfter_bar (h : bar.isOp ['|'] = true) (depth : Nat) : depthAfter depth bar = depth := by
  simp [depthAfter, isOp_eq_of_isOp h]

theorem outerBars_cons_bar (h : bar.isOp ['|'] = true) (ts : List Token) :
    outerBars 0 (bar :: ts) = bar :: outerBars 0 ts := by
  simp [outerBars, withDepths, h, depthAfter_bar h]

theorem outerBars_cons_of_not_bar (h : ¬(t.isOp ['|'] = true ∧ depth = 0)) (ts : List Token) :
    outerBars depth (t :: ts) = outerBars (depthAfter depth t) ts := by
  have hfalse : (t.isOp ['|'] && depth == 0) = false := by simpa using h
  simp [outerBars, withDepths, hfalse]

theorem joinBars_cons_cons (bar : Token) (bars p q : List Token) (ps : List (List Token)) :
    joinBars (bar :: bars) (p :: q :: ps) = p ++ bar :: joinBars bars (q :: ps) := by
  simp [joinBars]

/-- The first piece takes a token, whatever follows it. -/
theorem joinBars_cons_left (t : Token) (bars p : List Token) (ps : List (List Token)) :
    joinBars bars ((t :: p) :: ps) = t :: joinBars bars (p :: ps) := by
  cases ps with
  | nil => rfl
  | cons q ps => cases bars <;> simp [joinBars]

/-- The pieces and the bars that were between them make up the whole. -/
theorem joinBars_splitBars (depth : Nat) (ts : List Token) : joinBars (outerBars depth ts) (splitBars depth ts) = ts := by
  induction ts generalizing depth with
  | nil => rfl
  | cons t ts ih =>
    by_cases hb : t.isOp ['|'] = true ∧ depth = 0
    · obtain ⟨hbar, rfl⟩ := hb
      obtain ⟨q, qs, hq⟩ := List.exists_cons_of_ne_nil (splitBars_ne_nil 0 ts)
      have ih' := ih 0
      rw [hq] at ih'
      rw [outerBars_cons_bar hbar, splitBars, if_pos ⟨hbar, rfl⟩, hq, joinBars_cons_cons, ih']
      rfl
    · obtain ⟨q, qs, hq, hqs⟩ := splitBars_cons_of_not_bar ts hb
      have ih' := ih (depthAfter depth t)
      rw [hq] at ih'
      rw [outerBars_cons_of_not_bar hb, hqs, joinBars_cons_left, ih']

/-- Every bar outside parentheses makes one more piece. -/
theorem length_splitBars (depth : Nat) (ts : List Token) :
    (splitBars depth ts).length = (outerBars depth ts).length + 1 := by
  induction ts generalizing depth with
  | nil => rfl
  | cons t ts ih =>
    by_cases hb : t.isOp ['|'] = true ∧ depth = 0
    · obtain ⟨hbar, rfl⟩ := hb
      rw [splitBars, if_pos ⟨hbar, rfl⟩, outerBars_cons_bar hbar, List.length_cons, List.length_cons, ih]
    · rw [splitBars, if_neg hb, outerBars_cons_of_not_bar hb, List.length_modifyHead, ih]

/-- Tokens without a bar outside parentheses are one piece. -/
theorem splitBars_of_outerBars_eq_nil (h : outerBars depth ts = []) : splitBars depth ts = [ts] := by
  have hlength := length_splitBars depth ts
  rw [h] at hlength
  obtain ⟨q, hq⟩ := List.length_eq_one_iff.1 hlength
  have hjoin := joinBars_splitBars depth ts
  rw [h, hq] at hjoin
  rw [hq, ← hjoin]
  rfl

/-- Where nothing is open before a bar, a piece ends. -/
theorem splitBars_append_bar (hp : outerBars depth p = []) (hd : depthAfterAll depth p = 0)
    (hb : bar.isOp ['|'] = true) (ts : List Token) : splitBars depth (p ++ bar :: ts) = p :: splitBars 0 ts := by
  induction p generalizing depth with
  | nil => exact if_pos ⟨hb, hd⟩
  | cons u p ih =>
    by_cases hu : u.isOp ['|'] = true ∧ depth = 0
    · obtain ⟨hbar, rfl⟩ := hu
      rw [outerBars_cons_bar hbar] at hp
      cases hp
    · rw [outerBars_cons_of_not_bar hu] at hp
      rw [List.cons_append, splitBars, if_neg hu, ih hp hd]
      rfl

end Bars

/-! ### Pieces -/

/-- Whether splitting can give the pieces: no bar is outside parentheses in any of them, `depth` parentheses being open
before the first, and a piece that another follows leaves none open. -/
def Separated (depth : Nat) : List (List Token) → Prop
  | [] => False
  | [p] => outerBars depth p = []
  | p :: q :: ps => outerBars depth p = [] ∧ depthAfterAll depth p = 0 ∧ Separated 0 (q :: ps)

section Pieces

variable {t : Token} {p : List Token} {ps : List (List Token)} {depth : Nat}

theorem Separated.push (ht : ¬(t.isOp ['|'] = true ∧ depth = 0)) (h : Separated (depthAfter depth t) (p :: ps)) :
    Separated depth ((t :: p) :: ps) := by
  cases ps with
  | nil => exact (outerBars_cons_of_not_bar ht p).trans h
  | cons q ps =>
    obtain ⟨hp, hd, hq⟩ := h
    exact ⟨(outerBars_cons_of_not_bar ht p).trans hp, hd, hq⟩

theorem separated_splitBars (depth : Nat) (ts : List Token) : Separated depth (splitBars depth ts) := by
  induction ts generalizing depth with
  | nil => rfl
  | cons t ts ih =>
    by_cases hb : t.isOp ['|'] = true ∧ depth = 0
    · obtain ⟨hbar, rfl⟩ := hb
      obtain ⟨q, qs, hq⟩ := List.exists_cons_of_ne_nil (splitBars_ne_nil 0 ts)
      have hrest := ih 0
      rw [splitBars, if_pos ⟨hbar, rfl⟩]
      rw [hq] at hrest ⊢
      exact ⟨rfl, rfl, hrest⟩
    · obtain ⟨q, qs, hq, hqs⟩ := splitBars_cons_of_not_bar ts hb
      have hrest := ih (depthAfter depth t)
      rw [hq] at hrest
      rw [hqs]
      exact hrest.push hb

/-- Pieces that are joined are split again at the bars between them, and nowhere else. -/
theorem splitBars_joinBars {bars : List Token} (hps : Separated depth ps) (hb : ∀ b ∈ bars, b.isOp ['|'] = true)
    (hlength : bars.length + 1 = ps.length) : splitBars depth (joinBars bars ps) = ps := by
  induction ps generalizing depth bars with
  | nil => exact hps.elim
  | cons p ps ih =>
    cases ps with
    | nil =>
      obtain rfl : bars = [] := by simpa using hlength
      exact splitBars_of_outerBars_eq_nil hps
    | cons q ps =>
      obtain ⟨hp, hd, hq⟩ := hps
      cases bars with
      | nil => simp at hlength
      | cons bar bars =>
        have hrest := ih hq (fun b h => hb b (List.mem_cons_of_mem bar h)) (by simpa using hlength)
        rw [joinBars_cons_cons, splitBars_append_bar hp hd (hb bar List.mem_cons_self), hrest]

/-- Pieces are separated if each of them is single and all but the last are closed. -/
theorem separated_zero_iff : Separated 0 ps ↔
    ps ≠ [] ∧ (∀ p ∈ ps, outerBars 0 p = []) ∧ ∀ p ∈ ps.dropLast, depthAfterAll 0 p = 0 := by
  induction ps with
  | nil => simp [Separated]
  | cons p ps ih =>
    cases ps with
    | nil => simp [Separated]
    | cons q ps =>
      rw [Separated, ih, List.dropLast_cons_cons, List.forall_mem_cons (l := q :: ps), List.forall_mem_cons (a := p)]
      constructor
      · rintro ⟨hp, hd, -, hsingle, hclosed⟩
        exact ⟨List.cons_ne_nil _ _, ⟨hp, hsingle⟩, hd, hclosed⟩
      · rintro ⟨-, ⟨hp, hsingle⟩, hd, hclosed⟩
        exact ⟨hp, hd, List.cons_ne_nil _ _, hsingle, hclosed⟩

end Pieces

/-! ### Alternatives -/

section Alternatives

variable {p : List Token}

/-- Alternatives are numbered from zero. -/
theorem map_index_alternatives (body : List Token) :
    (alternatives body).map Alternative.index = List.range (alternatives body).length := by
  rw [alternatives, List.map_map, List.length_map, List.length_zipIdx, List.range_eq_range', ← List.zipIdx_map_snd]
  rfl

theorem length_alternatives (body : List Token) : (alternatives body).length = (outerBars 0 body).length + 1 := by
  rw [alternatives, List.length_map, List.length_zipIdx, length_splitBars]

/-- A single alternative has no bar outside parentheses. -/
theorem outerBars_eq_nil_iff : outerBars 0 p = [] ↔ (alternatives p).length = 1 := by
  rw [length_alternatives, Nat.add_eq_right, List.length_eq_zero_iff]

theorem alternatives_of_outerBars_eq_nil (h : outerBars 0 p = []) : alternatives p = [⟨p, 0⟩] := by
  rw [alternatives, splitBars_of_outerBars_eq_nil h]
  rfl

/-- Splitting a body and joining alternatives are inverse to each other. A body is split into its alternatives, numbered
from zero, one more than it has bars outside parentheses; with these bars in between they make up the body, each of them
is split into itself, and none but the last leaves a parenthesis open. Conversely, tokens that are each split into
themselves, none but the last leaving a parenthesis open, are the alternatives of what they make up with bars in
between. -/
theorem alternatives_joinBars :
    (∀ body : List Token, alternatives body ≠ [] ∧
      (alternatives body).map Alternative.index = List.range (alternatives body).length ∧
      joinBars (outerBars 0 body) ((alternatives body).map Alternative.tokens) = body ∧
      (∀ b ∈ outerBars 0 body, b.isOp ['|'] = true) ∧
      (alternatives body).length = (outerBars 0 body).length + 1 ∧
      (∀ a ∈ alternatives body, alternatives a.tokens = [⟨a.tokens, 0⟩]) ∧
      ∀ a ∈ (alternatives body).dropLast, depthAfterAll 0 a.tokens = 0) ∧
    ∀ (pieces : List (List Token)) (bars : List Token), pieces ≠ [] → (∀ p ∈ pieces, (alternatives p).length = 1) →
      (∀ p ∈ pieces.dropLast, depthAfterAll 0 p = 0) → (∀ b ∈ bars, b.isOp ['|'] = true) →
      bars.length + 1 = pieces.length → (alternatives (joinBars bars pieces)).map Alternative.tokens = pieces := by
  constructor
  · intro body
    obtain ⟨-, hsingle, hclosed⟩ := separated_zero_iff.1 (separated_splitBars 0 body)
    have hlength := length_alternatives body
    refine ⟨?_, map_index_alternatives body, ?_, fun b => isOp_of_mem_outerBars, hlength, ?_, ?_⟩
    · intro hnil
      simp [hnil] at hlength
    · rw [map_tokens_alternatives, joinBars_splitBars]
    · exact forall_alternatives.2 fun p hp => alternatives_of_outerBars_eq_nil (hsingle p hp)
    · rw [← map_tokens_alternatives, ← List.map_dropLast] at hclosed
      exact List.forall_mem_map.1 hclosed
  · intro pieces bars hne hsingle hclosed hbars hlength
    have hseparated : Separated 0 pieces :=
      separated_zero_iff.2 ⟨hne, fun p hp => outerBars_eq_nil_iff.2 (hsingle p hp), hclosed⟩
    rw [map_tokens_alternatives]
    exact splitBars_joinBars hseparated hbars hlength

/-- The body `( a | b ) * | ) c | ( d |`, with a stray parenthesis and an open one. -/
def strayBars : List (List Token) :=
  [[⟨.operator, ['('], {}⟩, ⟨.identifier, ['a'], {}⟩, barToken, ⟨.identifier, ['b'], {}⟩, ⟨.operator, [')'], {}⟩,
      ⟨.operator, ['*'], {}⟩],
    [⟨.operator, [')'], {}⟩, ⟨.identifier, ['c'], {}⟩],
    [⟨.operator, ['('], {}⟩, ⟨.identifier, ['d'], {}⟩, barToken]]

theorem alternatives_joinBars_strayBars : strayBars ≠ [] ∧ (∀ p ∈ strayBars, (alternatives p).length = 1) ∧
    (∀ p ∈ strayBars.dropLast, depthAfterAll 0 p = 0) ∧
    (alternatives (joinBars [barToken, barToken] strayBars)).map Alternative.tokens = strayBars :=
  have hne : strayBars ≠ [] := by decide
  have hsingle : ∀ p ∈ strayBars, (alternatives p).length = 1 := by decide
  have hclosed : ∀ p ∈ strayBars.dropLast, depthAfterAll 0 p = 0 := by decide
  ⟨hne, hsingle, hclosed,
    alternatives_joinBars.2 strayBars [barToken, barToken] hne hsingle hclosed (by decide) (by decide)⟩

end Alternatives

end GrammarText
