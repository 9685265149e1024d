import GrammarText.Lint.Balance
import GrammarText.Proofs.Rule.Alternatives
import GrammarText.Proofs.Rule.Leading
import Mathlib.Algebra.Ring.Int.Defs
import Mathlib.Data.List.Infix

/-!
# What balance of delimiters means

The check for parentheses runs on the alternatives of a body. Since the bars that cut a body stand outside
parentheses, it finds nothing exactly if the parentheses of the whole body match
(`all_parenthesesBalanced_iff`).

The check for brackets counts those of a character class once more. In the tokens of a text the count
agrees with the scanner's, by which a class ends where its bracket is closed: a class adds nothing unless
it is unterminated, and then it is the last token. So the brackets of tokens in a row are balanced exactly
if there is no unterminated class and no closing bracket on its own among them
(`bracketsBalanced_iff`).
-/

namespace GrammarText

/-! ### Running sums -/

/-- A sum stays balanced if it falls below zero at no place and is zero in the end. -/
theorem staysBalanced_iff {sum : Int} (ds : List Int) (h : 0 ≤ sum) :
    staysBalanced sum ds = true ↔ (∀ before, before <+: ds → 0 ≤ sum + before.sum) ∧ sum + ds.sum = 0 := by
  induction ds generalizing sum with
  | nil => simp [staysBalanced, h]
  | cons d ds ih =>
    rw [staysBalanced, Bool.and_eq_true, decide_eq_true_iff]
    constructor
    · rintro ⟨hd, hds⟩
      obtain ⟨hpre, hend⟩ := (ih hd).1 hds
      refine ⟨fun before hb => ?_, by rw [List.sum_cons]; omega⟩
      obtain rfl | ⟨before, rfl, hb'⟩ := List.prefix_cons_iff.1 hb
      · simpa using h
      · have := hpre before hb'
        rw [List.sum_cons]
        omega
    · rintro ⟨hpre, hend⟩
      have hd : 0 ≤ sum + d := by simpa using hpre [d] (List.prefix_append [d] ds)
      refine ⟨hd, (ih hd).2 ⟨fun before hb => ?_, by rw [List.sum_cons] at hend; omega⟩⟩
      have := hpre (d :: before) (List.cons_prefix_cons.2 ⟨rfl, hb⟩)
      rw [List.sum_cons] at this
      omega

/-- If at most the last of the steps goes up, only steps of zero stay balanced. -/
theorem staysBalanced_zero_iff {ds : List Int} (h : ∀ before d after, ds = before ++ d :: after → d ≤ 0 ∨ after = []) :
    staysBalanced 0 ds = true ↔ ∀ d ∈ ds, d = 0 := by
  induction ds with
  | nil => simp [staysBalanced]
  | cons d ds ih =>
    have ih := ih fun before d' after heq => h (d :: before) d' after (by rw [heq]; rfl)
    rw [staysBalanced, Bool.and_eq_true, decide_eq_true_iff, List.forall_mem_cons, Int.zero_add]
    constructor
    · rintro ⟨hd, hds⟩
      have hzero : d = 0 := by
        rcases h [] d ds rfl with hle | rfl
        · omega
        · simpa [staysBalanced] using hds
      subst hzero
      exact ⟨rfl, ih.1 hds⟩
    · rintro ⟨rfl, hds⟩
      exact ⟨Int.le_refl 0, ih.2 hds⟩

/-! ### Parentheses -/

/-- Whether the parentheses of the tokens match: none is closed before it is opened, and all are closed. -/
structure Matched (ts : List Token) : Prop where
  opened : ∀ before, before <+: ts → before.countP (·.isOp [')']) ≤ before.countP (·.isOp ['('])
  closed : ts.countP (·.isOp ['(']) = ts.countP (·.isOp [')'])

section Parentheses

variable {t : Token} {ts : List Token}

theorem parenthesisStep_of_open (h : t.isOp ['('] = true) : parenthesisStep t = 1 := by
  simp [parenthesisStep, h]

theorem parenthesisStep_of_close (h : t.isOp [')'] = true) : parenthesisStep t = -1 := by
  simp [parenthesisStep, h, isOp_eq_of_isOp h]

theorem parenthesisStep_of_neither (ho : t.isOp ['('] = false) (hc : t.isOp [')'] = false) : parenthesisStep t = 0 := by
  simp [parenthesisStep, ho, hc]

theorem sum_parenthesisStep (ts : List Token) :
    (ts.map parenthesisStep).sum = (ts.countP (·.isOp ['(']) : Int) - ts.countP (·.isOp [')']) := by
  induction ts with
  | nil => rfl
  | cons t ts ih =>
    rw [List.map_cons, List.sum_cons, ih, List.countP_cons, List.countP_cons]
    cases ho : t.isOp ['('] with
    | true =>
      have hc : t.isOp [')'] = false := by simp [isOp_eq_of_isOp ho]
      simp [parenthesisStep_of_open ho, hc]
      omega
    | false =>
      cases hc : t.isOp [')'] with
      | true => simp [parenthesisStep_of_close hc]; omega
      | false => simp [parenthesisStep_of_neither ho hc]

theorem parenthesesBalanced_iff : parenthesesBalanced ts = true ↔ Matched ts := by
  rw [parenthesesBalanced, staysBalanced_iff _ (Int.le_refl 0), Int.zero_add, sum_parenthesisStep]
  constructor
  · rintro ⟨hpre, hend⟩
    refine ⟨fun before hb => ?_, by omega⟩
    have := hpre _ (hb.map parenthesisStep)
    rw [sum_parenthesisStep] at this
    omega
  · rintro ⟨hpre, hend⟩
    refine ⟨fun before hb => ?_, by omega⟩
    have htake := List.prefix_iff_eq_take.1 hb
    rw [← List.map_take] at htake
    have := hpre _ (List.take_prefix before.length ts)
    rw [htake, sum_parenthesisStep]
    omega

/-- Cutting at the bars outside parentheses does not change whether parentheses stay balanced. -/
theorem staysBalanced_splitBars (depth : Nat) (ts : List Token) :
    ∃ p ps, splitBars depth ts = p :: ps ∧
      staysBalanced depth (ts.map parenthesisStep) =
        (staysBalanced depth (p.map parenthesisStep) && ps.all parenthesesBalanced) := by
  induction ts generalizing depth with
  | nil => exact ⟨[], [], rfl, (Bool.and_true _).symm⟩
  | cons t ts ih =>
    by_cases hb : t.isOp ['|'] = true ∧ depth = 0
    · obtain ⟨hbar, rfl⟩ := hb
      obtain ⟨p, ps, hp, hps⟩ := ih 0
      refine ⟨[], p :: ps, by rw [splitBars, if_pos ⟨hbar, rfl⟩, hp], ?_⟩
      have hstep : parenthesisStep t = 0 :=
        parenthesisStep_of_neither (by simp [isOp_eq_of_isOp hbar]) (by simp [isOp_eq_of_isOp hbar])
      rw [List.map_cons, staysBalanced, hstep, List.all_cons, parenthesesBalanced]
      exact hps
    · obtain ⟨p, ps, hp, hsplit⟩ := splitBars_cons_of_not_bar ts hb
      obtain ⟨p', ps', hp', hps⟩ := ih (depthAfter depth t)
      rw [hp] at hp'
      cases hp'
      refine ⟨t :: p, ps, hsplit, ?_⟩
      rw [List.map_cons, List.map_cons, staysBalanced, staysBalanced, Bool.and_assoc]
      -- A closing parenthesis too many fails the body and its piece alike.
      by_cases hneg : 0 ≤ (depth : Int) + parenthesisStep t
      · have hdepth : ((depthAfter depth t : Nat) : Int) = depth + parenthesisStep t := by
          cases ho : t.isOp ['('] with
          | true => simp [depthAfter, ho, parenthesisStep_of_open ho]
          | false =>
            cases hc : t.isOp [')'] with
            | true =>
              rw [parenthesisStep_of_close hc] at hneg ⊢
              simp only [depthAfter, ho, hc, Bool.false_eq_true, if_false, if_true]
              omega
            | false => simp [depthAfter, ho, hc, parenthesisStep_of_neither ho hc]
        rw [← hdepth, hps]
      · simp [hneg]

/-- The parentheses of all alternatives are balanced exactly if those of the body match. -/
theorem all_parenthesesBalanced_iff (ts : List Token) :
    (∀ p ∈ splitBars 0 ts, parenthesesBalanced p = true) ↔ Matched ts := by
  obtain ⟨p, ps, hp, hps⟩ := staysBalanced_splitBars 0 ts
  have hall : parenthesesBalanced ts = (p :: ps).all parenthesesBalanced := hps
  rw [← parenthesesBalanced_iff, hall, hp, List.all_eq_true]

end Parentheses

/-! ### Brackets in character classes -/

section Class

variable {depth : Nat}

/-- A character that is no backslash changes the depth of a class as it changes the count. -/
theorem ClassState.step_of_ne_backslash {c : Char} (hd : 0 < depth) (hc : ¬(c == '\\') = true) :
    ∃ depth', ClassState.step ⟨depth, false⟩ c = ⟨depth', false⟩ ∧
      (depth' : Int) = depth + (if c == '[' then 1 else if c == ']' then -1 else 0) := by
  simp only [ClassState.step, if_neg hc, Bool.false_eq_true, if_false]
  split
  · exact ⟨_, rfl, by push_cast; rfl⟩
  split
  · exact ⟨_, rfl, by omega⟩
  · exact ⟨_, rfl, by omega⟩

/-- Counting brackets agrees with the scanner's reading of a character class. -/
theorem classDepth_spec (hd : 0 < depth) (t : Text) :
    (closesAtEnd ClassState.step (·.depth == 0) ⟨depth, false⟩ t = true → depth + classDepth t = 0) ∧
      (staysOpen ClassState.step (·.depth == 0) ⟨depth, false⟩ t = true → 0 < depth + classDepth t) := by
  fun_induction classDepth t generalizing depth with
  | case1 => simp [closesAtEnd, staysOpen, hd]
  | case2 c r hc ih =>
    have hesc : ClassState.step ⟨depth, false⟩ c = ⟨depth, true⟩ := by simp [ClassState.step, hc]
    have hne : (depth == 0) = false := by simp; omega
    cases r with
    | nil => simpa [closesAtEnd, staysOpen, hesc, hne, classDepth] using hd
    | cons x r =>
      have hback : ClassState.step ⟨depth, true⟩ x = ⟨depth, false⟩ := rfl
      simpa [closesAtEnd, staysOpen, hesc, hback, hne] using ih hd
  | case3 c r hc ih =>
    obtain ⟨depth', hstep, hdepth⟩ := ClassState.step_of_ne_backslash hd hc
    rw [closesAtEnd, staysOpen, hstep, ← Int.add_assoc, ← hdepth]
    cases depth' with
    | zero =>
      refine ⟨fun h => ?_, fun h => by simp at h⟩
      obtain rfl : r = [] := by simpa using h
      simp [classDepth]
    | succ n => simpa using ih (Nat.succ_pos n)

theorem classDepth_of_closed {rest : Text} (h : closesClass rest = true) : classDepth ('[' :: rest) = 0 := by
  have := (classDepth_spec Nat.one_pos rest).1 h
  rw [classDepth]
  simpa using this

/-- A class that the scanner cut without its end counts above zero, and takes the whole text. -/
theorem classDepth_of_open {rest : Text} (h : closesClass (rest.take (classLength rest)) = false) :
    0 < classDepth ('[' :: rest.take (classLength rest)) ∧ classLength rest = rest.length := by
  obtain ⟨hopen, hlen⟩ := staysOpen_of_not_closes h
  change classLength rest = rest.length at hlen
  refine ⟨?_, hlen⟩
  have := (classDepth_spec Nat.one_pos rest).2 hopen
  rw [hlen, List.take_length, classDepth]
  simpa using this

end Class

/-! ### Brackets -/

/-- A closing bracket on its own, or a character class that is never closed. -/
def Token.IsLooseBracket (t : Token) : Prop :=
  t.kind = .identifier ∧ t.text = [']'] ∨ t.kind = .charClass ∧ t.isClosed = false

instance : DecidablePred Token.IsLooseBracket := fun t =>
  inferInstanceAs (Decidable (t.kind = .identifier ∧ t.text = [']'] ∨ t.kind = .charClass ∧ t.isClosed = false))

section Brackets

variable {d : Dialect} {c : Char} {rest : Text} {s : Text} {t : Token} {ts before after : List Token}

theorem form_charClass {n : Nat} (h : form d c rest = (.charClass, n)) : c = '[' ∧ n = classLength rest + 1 := by
  cases hf : commentForm? d (c :: rest) with
  | some f => simp [form_comment hf] at h
  | none =>
    rw [form_plain hf, plainForm] at h
    split at h
    · simp at h
    split at h
    · rename_i hc
      exact ⟨by simpa using hc, by simpa using h.symm⟩
    · repeat' split at h
      all_goals simp at h

theorem form_ebnf_ne_action : (form .ebnf c rest).1 ≠ .action := by
  cases hf : commentForm? .ebnf (c :: rest) with
  | some f => simp [form_comment hf]
  | none =>
    rw [form_plain hf, plainForm, if_neg (c := Dialect.ebnf = .antlr ∧ _) (by simp)]
    repeat' split
    all_goals simp

theorem bracketStep_charClass (h : lexemes d s = t :: after) (hk : t.kind = .charClass) :
    t.isClosed = true ∧ bracketStep t = 0 ∨ t.isClosed = false ∧ 0 < bracketStep t ∧ after = [] := by
  cases s with
  | nil => simp at h
  | cons c rest =>
    rw [lexemes_cons] at h
    obtain ⟨rfl, rfl⟩ := List.cons.inj h
    obtain ⟨rfl, hn⟩ := form_charClass (n := (form d c rest).2) (Prod.ext hk rfl)
    rw [hn]
    change (form d '[' rest).1 = _ at hk
    simp only [hk, bracketStep, List.take_succ_cons, List.drop_succ_cons, Token.isClosed]
    cases hc : closesClass (rest.take (classLength rest)) with
    | true => exact .inl ⟨rfl, classDepth_of_closed hc⟩
    | false =>
      obtain ⟨hpos, hlen⟩ := classDepth_of_open hc
      exact .inr ⟨rfl, hpos, by simp [hlen]⟩

theorem operator_ne_bracket (h : Lexeme .ebnf .operator rest) : rest ≠ [']'] := by
  cases h with
  | longOperator h =>
    simp only [Dialect.longOperators, List.mem_singleton] at h
    simp [h]
  | shortOperator h =>
    rintro ⟨⟩
    simp [Dialect.shortOperators] at h

/-- Brackets are out of balance at the loose ones only, and upwards only at the end of the text. -/
theorem bracketStep_spec (h : lexemes .ebnf s = before ++ t :: after) :
    (bracketStep t = 0 ↔ ¬t.IsLooseBracket) ∧ (bracketStep t ≤ 0 ∨ after = []) := by
  obtain ⟨s', hs'⟩ := lexemes_suffix h
  have hmem : t ∈ lexemes .ebnf s' := hs' ▸ List.mem_cons_self
  cases hk : t.kind with
  | whitespace | literal | comment => simp [bracketStep, Token.IsLooseBracket, hk]
  | identifier =>
    by_cases ht : t.text = [']'] <;> simp [bracketStep, Token.IsLooseBracket, hk, ht]
  | charClass =>
    rcases bracketStep_charClass hs'.symm hk with ⟨hc, hz⟩ | ⟨hc, hpos, rfl⟩
    · simp [Token.IsLooseBracket, hk, hc, hz]
    · exact ⟨by simp [Token.IsLooseBracket, hk, hc]; omega, .inr rfl⟩
  | operator =>
    have hl := lexeme_of_mem_lexemes hmem (by simp [Token.isClosed, hk])
    have ht := operator_ne_bracket (hk ▸ hl)
    simp [bracketStep, Token.IsLooseBracket, hk, ht]
  | action =>
    cases s' with
    | nil => simp at hmem
    | cons c rest =>
      rw [lexemes_cons] at hs'
      rw [(List.cons.inj hs').1] at hk
      exact absurd hk form_ebnf_ne_action

/-- The brackets of tokens in a row of a text are balanced exactly if none of them is loose. -/
theorem bracketsBalanced_iff (h : ts <:+: scan .ebnf s) : bracketsBalanced ts = true ↔ ∀ t ∈ ts, ¬t.IsLooseBracket := by
  have hspec : ∀ before t after, ts = before ++ t :: after →
      (bracketStep t = 0 ↔ ¬t.IsLooseBracket) ∧ (bracketStep t ≤ 0 ∨ after = []) := by
    rintro before t after rfl
    obtain ⟨us, vs, hs⟩ := h
    have hlex : lexemes .ebnf s = (us ++ before).map Token.bare ++ t.bare :: (after ++ vs).map Token.bare := by
      rw [lexemes, ← hs]
      simp
    obtain ⟨hzero, hlast⟩ := bracketStep_spec hlex
    exact ⟨hzero, hlast.imp_right fun hn => by simp at hn; exact hn.1⟩
  rw [bracketsBalanced, staysBalanced_zero_iff, List.forall_mem_map]
  · refine forall₂_congr fun t ht => ?_
    obtain ⟨before, after, heq⟩ := List.append_of_mem ht
    exact (hspec before t after heq).1
  · intro before d after heq
    obtain ⟨before', rest, rfl, rfl, hrest⟩ := List.map_eq_append_iff.1 heq
    obtain ⟨t, after', rfl, rfl, rfl⟩ := List.map_eq_cons_iff.1 hrest
    exact (hspec before' t after' rfl).2.imp_right fun hn => by rw [hn, List.map_nil]

end Brackets

end GrammarText
