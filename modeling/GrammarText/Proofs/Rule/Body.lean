import GrammarText.Rule.Extract

/-!
# Bodies of rules

What a body can consist of, said on the body alone: `bodyFrom depth ts` holds if no semicolon and no
beginning of a rule stands outside parentheses in `ts`. Every body that is found is of this kind
(`readBody_spec`), and a sequence of this kind in front of a semicolon is found as a body
(`readBody_append`). Whitespace plays no part in it (`bodyFrom_dense`).
-/

namespace GrammarText

/-- The tokens without whitespace. -/
def dense (ts : List Token) : List Token :=
  ts.filter (·.kind != .whitespace)

@[simp] theorem dense_nil : dense [] = [] := rfl

theorem dense_cons_whitespace {t : Token} (h : t.kind = .whitespace) (ts : List Token) :
    dense (t :: ts) = dense ts := by
  simp [dense, h]

theorem dense_cons {t : Token} (h : t.kind ≠ .whitespace) (ts : List Token) :
    dense (t :: ts) = t :: dense ts := by
  simp [dense, h]

@[simp] theorem dense_append (ts us : List Token) : dense (ts ++ us) = dense ts ++ dense us :=
  List.filter_append ts us

theorem mem_dense {t : Token} {ts : List Token} : t ∈ dense ts ↔ t ∈ ts ∧ t.kind ≠ .whitespace := by
  simp [dense]

/-- Tokens that are dense already stay as they are. -/
theorem dense_eq_self {ts : List Token} (h : ∀ t ∈ ts, t.kind ≠ .whitespace) : dense ts = ts := by
  simpa [dense] using h

@[simp] theorem dense_dense (ts : List Token) : dense (dense ts) = dense ts :=
  dense_eq_self fun _ ht => (mem_dense.1 ht).2

theorem dense_map {f : Token → Token} (hk : ∀ t, (f t).kind = t.kind) (ts : List Token) :
    dense (ts.map f) = (dense ts).map f := by
  simp [dense, List.filter_map, Function.comp_def, hk]

theorem isOp_eq_false {t : Token} (h : t.kind ≠ .operator) (s : Text) : t.isOp s = false := by
  simp [Token.isOp, h]

theorem kind_of_isOp {t : Token} {s : Text} (h : t.isOp s = true) : t.kind = .operator := by
  rw [Token.isOp, Bool.and_eq_true, beq_iff_eq] at h
  exact h.1

theorem kind_ne_of_isTrivia {t : Token} (h : t.isTrivia = true) : t.kind ≠ .operator ∧ t.kind ≠ .identifier := by
  constructor
  all_goals
    intro hk
    simp [Token.isTrivia, hk] at h

/-- An operator is no other. -/
theorem isOp_eq_of_isOp {t : Token} {s : Text} (h : t.isOp s = true) (s' : Text) : t.isOp s' = (s == s') := by
  simp only [Token.isOp, Bool.and_eq_true, beq_iff_eq] at h
  simp [Token.isOp, h]

/-- The number of open parentheses after all tokens. -/
def depthAfterAll (depth : Nat) (ts : List Token) : Nat :=
  ts.foldl depthAfter depth

@[simp] theorem depthAfterAll_nil (depth : Nat) : depthAfterAll depth [] = depth := rfl

@[simp] theorem depthAfterAll_cons (depth : Nat) (t : Token) (ts : List Token) :
    depthAfterAll depth (t :: ts) = depthAfterAll (depthAfter depth t) ts := rfl

theorem depthAfter_of_not_operator {t : Token} (h : t.kind ≠ .operator) (depth : Nat) :
    depthAfter depth t = depth := by
  simp [depthAfter, isOp_eq_false h]

theorem depthAfterAll_dense (depth : Nat) (ts : List Token) :
    depthAfterAll depth (dense ts) = depthAfterAll depth ts := by
  induction ts generalizing depth with
  | nil => rfl
  | cons t ts ih =>
    by_cases h : t.kind = .whitespace
    · rw [dense_cons_whitespace h, depthAfterAll_cons, depthAfter_of_not_operator (by simp [h]), ih]
    · rw [dense_cons h, depthAfterAll_cons, depthAfterAll_cons, ih]

/-! ### Where rules begin -/

/-- The defining sign. -/
def definingSign : Text :=
  [':', ':', '=']

theorem head?_skipWhitespace (ts : List Token) : (skipWhitespace ts).head? = (dense ts).head? := by
  induction ts with
  | nil => rfl
  | cons t ts ih =>
    by_cases h : t.kind = .whitespace
    · simpa [skipWhitespace, dense_cons_whitespace h, h] using ih
    · simp [skipWhitespace, dense_cons h, h]

theorem isSome_afterDefinition? (ts : List Token) :
    (afterDefinition? ts).isSome = (dense ts).head?.any (·.isOp definingSign) := by
  rw [← head?_skipWhitespace, afterDefinition?]
  cases skipWhitespace ts with
  | nil => rfl
  | cons u us =>
    change _ = u.isOp definingSign
    cases hu : u.isOp definingSign with
    | true => simp [show u.isOp [':', ':', '='] = true from hu]
    | false => simp [show u.isOp [':', ':', '='] = false from hu]

/-- A rule begins at an identifier that the defining sign follows, whitespace aside. -/
theorem startsRule_eq (t : Token) (ts : List Token) :
    startsRule t ts = (t.kind == .identifier && (dense ts).head?.any (·.isOp definingSign)) := by
  rw [startsRule, isSome_afterDefinition?]

theorem startsRule_append {t : Token} {ts us : List Token} (h : startsRule t ts = true) :
    startsRule t (ts ++ us) = true := by
  rw [startsRule_eq, Bool.and_eq_true] at h ⊢
  refine ⟨h.1, ?_⟩
  cases hd : dense ts with
  | nil => simp [hd] at h
  | cons u us' => simpa [hd] using h.2

/-! ### What a body consists of -/

/-- Whether the tokens can stand in a body in which `depth` parentheses are open: no semicolon and no
beginning of a rule is outside parentheses. -/
def bodyFrom (depth : Nat) : List Token → Bool
  | [] => true
  | t :: ts =>
    !(t.isOp [';'] && depth == 0) && !(depth == 0 && startsRule t ts) && bodyFrom (depthAfter depth t) ts

theorem bodyFrom_cons_iff {depth : Nat} {t : Token} {ts : List Token} :
    bodyFrom depth (t :: ts) = true ↔
      ¬(t.isOp [';'] = true ∧ depth = 0) ∧ ¬(depth = 0 ∧ startsRule t ts = true) ∧
        bodyFrom (depthAfter depth t) ts = true := by
  simp only [bodyFrom, Bool.and_eq_true, Bool.not_eq_true', Bool.and_eq_false_iff, beq_eq_false_iff_ne, ne_eq,
    not_and, Bool.not_eq_true]
  constructor
  · rintro ⟨⟨h1, h2⟩, h3⟩
    exact ⟨fun hs => h1.resolve_left (by simp [hs]), fun hd => h2.resolve_left (by simp [hd]), h3⟩
  · rintro ⟨h1, h2, h3⟩
    refine ⟨⟨?_, ?_⟩, h3⟩
    · cases hs : t.isOp [';'] with
      | false => exact .inl rfl
      | true => exact .inr (h1 hs)
    · by_cases hd : depth = 0
      · exact .inr (h2 hd)
      · exact .inl hd

theorem bodyFrom_of_append {depth : Nat} {ts us : List Token} (h : bodyFrom depth (ts ++ us) = true) :
    bodyFrom depth ts = true := by
  induction ts generalizing depth with
  | nil => rfl
  | cons t ts ih =>
    rw [List.cons_append, bodyFrom_cons_iff] at h
    rw [bodyFrom_cons_iff]
    exact ⟨h.1, fun hs => h.2.1 ⟨hs.1, startsRule_append hs.2⟩, ih h.2.2⟩

/-- Whitespace plays no part in what a body is. -/
theorem bodyFrom_dense (depth : Nat) (ts : List Token) : bodyFrom depth (dense ts) = bodyFrom depth ts := by
  induction ts generalizing depth with
  | nil => rfl
  | cons t ts ih =>
    by_cases h : t.kind = .whitespace
    · have hop : t.kind ≠ .operator := by simp [h]
      rw [dense_cons_whitespace h, bodyFrom, depthAfter_of_not_operator hop, isOp_eq_false hop, startsRule_eq, ih]
      simp [h]
    · rw [dense_cons h, bodyFrom, bodyFrom, ih, startsRule_eq, startsRule_eq, dense_dense]

section Map

variable {f : Token → Token}

/-- Changing the texts of tokens other than operators does not change what a body is. -/
theorem bodyFrom_map (hk : ∀ t, (f t).kind = t.kind) (ho : ∀ t s, (f t).isOp s = t.isOp s) (depth : Nat)
    (ts : List Token) : bodyFrom depth (ts.map f) = bodyFrom depth ts := by
  induction ts generalizing depth with
  | nil => rfl
  | cons t ts ih =>
    have hs : startsRule (f t) (ts.map f) = startsRule t ts := by
      rw [startsRule_eq, startsRule_eq, dense_map hk, hk, List.head?_map, Option.any_map]
      simp [ho]
    rw [List.map_cons, bodyFrom, bodyFrom, hs, ho, ih]
    simp [depthAfter, ho]

theorem depthAfterAll_map (ho : ∀ t s, (f t).isOp s = t.isOp s) (depth : Nat) (ts : List Token) :
    depthAfterAll depth (ts.map f) = depthAfterAll depth ts := by
  induction ts generalizing depth with
  | nil => rfl
  | cons t ts ih => simp [ih, depthAfter, ho]

end Map

/-- A rule that begins among tokens begins with them alone, unless its defining sign comes first behind them. -/
theorem startsRule_of_append {t : Token} {ts us : List Token} (h : startsRule t (ts ++ us) = true)
    (hus : ∀ u ∈ (dense us).head?, u.isOp definingSign = false) : startsRule t ts = true := by
  rw [startsRule_eq] at h ⊢
  cases hts : dense ts with
  | nil =>
    rw [dense_append, hts, List.nil_append] at h
    cases hd : (dense us).head? with
    | none => simp [hd] at h
    | some u => simp [hd, hus u (by simp [hd])] at h
  | cons u us' => simpa [hts] using h

/-- What can stand in a body is read as part of it, whatever follows. -/
theorem readBody_bodyFrom_append {depth : Nat} {ts us : List Token} (h : bodyFrom depth ts = true)
    (hus : ∀ u ∈ (dense us).head?, u.isOp definingSign = false) :
    readBody depth (ts ++ us) =
      let r := readBody (depthAfterAll depth ts) us
      { r with body := ts ++ r.body } := by
  induction ts generalizing depth with
  | nil => rfl
  | cons t ts ih =>
    rw [bodyFrom_cons_iff] at h
    have hstart : ¬(depth = 0 ∧ startsRule t (ts ++ us) = true) := fun hst =>
      h.2.1 ⟨hst.1, startsRule_of_append hst.2 hus⟩
    rw [List.cons_append, readBody, if_neg h.1, if_neg hstart, ih h.2.2]
    rfl

/-- A body in front of a semicolon is read up to it. -/
theorem readBody_append {depth : Nat} {ts us : List Token} {semi : Token} (h : bodyFrom depth ts = true)
    (hd : depthAfterAll depth ts = 0) (hs : semi.isOp [';'] = true) :
    readBody depth (ts ++ semi :: us) = ⟨ts, .terminated, us⟩ := by
  have hhead : ∀ u ∈ (dense (semi :: us)).head?, u.isOp definingSign = false := by
    have hk : semi.kind ≠ .whitespace := by simp [kind_of_isOp hs]
    simp [dense_cons hk, isOp_eq_of_isOp hs, definingSign]
  rw [readBody_bodyFrom_append h hhead, hd, readBody, if_pos ⟨hs, rfl⟩]
  dsimp only
  rw [List.append_nil]

/-- Trivia are read as part of a body. -/
theorem readBody_cons_trivia {t : Token} (ht : t.isTrivia = true) (depth : Nat) (ts : List Token) :
    readBody depth (t :: ts) = { readBody depth ts with body := t :: (readBody depth ts).body } := by
  obtain ⟨hop, hid⟩ := kind_ne_of_isTrivia ht
  rw [readBody, if_neg (by simp [isOp_eq_false hop]), if_neg (by simp [startsRule, hid]),
    depthAfter_of_not_operator hop]

/-! ### What is found is of this kind -/

theorem readBody_spec (depth : Nat) (ts : List Token) :
    bodyFrom depth (readBody depth ts).body = true ∧
      ∃ mid, ts = (readBody depth ts).body ++ mid ++ (readBody depth ts).rest ∧
        ((readBody depth ts).ending = .interrupted → mid = []) := by
  fun_induction readBody depth ts with
  | case1 => exact ⟨rfl, [], rfl, fun _ => rfl⟩
  | case2 depth t ts => exact ⟨rfl, [t], rfl, fun h => by cases h⟩
  | case3 => exact ⟨rfl, [], rfl, fun _ => rfl⟩
  | case4 depth t ts hs hst r ih =>
    obtain ⟨hb, mid, hmid, hint⟩ := ih
    refine ⟨?_, mid, by rw [hmid]; simp [r], hint⟩
    rw [bodyFrom_cons_iff]
    refine ⟨hs, fun h => hst ⟨h.1, ?_⟩, hb⟩
    rw [hmid, List.append_assoc]
    exact startsRule_append h.2

theorem splitTrailingTrivia_append (ts : List Token) :
    (splitTrailingTrivia ts).1 ++ (splitTrailingTrivia ts).2 = ts := by
  have h := List.take_append_drop (ts.length - (ts.reverse.takeWhile Token.isTrivia).reverse.length) ts
  have htw : ts.reverse.takeWhile Token.isTrivia <+: ts.reverse := List.takeWhile_prefix _
  have hsuf : (ts.reverse.takeWhile Token.isTrivia).reverse <:+ ts := by
    simpa using List.reverse_suffix.2 htw
  rw [splitTrailingTrivia, ← List.suffix_iff_eq_drop.1 hsuf] at *
  exact h

/-- The body that is taken can stand in a rule, and what is left is the end of the tokens. -/
theorem takeBody_spec (ts : List Token) :
    bodyFrom 0 (takeBody ts).body = true ∧ ∃ mid, ts = (takeBody ts).body ++ mid ++ (takeBody ts).rest := by
  obtain ⟨hb, mid, hmid, hint⟩ := readBody_spec 0 ts
  unfold takeBody
  dsimp only
  split
  · rename_i he
    have happ := splitTrailingTrivia_append (readBody 0 ts).body
    rw [hint he, List.append_nil, ← happ] at hmid
    rw [← happ] at hb
    exact ⟨bodyFrom_of_append hb, [], by rw [List.append_nil, ← List.append_assoc]; exact hmid⟩
  · exact ⟨hb, mid, hmid⟩

end GrammarText
