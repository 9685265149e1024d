import GrammarText.Proofs.Rule.Partition

/-!
# Trivia between the tokens

Two sequences of tokens can differ in whitespace, or in whitespace and comments, and still hold the same
rules. `Padded shown named ts us` says of two sequences that they agree in the tokens that `shown` shows,
and that a rule begins at the same of these tokens in both; the beginnings in `ts` at the places that are
not among `named` are excepted. The searches run side by side (`Padded.readBody_alike`,
`Padded.of_afterDefinition?`), so if all rules found in `ts` begin at places in `named`, the same rules are
found in `us`, up to what is not shown (`Padded.map_view`).
-/

namespace GrammarText

/-- Whether two sequences agree in the tokens that are shown and in the beginnings of rules, as far as
these stand at the places `named` in the first sequence. -/
inductive Padded (shown : Token → Bool) (named : Position → Prop) : List Token → List Token → Prop where
  | nil : Padded shown named [] []
  | left {t : Token} {ts us : List Token} : shown t = false → Padded shown named ts us →
      Padded shown named (t :: ts) us
  | right {u : Token} {ts us : List Token} : shown u = false → Padded shown named ts us →
      Padded shown named ts (u :: us)
  | keep {t : Token} {ts us : List Token} : (startsRule t us = true → startsRule t ts = true) →
      (named t.start → startsRule t ts = true → startsRule t us = true) → Padded shown named ts us →
      Padded shown named (t :: ts) (t :: us)

/-- What of a rule and its ending does not depend on what is not shown. -/
def view (shown : Token → Bool) (r : Rule × BodyEnd) : Text × List Token × BodyEnd :=
  (r.1.name, r.1.body.filter shown, r.2)

theorem filter_dropWhile_comm {shown trivia : Token → Bool} (h : ∀ t, shown t = false → trivia t = true)
    (ts : List Token) : (ts.dropWhile trivia).filter shown = (ts.filter shown).dropWhile trivia := by
  induction ts with
  | nil => rfl
  | cons t ts ih =>
    cases hs : shown t with
    | false => rw [List.dropWhile_cons_of_pos (h t hs), List.filter_cons_of_neg (by simp [hs]), ih]
    | true =>
      rw [List.filter_cons_of_pos hs]
      cases ht : trivia t with
      | true => rw [List.dropWhile_cons_of_pos ht, List.dropWhile_cons_of_pos ht, ih]
      | false =>
        rw [List.dropWhile_cons_of_neg (by simp [ht]), List.dropWhile_cons_of_neg (by simp [ht]),
          List.filter_cons_of_pos hs]

section Steps

variable {shown : Token → Bool} {named : Position → Prop} {t : Token} {ts us : List Token}

theorem filter_splitTrailingTrivia (hshown : ∀ t, shown t = false → t.isTrivia = true) (ts : List Token) :
    (splitTrailingTrivia ts).1.filter shown = (ts.filter shown).rdropWhile Token.isTrivia := by
  rw [splitTrailingTrivia_fst, List.rdropWhile, List.rdropWhile, List.filter_reverse, filter_dropWhile_comm hshown,
    List.filter_reverse]

/-- The search passes over trivia; only the comments before the next rule can change. -/
theorem extractFrom_cons_trivia (ht : t.isTrivia = true) (pending : List Text) (ts : List Token) :
    ∃ pending', extractFrom pending (t :: ts) = extractFrom pending' ts := by
  by_cases hk : t.kind = .comment
  · exact ⟨_, extractFrom_comment hk⟩
  · exact ⟨pending, extractFrom_skip hk (by simp [startsRule, (kind_ne_of_isTrivia ht).2])⟩

theorem extractFrom_append_trivia {trivia : List Token} (h : ∀ t ∈ trivia, t.isTrivia = true) (pending : List Text)
    (ts : List Token) : ∃ pending', extractFrom pending (trivia ++ ts) = extractFrom pending' ts := by
  induction trivia generalizing pending with
  | nil => exact ⟨pending, rfl⟩
  | cons t trivia ih =>
    obtain ⟨pending', hp⟩ := extractFrom_cons_trivia (h t List.mem_cons_self) pending (trivia ++ ts)
    rw [List.cons_append, hp]
    exact ih (fun u hu => h u (List.mem_cons_of_mem _ hu)) pending'

/-- Trivia in front of the defining sign are whitespace. -/
theorem afterDefinition?_cons_trivia {body : List Token} (ht : t.isTrivia = true)
    (h : afterDefinition? (t :: ts) = some body) : afterDefinition? ts = some body := by
  by_cases hw : t.kind = .whitespace
  · simpa [afterDefinition?, skipWhitespace, hw] using h
  · simp [afterDefinition?, skipWhitespace, hw, isOp_eq_false (kind_ne_of_isTrivia ht).1] at h

/-- Whether two bodies and what follows them differ only in what is not shown. -/
structure BodySplit.Alike (shown : Token → Bool) (named : Position → Prop) (r r' : BodySplit) : Prop where
  ending : r'.ending = r.ending
  body : r'.body.filter shown = r.body.filter shown
  rest : Padded shown named r.rest r'.rest

/-- Bodies are read side by side, if a body of the first sequence is ended only by a rule at a place that
is agreed on. -/
theorem Padded.readBody_alike (hshown : ∀ t, shown t = false → t.isTrivia = true) (h : Padded shown named ts us)
    {depth : Nat} (hnamed : (readBody depth ts).ending = .interrupted →
      ∀ t ∈ (readBody depth ts).rest.head?, named t.start) :
    (readBody depth ts).Alike shown named (readBody depth us) := by
  induction h generalizing depth with
  | nil => exact ⟨rfl, rfl, .nil⟩
  | @left t ts us hs h ih =>
    rw [readBody_cons_trivia (hshown t hs)] at hnamed ⊢
    obtain ⟨he, hb, hr⟩ := ih hnamed
    exact ⟨he, by simp [hs, hb], hr⟩
  | @right u ts us hs h ih =>
    rw [readBody_cons_trivia (hshown u hs)]
    obtain ⟨he, hb, hr⟩ := ih hnamed
    exact ⟨he, by simp [hs, hb], hr⟩
  | @keep t ts us hback hforth h ih =>
    rw [readBody] at hnamed ⊢
    rw [readBody]
    by_cases hsemi : t.isOp [';'] ∧ depth = 0
    · rw [if_pos hsemi, if_pos hsemi]
      exact ⟨rfl, rfl, h⟩
    rw [if_neg hsemi] at hnamed ⊢
    rw [if_neg hsemi]
    by_cases hstart : depth = 0 ∧ startsRule t ts
    · rw [if_pos hstart] at hnamed ⊢
      rw [if_pos ⟨hstart.1, hforth (hnamed rfl t rfl) hstart.2⟩]
      exact ⟨rfl, rfl, .keep hback hforth h⟩
    · rw [if_neg hstart] at hnamed ⊢
      rw [if_neg fun h' => hstart ⟨h'.1, hback h'.2⟩]
      obtain ⟨he, hb, hr⟩ := ih hnamed
      exact ⟨he, by simp [List.filter_cons, hb], hr⟩

/-- What follows the defining sign is found side by side. -/
theorem Padded.of_afterDefinition? (hshown : ∀ t, shown t = false → t.isTrivia = true) (h : Padded shown named ts us)
    {body body' : List Token} (hb : afterDefinition? ts = some body) (hb' : afterDefinition? us = some body') :
    Padded shown named body body' := by
  induction h with
  | nil => cases hb
  | left hs _ ih => exact ih (afterDefinition?_cons_trivia (hshown _ hs) hb) hb'
  | right hs _ ih => exact ih hb (afterDefinition?_cons_trivia (hshown _ hs) hb')
  | @keep t ts us _ _ h ih =>
    by_cases hw : t.kind = .whitespace
    · have ht : t.isTrivia = true := by simp [Token.isTrivia, hw]
      exact ih (afterDefinition?_cons_trivia ht hb) (afterDefinition?_cons_trivia ht hb')
    · have hskip : ∀ vs, skipWhitespace (t :: vs) = t :: vs := fun vs => by simp [skipWhitespace, hw]
      simp only [afterDefinition?, hskip] at hb hb'
      split at hb
      · rename_i hsign
        rw [if_pos hsign] at hb'
        cases hb
        cases hb'
        exact h
      · cases hb

end Steps

/-! ### The rules -/

section Rules

variable {shown : Token → Bool} {named : Position → Prop} {ts us : List Token}

/-- How the search goes on behind a body that is taken, and what of the body is shown. -/
theorem view_takeBody (hshown : ∀ t, shown t = false → t.isTrivia = true) (ts : List Token) :
    ∃ pending, extractFrom [] (takeBody ts).rest = extractFrom pending (readBody 0 ts).rest ∧
      (takeBody ts).ending = (readBody 0 ts).ending ∧
      (takeBody ts).body.filter shown =
        if (readBody 0 ts).ending = .interrupted then ((readBody 0 ts).body.filter shown).rdropWhile Token.isTrivia
        else (readBody 0 ts).body.filter shown := by
  by_cases he : (readBody 0 ts).ending = .interrupted
  · rw [takeBody_of_interrupted he, if_pos he, he]
    have htrivia : ∀ t ∈ (splitTrailingTrivia (readBody 0 ts).body).2, t.isTrivia = true := fun t ht =>
      List.mem_takeWhile_imp (List.mem_reverse.1 ht)
    obtain ⟨pending, hp⟩ := extractFrom_append_trivia htrivia [] (readBody 0 ts).rest
    exact ⟨pending, hp, rfl, filter_splitTrailingTrivia hshown _⟩
  · rw [takeBody_of_ne_interrupted he, if_neg he]
    exact ⟨[], rfl, rfl, rfl⟩

/-- A body that the next rule ends is followed by a rule that the search finds. -/
theorem named_of_interrupted {body : List Token} {pending : List Text}
    (hnamed : ∀ r ∈ extractFrom pending (readBody 0 body).rest, named r.1.start)
    (he : (readBody 0 body).ending = .interrupted) : ∀ t ∈ (readBody 0 body).rest.head?, named t.start := by
  have hends := readBody_ends 0 body
  rw [he] at hends
  obtain ⟨-, -, name, blanks, sign, rest, heq, hn, hb, hs⟩ := hends
  have hafter : afterDefinition? (blanks ++ sign :: rest) = some rest := by
    rw [afterDefinition?, skipWhitespace_append_cons hb (by simp [kind_of_isOp hs])]
    exact if_pos hs
  rw [heq, extractFrom_rule hn hafter] at hnamed
  intro t ht
  obtain rfl : name = t := by simpa [heq] using ht
  exact hnamed _ List.mem_cons_self

/-- If the rules that are found in the first sequence begin at places that are agreed on, then the same
rules are found in the second, up to what is not shown. -/
theorem Padded.map_view (hshown : ∀ t, shown t = false → t.isTrivia = true) (h : Padded shown named ts us)
    {pending : List Text} (hnamed : ∀ r ∈ extractFrom pending ts, named r.1.start) (pending' : List Text) :
    (extractFrom pending' us).map (view shown) = (extractFrom pending ts).map (view shown) := by
  induction hn : ts.length + us.length using Nat.strongRecOn generalizing ts us pending pending' with
  | ind n ih =>
    cases h with
    | nil => simp
    | @left t ts us hs h =>
      obtain ⟨p, hp⟩ := extractFrom_cons_trivia (hshown t hs) pending ts
      rw [hp] at hnamed ⊢
      exact ih _ (by simp at hn; omega) h hnamed pending' rfl
    | @right u ts us hs h =>
      obtain ⟨p, hp⟩ := extractFrom_cons_trivia (hshown u hs) pending' us
      rw [hp]
      exact ih _ (by simp at hn; omega) h hnamed p rfl
    | @keep t ts us hback hforth h =>
      have hlt : ts.length + us.length < n := by simp at hn; omega
      rcases extractFrom_cases pending t ts with ⟨hk, heq⟩ | ⟨body, hk, ha, heq⟩ | ⟨hk, hs, heq⟩
      · rw [heq] at hnamed ⊢
        rw [extractFrom_comment hk]
        exact ih _ hlt h hnamed _ rfl
      · rw [heq] at hnamed ⊢
        have hstart : startsRule t us = true :=
          hforth (hnamed _ List.mem_cons_self) (by simp [startsRule, hk, ha])
        obtain ⟨body', ha'⟩ := Option.isSome_iff_exists.1 (Bool.and_eq_true_iff.1 hstart).2
        rw [extractFrom_rule hk ha']
        obtain ⟨p, hrest, hend, hbody⟩ := view_takeBody hshown body
        obtain ⟨p', hrest', hend', hbody'⟩ := view_takeBody hshown body'
        rw [hrest] at hnamed ⊢
        rw [hrest']
        have hnext := fun r hr => hnamed r (List.mem_cons_of_mem _ hr)
        have halike := (h.of_afterDefinition? hshown ha ha').readBody_alike hshown (named_of_interrupted hnext)
        have hshort : (readBody 0 body).rest.length + (readBody 0 body').rest.length < n := by
          have hl := length_lt_of_afterDefinition? ha
          have hl' := length_lt_of_afterDefinition? ha'
          have hr := length_readBody 0 body
          have hr' := length_readBody 0 body'
          omega
        rw [List.map_cons, List.map_cons, ih _ hshort halike.rest hnext p' rfl]
        simp only [view, hend, hend', hbody, hbody', halike.ending, halike.body]
      · have hs' : startsRule t us = false := by
          rw [Bool.eq_false_iff] at hs ⊢
          exact fun h' => hs (hback h')
        rw [heq] at hnamed ⊢
        rw [extractFrom_skip hk hs']
        exact ih _ hlt h hnamed _ rfl

end Rules

/-! ### Whitespace -/

section Whitespace

variable {ts us : List Token}

/-- Whitespace apart, a sequence agrees with what is left of it without whitespace. -/
theorem padded_dense (named : Position → Prop) (ts : List Token) :
    Padded (·.kind != .whitespace) named ts (dense ts) := by
  induction ts with
  | nil => exact .nil
  | cons t ts ih =>
    by_cases hw : t.kind = .whitespace
    · rw [dense_cons_whitespace hw]
      exact .left (by simp [hw]) ih
    · have hstart : startsRule t (dense ts) = startsRule t ts := by rw [startsRule_eq, startsRule_eq, dense_dense]
      rw [dense_cons hw]
      exact .keep (fun h => hstart ▸ h) (fun _ h => hstart ▸ h) ih

/-- Where whitespace stands plays no part in which rules are found, comments before them aside. -/
theorem map_view_of_dense_eq (h : dense us = dense ts) (pending pending' : List Text) :
    (extractFrom pending' us).map (view (·.kind != .whitespace)) =
      (extractFrom pending ts).map (view (·.kind != .whitespace)) := by
  have hshown : ∀ t : Token, (t.kind != .whitespace) = false → t.isTrivia = true := by
    intro t ht
    simp [Token.isTrivia, show t.kind = .whitespace by simpa using ht]
  have hdense : ∀ (p : List Text) (vs : List Token), (extractFrom [] (dense vs)).map (view (·.kind != .whitespace)) =
      (extractFrom p vs).map (view (·.kind != .whitespace)) := fun p vs =>
    (padded_dense (fun _ => True) vs).map_view hshown (fun _ _ => trivial) []
  rw [← hdense pending' us, ← hdense pending ts, h]

end Whitespace

end GrammarText
