import GrammarText.Proofs.Layout.Comments
import GrammarText.Proofs.Layout.Reading
import Mathlib.Data.List.Forall2

/-!
# What a laid out document says

Rules that are laid out one after the other, whatever stands between them, are found again: the same
names, the same comments before them, and the same bodies but for whitespace and blanks at the ends of
comments (`extract_joined`). Trimming line ends only reaches the comments before rules (`trimBlanks_joined`), so
that the last pass over a document is a layout again (`cleanUp_joined`).
-/

namespace GrammarText

/-- How a rule that was laid out is read back. -/
structure Restored (r r' : Rule) : Prop where
  name : r'.name = r.name
  comments : r'.comments = r.comments
  body : dense r'.body = (dense r.body).map Token.tidy

/-! ### Finding rules again -/

section Reading

variable {r : Rule} {rules : List Rule}

/-- The tokens of a laid out body: the rule without its whitespace, and the semicolon. -/
theorem lexemes_renderBody (h : r.Legible) (o : LayoutOptions) (rest : Text) :
    ∃ us, lexemes .ebnf (renderBody o r.name (splitBars 0 r.body) ++ rest) =
        us ++ ⟨.operator, [';'], {}⟩ :: lexemes .ebnf rest ∧
      dense us = ⟨.identifier, r.name, {}⟩ :: ⟨.operator, definingSign, {}⟩ :: (dense r.body).map Token.tidy := by
  obtain ⟨t, ht, hspaced⟩ := spaced_renderBody h o
  have hn : Written ⟨.identifier, r.name, {}⟩ := ⟨h.name, rfl, fun hk => nomatch hk⟩
  have hs : spelling [⟨.identifier, r.name, {}⟩] = r.name := by simp [spelling]
  have hall : Spaced (([⟨.identifier, r.name, {}⟩] :: bodyGroups r).map spelling ++ [[';']]) (r.name ++ ([' '] ++ t)) := by
    rw [List.map_cons, hs]
    exact .cons (.inl ⟨rfl, not_line_of_identifier h.name⟩) hspaced
  have hsolid : ∀ g ∈ [⟨.identifier, r.name, {}⟩] :: bodyGroups r, Solid g := by
    intro g hg
    rcases List.mem_cons.1 hg with rfl | hg
    · exact solid_singleton hn
    · exact solid_bodyGroups h g hg
  obtain ⟨us, hus, hd⟩ := lexemes_spaced hall hsolid rest
  refine ⟨us, ?_, ?_⟩
  · rw [ht]
    exact hus
  · rw [hd, List.flatten_cons, flatten_bodyGroups h]
    rfl

theorem bodyFrom_map_tidy (ts : List Token) : bodyFrom 0 ((dense ts).map Token.tidy) = bodyFrom 0 ts := by
  rw [bodyFrom_map Token.kind_tidy Token.isOp_tidy, bodyFrom_dense]

theorem depthAfterAll_map_tidy (ts : List Token) :
    depthAfterAll 0 ((dense ts).map Token.tidy) = depthAfterAll 0 ts := by
  rw [depthAfterAll_map Token.isOp_tidy, depthAfterAll_dense]

/-- A rule that is laid out is found as it is, and the search goes on right behind it. -/
theorem extractFrom_renderRule (h : r.Legible) (o : LayoutOptions) (rest : Text) :
    ∃ r', Restored r r' ∧ extractFrom [] (lexemes .ebnf (renderRule o r ++ rest)) =
      (r', .terminated) :: extractFrom [] (lexemes .ebnf rest) := by
  obtain ⟨us, hus, hd⟩ := lexemes_renderBody h o rest
  obtain ⟨t, ht, -⟩ := spaced_renderBody h o
  have hhead : ∀ y ∈ (renderBody o r.name (splitBars 0 r.body) ++ rest).head?, isSpace y = false := by
    obtain ⟨c, s, hc, hsp⟩ := h.name.starts (by decide)
    rw [ht, hc]
    simpa using hsp
  obtain ⟨body, hbody, -, hfound⟩ := @extractFrom_rule_append us _ (lexemes .ebnf rest) _ _ ⟨.operator, [';'], {}⟩
    ([] ++ r.comments) hd rfl rfl ((bodyFrom_map_tidy r.body).trans h.body)
    ((depthAfterAll_map_tidy r.body).trans h.closed) rfl
  refine ⟨⟨r.name, body, r.comments, {}⟩, ⟨rfl, rfl, hbody⟩, ?_⟩
  rw [renderRule, List.append_assoc, extractFrom_leading h.comments hhead, hus, hfound]
  rfl

theorem joinSpaced_rules (o : LayoutOptions) (gap : Nat) (r : Rule) (h : rules ≠ []) :
    joinSpaced gap ((r :: rules).map (renderRule o)) =
      renderRule o r ++ (List.replicate gap '\n' ++ joinSpaced gap (rules.map (renderRule o))) := by
  obtain ⟨r', rs, rfl⟩ := List.exists_cons_of_ne_nil h
  rw [List.map_cons, List.map_cons, joinSpaced, List.append_assoc]
  exact List.cons_ne_nil _ _

theorem isSpace_of_mem_newlines {gap : Nat} {x : Char} (h : x ∈ List.replicate gap '\n') : isSpace x = true := by
  rw [List.eq_of_mem_replicate h]
  rfl

/-- Rules that are laid out one after the other are found one after the other. -/
theorem extract_joined (h : ∀ r ∈ rules, r.Legible) (o : LayoutOptions) (gap : Nat) {tail : Text}
    (htail : ∀ x ∈ tail, isSpace x = true) :
    List.Forall₂ Restored rules
      (extract (lexemes .ebnf (joinSpaced gap (rules.map (renderRule o)) ++ tail))) := by
  have hnone : extractFrom [] (lexemes .ebnf tail) = [] := by
    have := extractFrom_gap htail [] []
    rwa [List.append_nil, lexemes_nil, extractFrom_nil] at this
  induction rules with
  | nil => simp [extract, joinSpaced, hnone]
  | cons r rs ih =>
    have hrs := ih fun r' hr' => h r' (List.mem_cons_of_mem _ hr')
    cases rs with
    | nil =>
      obtain ⟨r', hr', heq⟩ := extractFrom_renderRule (h r List.mem_cons_self) o tail
      simp only [extract, List.map_singleton, joinSpaced, heq, hnone]
      exact .cons hr' .nil
    | cons r₂ rs =>
      obtain ⟨r', hr', heq⟩ := extractFrom_renderRule (h r List.mem_cons_self) o
        (List.replicate gap '\n' ++ (joinSpaced gap ((r₂ :: rs).map (renderRule o)) ++ tail))
      rw [extractFrom_gap fun x hx => isSpace_of_mem_newlines hx] at heq
      rw [extract, joinSpaced_rules o gap r (List.cons_ne_nil _ _), List.append_assoc, List.append_assoc, heq, List.map_cons]
      exact .cons hr' hrs

end Reading

/-! ### Trimming -/

/-- The rule with the line ends of the comments before it trimmed. -/
def Rule.trimmed (r : Rule) : Rule :=
  { r with comments := r.comments.map (trimBlanks false) }

/-- Whether trimming leaves the tokens of a body alone. -/
def Rule.NeatBody (r : Rule) : Prop :=
  ∀ t ∈ dense r.body, Neat t.tidy.text

section Trimming

variable {r : Rule} {rules : List Rule}

theorem Rule.Legible.trimmed (h : r.Legible) : r.trimmed.Legible where
  name := h.name
  tokens := h.tokens
  apart := h.apart
  body := h.body
  closed := h.closed
  comments := by
    intro x hx
    obtain ⟨y, hy, rfl⟩ := List.mem_map.1 hx
    exact (h.comments y hy).trim

theorem Rule.trimmed_trimmed (r : Rule) : r.trimmed.trimmed = r.trimmed := by
  have h : trimBlanks false ∘ trimBlanks false = trimBlanks false :=
    funext fun t => trimBlanks_trimBlanks false t
  rw [Rule.trimmed, Rule.trimmed, List.map_map, h]

/-- Words with gaps are left alone if the words are. -/
theorem Spaced.neat {ws : List Text} {s : Text} (hs : Spaced ws s) (hn : ∀ w ∈ ws, Neat w)
    (hw : ∀ w ∈ ws, ∃ c r, w = c :: r ∧ isSpace c = false) : Neat s := by
  induction hs with
  | last w => exact hn w List.mem_cons_self
  | @cons w g s ws hg hs ih =>
    have hws := fun w' hw' => hw w' (List.mem_cons_of_mem _ hw')
    have hsn := ih (fun w' hw' => hn w' (List.mem_cons_of_mem _ hw')) hws
    obtain ⟨c, r, rfl, hc⟩ := hs.starts hws
    have hcn : (c == '\n') = false := by
      rw [beq_eq_false_iff_ne]
      rintro rfl
      cases hc
    intro e
    rw [trimBlanks_append, trimBlanks_append, hsn]
    have hgap : trimBlanks (endsLine e (c :: r)) g = g := by
      rw [endsLine, hcn]
      obtain ⟨rfl, -⟩ | ⟨n, rfl⟩ := hg
      · rfl
      · rw [trimBlanks_cons_keep (.inr (.inl rfl))]
        congr 1
        induction n with
        | zero => rfl
        | succ n ihn =>
          rw [show spaces (n + 1) = ' ' :: spaces n from rfl, trimBlanks_cons_keep, ihn]
          rw [ihn]
          cases n <;> exact .inr (.inr rfl)
    rw [hgap, hn w List.mem_cons_self]

theorem neat_bodyGroups (h : r.Legible) (hn : r.NeatBody) : ∀ w ∈ (bodyGroups r).map spelling ++ [[';']], Neat w := by
  have hsign : ∀ {t : Text}, (∀ c ∈ t, isBlank c = false) → Neat t := neat_of_forall
  intro w hw
  rcases List.mem_append.1 hw with hw | hw
  · obtain ⟨g, hg, rfl⟩ := List.mem_map.1 hw
    refine neat_flatMap fun t ht => ?_
    have hmem : t ∈ (bodyGroups r).flatten := List.mem_flatten.2 ⟨g, hg, ht⟩
    rw [flatten_bodyGroups h] at hmem
    rcases List.mem_cons.1 hmem with rfl | hmem
    · apply hsign
      simp [definingSign]
      decide
    · obtain ⟨u, hu, rfl⟩ := List.mem_map.1 hmem
      exact hn u hu
  · obtain rfl := List.mem_singleton.1 hw
    apply hsign
    simp
    decide

/-- A name is left alone in front of a space. -/
theorem trimBlanks_name {n : Text} (h : Lexeme .ebnf .identifier n) : trimBlanks false n = n := by
  cases h with
  | word hc hs => exact neat_of_forall (word_not_blank hc hs) false
  | stray => exact trimBlanks_cons_keep (.inr (.inr rfl))

/-- Trimming a laid out rule trims the comments before it. -/
theorem trimBlanks_renderRule (h : r.Legible) (hn : r.NeatBody) (o : LayoutOptions) (e : Bool) :
    trimBlanks e (renderRule o r) = renderRule o r.trimmed := by
  obtain ⟨t, ht, hspaced⟩ := spaced_renderBody h o
  have hwords : ∀ w ∈ (bodyGroups r).map spelling ++ [[';']], ∃ c s, w = c :: s ∧ isSpace c = false := by
    intro w hw
    rcases List.mem_append.1 hw with hw | hw
    · obtain ⟨g, hg, rfl⟩ := List.mem_map.1 hw
      exact (solid_bodyGroups h g hg).starts
    · obtain rfl := List.mem_singleton.1 hw
      exact ⟨';', [], rfl, rfl⟩
  have htail := hspaced.neat (neat_bodyGroups h hn) hwords
  obtain ⟨c, s, rfl, hc⟩ := hspaced.starts hwords
  have hcn : endsLine e (c :: s) = false := by
    rw [endsLine, beq_eq_false_iff_ne]
    rintro rfl
    cases hc
  have hbody : trimBlanks e (renderBody o r.name (splitBars 0 r.body)) = renderBody o r.name (splitBars 0 r.body) := by
    rw [ht, trimBlanks_append, trimBlanks_cons_keep (.inr (.inr (by rw [htail, hcn]))), htail]
    exact congrArg (· ++ _) (trimBlanks_name h.name)
  have hends : endsLine e (renderBody o r.name (splitBars 0 r.body)) = false := by
    obtain ⟨d, z, hd, hsp⟩ := h.name.starts (by decide)
    rw [ht, hd, List.cons_append, endsLine, beq_eq_false_iff_ne]
    rintro rfl
    cases hsp
  rw [renderRule, trimBlanks_append, hbody, hends, trimBlanks_flatten h.comments]
  rfl

theorem trimBlanks_newlines (e : Bool) (n : Nat) : trimBlanks e (List.replicate n '\n') = List.replicate n '\n' := by
  induction n with
  | zero => rfl
  | succ n ih => rw [List.replicate_succ, trimBlanks_cons_keep (.inr (.inl rfl)), ih]

/-- Trimming laid out rules is laying out the rules with trimmed comments. -/
theorem trimBlanks_joined (h : ∀ r ∈ rules, r.Legible) (hn : ∀ r ∈ rules, r.NeatBody) (o : LayoutOptions) (gap : Nat)
    (e : Bool) :
    trimBlanks e (joinSpaced gap (rules.map (renderRule o))) =
      joinSpaced gap ((rules.map Rule.trimmed).map (renderRule o)) := by
  induction rules with
  | nil => rfl
  | cons r rs ih =>
    have hr := trimBlanks_renderRule (h r List.mem_cons_self) (hn r List.mem_cons_self) o
    have hrs := ih (fun r' hr' => h r' (List.mem_cons_of_mem _ hr')) fun r' hr' => hn r' (List.mem_cons_of_mem _ hr')
    cases rs with
    | nil => exact hr e
    | cons r₂ rs =>
      have hne : (r₂ :: rs).map Rule.trimmed ≠ [] := List.cons_ne_nil _ _
      rw [joinSpaced_rules o gap r (List.cons_ne_nil _ _), trimBlanks_append, trimBlanks_append, hr,
        trimBlanks_newlines, hrs, ← joinSpaced_rules o gap r.trimmed hne, ← List.map_cons]

end Trimming

end GrammarText
