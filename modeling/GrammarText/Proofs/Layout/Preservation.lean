import GrammarText.Proofs.Layout.Clean
import GrammarText.Proofs.Layout.Essence

/-!
# Formatting preserves the grammar

The text of a formatted document is a layout of its rules, with the comments before them trimmed
(`text_formatDocument`). What the rules of a clean document say is what the rules of the formatted document
say (`content_formatDocument`).
-/

namespace GrammarText

/-- The rule as the last pass over a document leaves it. -/
def Rule.cleaned (o : LayoutOptions) (r : Rule) : Rule :=
  if o.trimLines then r.trimmed else r

/-- What the last pass over a document adds at the end. -/
def finalEnd (o : LayoutOptions) : Text :=
  if o.finalNewline then ['\n'] else []

section LastPass

variable {r : Rule} {rules : List Rule} {o : LayoutOptions}

theorem Rule.Legible.cleaned (h : r.Legible) : (r.cleaned o).Legible := by
  unfold Rule.cleaned
  split
  · exact h.trimmed
  · exact h

theorem Rule.NeatBody.cleaned (h : r.NeatBody) : (r.cleaned o).NeatBody := by
  unfold Rule.cleaned
  split <;> exact h

theorem Rule.cleaned_cleaned (o : LayoutOptions) (r : Rule) : (r.cleaned o).cleaned o = r.cleaned o := by
  cases h : o.trimLines with
  | true => simp [Rule.cleaned, h, Rule.trimmed_trimmed]
  | false => simp [Rule.cleaned, h]

theorem content_cleaned (o : LayoutOptions) (r : Rule) : (r.cleaned o).content = r.content := by
  unfold Rule.cleaned
  split <;> rfl

/-- The last of several lines ends them. -/
theorem joinLines_concat (ls : List Text) (l : Text) : ∃ s, joinLines (ls ++ [l]) = s ++ l := by
  induction ls with
  | nil => exact ⟨[], by simp [joinLines]⟩
  | cons l' ls ih =>
    obtain ⟨s, hs⟩ := ih
    have hne : ls ++ [l] ≠ [] := by simp
    refine ⟨l' ++ '\n' :: s, ?_⟩
    rw [List.cons_append, joinLines_cons l' hne, hs, List.append_assoc, List.cons_append]

/-- A body that is laid out ends with a semicolon, whatever it consists of. -/
theorem getLast?_renderBody (o : LayoutOptions) (name : Text) {pieces : List (List Token)} (hp : pieces ≠ []) :
    (renderBody o name pieces).getLast? = some ';' := by
  obtain ⟨rows, htext, hrows, -⟩ := renderBody_rows o name hp
  rcases List.eq_nil_or_concat' rows with rfl | ⟨before, last, rfl⟩
  · obtain ⟨ws, rest, hbegins⟩ := hrows.begins
    cases hbegins
  obtain ⟨ws, w, hlast⟩ : ∃ ws w, last.words = ws ++ [w] :=
    (List.eq_nil_or_concat' last.words).resolve_left (hrows.filled last (by simp))
  have hwords := hrows.words_eq
  rw [List.flatMap_append, List.flatMap_singleton, hlast, ← List.append_assoc] at hwords
  obtain ⟨-, hsemi⟩ := List.append_inj' hwords rfl
  cases hsemi
  have hline : last.text.getLast? = some ';' := by
    rw [Row.text, hlast]
    cases ws with
    | nil => simp
    | cons v ws =>
      rw [joinWords_append (List.cons_ne_nil _ _) (List.cons_ne_nil _ _), joinWords_singleton]
      simp
  obtain ⟨s, hs⟩ := joinLines_concat (before.map Row.text) last.text
  rw [htext, rowsText, List.map_append, List.map_singleton, hs, List.getLast?_append, hline]
  rfl

/-- Laid out rules end with a semicolon. -/
theorem getLast?_joined (hne : rules ≠ []) (o : LayoutOptions) (gap : Nat) :
    (joinSpaced gap (rules.map (renderRule o))).getLast? = some ';' := by
  induction rules with
  | nil => exact absurd rfl hne
  | cons r rs ih =>
    cases rs with
    | nil =>
      change (renderRule o r).getLast? = some ';'
      rw [renderRule, List.getLast?_append, getLast?_renderBody o r.name (splitBars_ne_nil 0 r.body)]
      rfl
    | cons r₂ rs =>
      have hrs := ih (List.cons_ne_nil _ _)
      rw [joinSpaced_rules o gap r (List.cons_ne_nil _ _), List.getLast?_append, List.getLast?_append, hrs]
      rfl

/-- The last pass over laid out rules trims the comments before them and ends the document. -/
theorem cleanUp_joined (h : ∀ r ∈ rules, r.Legible) (hn : ∀ r ∈ rules, r.NeatBody) (hne : rules ≠ [])
    (o : LayoutOptions) (gap : Nat) :
    cleanUp o (joinSpaced gap (rules.map (renderRule o))) =
      joinSpaced gap ((rules.map (Rule.cleaned o)).map (renderRule o)) ++ finalEnd o := by
  have htrim : (if o.trimLines then
        joinLines ((splitLines (joinSpaced gap (rules.map (renderRule o)))).map rstrip)
      else joinSpaced gap (rules.map (renderRule o))) =
      joinSpaced gap ((rules.map (Rule.cleaned o)).map (renderRule o)) := by
    cases ht : o.trimLines with
    | true =>
      have hmap : rules.map (Rule.cleaned o) = rules.map Rule.trimmed :=
        List.map_congr_left fun r _ => if_pos ht
      rw [if_pos rfl, joinLines_map_rstrip, trimBlanks_joined h hn, hmap]
    | false =>
      have hid : Rule.cleaned o = id := by
        funext r
        rw [Rule.cleaned, ht]
        rfl
      rw [if_neg (by simp), hid, List.map_id]
  have hlast : (joinSpaced gap ((rules.map (Rule.cleaned o)).map (renderRule o))).getLast? = some ';' :=
    getLast?_joined (by simpa using hne) o gap
  have hempty : (joinSpaced gap ((rules.map (Rule.cleaned o)).map (renderRule o))).isEmpty = false := by
    cases hj : joinSpaced gap ((rules.map (Rule.cleaned o)).map (renderRule o)) with
    | nil =>
      rw [hj] at hlast
      cases hlast
    | cons => rfl
  simp only [cleanUp, htrim, hlast, hempty, finalEnd]
  cases o.finalNewline <;> simp

end LastPass

/-- The number of line feeds between rules. -/
def ruleGap (o : LayoutOptions) : Nat :=
  (o.blankLines + 1).toNat

section Document

variable {source : Text} {rules : List Rule} {o : LayoutOptions}

theorem joinedRules_map_bare (o : LayoutOptions) (rules : List Rule) :
    joinedRules o (rules.map Rule.bare) = joinedRules o rules := by
  rw [joinedRules, joinedRules, List.map_map]
  have hr : ∀ r ∈ rules, (renderRule o ∘ Rule.bare) r = renderRule o r :=
    fun r _ => (renderRule_like (like_bare r) o).symm
  rw [List.map_congr_left hr]

/-- A document with rules is formatted to a layout of its rules. -/
theorem formatDocument_rules (hne : documentRules source ≠ []) (hgap : o.GapInRange) :
    formatDocument o source =
      ⟨cleanUp o (joinedRules o (documentRules source)), cleanUp o (joinedRules o (documentRules source)) != source,
        (documentRules source).length, none⟩ := by
  unfold formatDocument
  split
  · rename_i hnil
    exact absurd hnil hne
  · rw [if_pos hgap]

/-- A document with rules is left as it is if no text has so many line feeds. -/
theorem formatDocument_outOfRange (hne : documentRules source ≠ []) (hgap : ¬o.GapInRange) :
    formatDocument o source = ⟨source, false, 0, some .gapOutOfRange⟩ := by
  unfold formatDocument
  split
  · rename_i hnil
    exact absurd hnil hne
  · rw [if_neg hgap]

/-- The text of a formatted clean document. -/
theorem text_formatDocument (h : Clean source) (hne : documentRules source ≠ []) (hgap : o.GapInRange) :
    (formatDocument o source).text =
      joinSpaced (ruleGap o) (((extract (lexemes .ebnf source)).map (Rule.cleaned o)).map (renderRule o)) ++
        finalEnd o := by
  have hne' : extract (lexemes .ebnf source) ≠ [] := by
    rw [← documentRules_bare]
    simpa using hne
  rw [formatDocument_rules hne hgap, ← joinedRules_map_bare, documentRules_bare]
  exact cleanUp_joined (fun r => h.legible) (fun r => h.neatBody) hne' o (ruleGap o)

theorem isSpace_of_mem_finalEnd {x : Char} (h : x ∈ finalEnd o) : isSpace x = true := by
  unfold finalEnd at h
  split at h
  · obtain rfl := List.mem_singleton.1 h
    rfl
  · cases h

/-- The rules of a formatted clean document are those of the document, as the last pass leaves them. -/
theorem restored_formatDocument (h : Clean source) (hne : documentRules source ≠ []) (hgap : o.GapInRange) :
    List.Forall₂ Restored ((extract (lexemes .ebnf source)).map (Rule.cleaned o))
      (extract (lexemes .ebnf (formatDocument o source).text)) := by
  rw [text_formatDocument h hne hgap]
  refine extract_joined (fun r hr => ?_) o (ruleGap o) fun x hx => isSpace_of_mem_finalEnd hx
  obtain ⟨q, hq, rfl⟩ := List.mem_map.1 hr
  exact (h.legible hq).cleaned

theorem map_content_documentRules (source : Text) :
    (documentRules source).map Rule.content = (extract (lexemes .ebnf source)).map Rule.content := by
  rw [← documentRules_bare, List.map_map]
  exact List.map_congr_left fun r _ => content_like (like_bare r)

theorem map_content_of_forall₂ {rs rs' : List Rule} (h : List.Forall₂ Restored rs rs') :
    rs'.map Rule.content = rs.map Rule.content := by
  induction h with
  | nil => rfl
  | cons hr _ ih => rw [List.map_cons, List.map_cons, ih, content_like hr.like]

/-- Formatting a clean document keeps its rules: their order and their names, and in each alternative the
significant tokens and the comments. It succeeds unless no text has so many line feeds as are to go between rules. -/
theorem content_formatDocument (source : Text) (o : LayoutOptions) (h : Clean source) (hne : documentRules source ≠ []) :
    ((formatDocument o source).success = true ↔ o.GapInRange) ∧
      (documentRules (formatDocument o source).text).map Rule.content = (documentRules source).map Rule.content := by
  by_cases hgap : o.GapInRange
  · constructor
    · rw [formatDocument_rules hne hgap]
      exact iff_of_true rfl hgap
    · rw [map_content_documentRules, map_content_of_forall₂ (restored_formatDocument h hne hgap), List.map_map,
        map_content_documentRules]
      exact List.map_congr_left fun r _ => content_cleaned o r
  · rw [formatDocument_outOfRange hne hgap]
    exact ⟨iff_of_false (by simp [Formatted.success]) hgap, rfl⟩

end Document

theorem content_formatDocument_commentedRules :
    (documentRules commentedRules).length = 2 ∧
      (documentRules (formatDocument { width := 20 } commentedRules).text).map Rule.content =
        (documentRules commentedRules).map Rule.content :=
  ⟨by decide +kernel, (content_formatDocument commentedRules { width := 20 } clean_commentedRules
    (by decide +kernel)).2⟩

end GrammarText
