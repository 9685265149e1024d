import GrammarText.Proofs.Layout.Wrapping

/-!
# Layouts in two widths

The width decides only where rows end: whatever it is, a rule is laid out in rows with the same words. A text in rows has
a line for each row, and one more for each line feed inside a word (`length_splitLines_rowsText`), so two layouts of a
rule differ in their lines as they differ in their rows. A greater width takes no more rows
(`renderBody_rows_le`): a wrap is filled with more units a line, several alternatives that share a line keep sharing it,
and a block has the same rows in every width.
-/

namespace GrammarText

/-! ### Counting lines -/

/-- Every line feed begins a line. -/
theorem length_splitLines (t : Text) : (splitLines t).length = t.count '\n' + 1 := by
  induction t with
  | nil => rfl
  | cons c r ih =>
    rw [splitLines_cons]
    split
    · rename_i hc
      rw [hc, List.length_cons, ih, List.count_cons_self]
    · rename_i hc
      rw [List.length_modifyHead, ih, List.count_cons_of_ne hc]

theorem count_newline_joinWords (ws : List Text) : (joinWords ws).count '\n' = ws.flatten.count '\n' := by
  induction ws with
  | nil => rfl
  | cons w ws ih =>
    cases ws with
    | nil => rw [joinWords_singleton, List.flatten_singleton]
    | cons v vs =>
      rw [joinWords_cons (List.cons_ne_nil v vs), List.flatten_cons, List.count_append, List.count_append, ← ih,
        List.count_cons_of_ne (by decide)]

theorem count_newline_rowsText {rows : List Row} (h : rows ≠ []) :
    (rowsText rows).count '\n' + 1 = (rows.flatMap Row.words).flatten.count '\n' + rows.length := by
  have hrow : ∀ row : Row, row.text.count '\n' = row.words.flatten.count '\n' := by
    intro row
    have hindent : (spaces row.indent).count '\n' = 0 := List.count_eq_zero.2 (by simp [spaces])
    rw [Row.text, List.count_append, hindent, count_newline_joinWords, Nat.zero_add]
  induction rows with
  | nil => exact absurd rfl h
  | cons row rows ih =>
    rw [List.flatMap_cons, List.flatten_append, List.count_append, ← hrow row, List.length_cons]
    cases rows with
    | nil => simp [rowsText, joinLines]
    | cons next rows =>
      have ih' := ih (List.cons_ne_nil next rows)
      have hcons : rowsText (row :: next :: rows) = row.text ++ '\n' :: rowsText (next :: rows) :=
        joinLines_cons row.text (List.cons_ne_nil next.text (rows.map Row.text))
      rw [hcons, List.count_append, List.count_cons_self]
      omega

/-- The lines of a text in rows, behind comments. -/
theorem length_splitLines_rowsText (c : Text) {rows : List Row} (h : rows ≠ []) :
    (splitLines (c ++ rowsText rows)).length =
      c.count '\n' + (rows.flatMap Row.words).flatten.count '\n' + rows.length := by
  have hrows := count_newline_rowsText h
  rw [length_splitLines, List.count_append]
  omega

/-! ### Rows in two widths -/

section Widths

variable {w₁ w₂ : Int} {name : Text} {pieces : List (List Token)}

theorem BodyRows.ne_nil {words : List Text} {rows : List Row} (h : BodyRows name words rows) : rows ≠ [] := by
  obtain ⟨ws, rest, hrows⟩ := h.begins
  rw [hrows]
  exact List.cons_ne_nil _ _

/-- Alternatives that share a line in one width share it in every greater one. -/
theorem sharesLine_mono (hw : w₁ ≤ w₂) (o : LayoutOptions) (name : Text)
    (h : sharesLine { o with width := w₁ } name pieces = true) : sharesLine { o with width := w₂ } name pieces = true := by
  simp only [sharesLine, Bool.and_eq_true, decide_eq_true_eq] at h ⊢
  exact ⟨h.1, Int.le_trans h.2.1 hw, h.2.2⟩

/-- A body is laid out in rows with the same words in both widths, and with no more rows in the greater one. -/
theorem renderBody_rows_le (hw : w₁ ≤ w₂) (o : LayoutOptions) (name : Text) (hp : pieces ≠ []) :
    ∃ rows₁ rows₂, renderBody { o with width := w₁ } name pieces = rowsText rows₁ ∧
      renderBody { o with width := w₂ } name pieces = rowsText rows₂ ∧
      BodyRows name (barredWords (pieces.map layoutLines)) rows₁ ∧
      BodyRows name (barredWords (pieces.map layoutLines)) rows₂ ∧ rows₂.length ≤ rows₁.length := by
  obtain ⟨rows₁, htext₁, hrows₁, -⟩ := renderBody_rows { o with width := w₁ } name hp
  by_cases hsame : renderBody { o with width := w₂ } name pieces = renderBody { o with width := w₁ } name pieces
  · exact ⟨rows₁, rows₁, htext₁, hsame.trans htext₁, hrows₁, hrows₁, Nat.le_refl _⟩
  by_cases hseveral : 1 < pieces.length
  · -- the alternatives share a line in the greater width
    rw [renderBody_several _ name hseveral, renderBody_several _ name hseveral] at hsame
    have hshare : sharesLine { o with width := w₂ } name pieces = true := by
      by_contra hno
      have hno₁ := fun h => hno (sharesLine_mono hw o name h)
      rw [if_neg hno, if_neg hno₁] at hsame
      exact hsame rfl
    obtain ⟨rows₂, htext₂, hrows₂, hone⟩ := oneLine_rows name (barredWords (pieces.map layoutLines))
    refine ⟨rows₁, rows₂, htext₁, ?_, hrows₁, hrows₂, ?_⟩
    · rw [renderBody_several _ name hseveral, if_pos hshare, htext₂]
    · have hpos := List.length_pos_iff.2 hrows₁.ne_nil
      omega
  · obtain ⟨p, rfl⟩ : ∃ p, pieces = [p] := by
      apply List.length_eq_one_iff.1
      have hpos := List.length_pos_iff.2 hp
      omega
    by_cases hblock : endsWithLineComment p || (layoutLines p).length > 1
    · rw [renderBody_single, renderBody_single, if_pos hblock, if_pos hblock] at hsame
      exact absurd rfl hsame
    · simp only [Bool.or_eq_true, decide_eq_true_eq, not_or, Bool.not_eq_true, Nat.not_lt] at hblock
      have hwords : barredWords ([p].map layoutLines) = (layoutLines p).flatten := by simp [barredWords]
      rw [hwords, renderBody_wrapped hblock.1 hblock.2, renderBody_wrapped hblock.1 hblock.2]
      obtain ⟨rows₁, htext₁, hrows₁, hlength₁⟩ := wrapped_rows w₁ name (layoutLines p).flatten
      obtain ⟨rows₂, htext₂, hrows₂, hlength₂⟩ := wrapped_rows w₂ name (layoutLines p).flatten
      refine ⟨rows₁, rows₂, htext₁, htext₂, hrows₁, hrows₂, ?_⟩
      rw [hlength₁, hlength₂]
      exact length_fill_anti hw _ _

/-- The words of a rule: those of its alternatives, with the bars in between. -/
def Rule.words (r : Rule) : List Text :=
  barredWords (r.alternatives.map fun a => layoutLines a.tokens)

/-- In every width a rule is laid out in rows that hold its name, the defining sign, its words and the semicolon in this
order. A greater width takes no more lines. -/
theorem renderRule_widths (hw : w₁ ≤ w₂) (o : LayoutOptions) (r : Rule) :
    (∃ rows₁ rows₂, renderRule { o with width := w₁ } r = r.comments.flatten ++ rowsText rows₁ ∧
      renderRule { o with width := w₂ } r = r.comments.flatten ++ rowsText rows₂ ∧
      BodyRows r.name r.words rows₁ ∧ BodyRows r.name r.words rows₂) ∧
    (splitLines (renderRule { o with width := w₂ } r)).length ≤
      (splitLines (renderRule { o with width := w₁ } r)).length := by
  have hwords : r.words = barredWords ((splitBars 0 r.body).map layoutLines) := by
    rw [Rule.words, ← map_tokens_alternatives, List.map_map]
    rfl
  obtain ⟨rows₁, rows₂, htext₁, htext₂, hrows₁, hrows₂, hle⟩ :=
    renderBody_rows_le hw o r.name (splitBars_ne_nil 0 r.body)
  rw [← hwords] at hrows₁ hrows₂
  rw [renderRule, renderRule, htext₁, htext₂]
  refine ⟨⟨rows₁, rows₂, rfl, rfl, hrows₁, hrows₂⟩, ?_⟩
  rw [length_splitLines_rowsText _ hrows₁.ne_nil, length_splitLines_rowsText _ hrows₂.ne_nil, hrows₁.words_eq,
    hrows₂.words_eq]
  omega

/-- A rule of two alternatives, with a comment before it. -/
def pairRule : Rule :=
  ⟨"pair".toList, scan .ebnf "first ',' second | first".toList, ["(* two *)\n".toList], {}⟩

theorem renderRule_widths_pairRule : (16 : Int) ≤ 48 ∧
    (∃ rows₁ rows₂, renderRule { width := 16 } pairRule = "(* two *)\n".toList ++ rowsText rows₁ ∧
      renderRule { width := 48 } pairRule = "(* two *)\n".toList ++ rowsText rows₂ ∧
      BodyRows "pair".toList ["first".toList, "','".toList, "second".toList, ['|'], "first".toList] rows₁ ∧
      BodyRows "pair".toList ["first".toList, "','".toList, "second".toList, ['|'], "first".toList] rows₂) ∧
    (splitLines (renderRule { width := 48 } pairRule)).length ≤
      (splitLines (renderRule { width := 16 } pairRule)).length := by
  have hw : (16 : Int) ≤ 48 := by decide
  have hwords : pairRule.words = ["first".toList, "','".toList, "second".toList, ['|'], "first".toList] := by
    decide +kernel
  rw [← hwords]
  exact ⟨hw, renderRule_widths hw {} pairRule⟩

end Widths

end GrammarText
