import GrammarText.Proofs.Layout.Characters
import GrammarText.Proofs.Layout.Filling
import GrammarText.Proofs.Layout.Joining
import GrammarText.Proofs.Layout.LineEnds

/-!
# Soft wraps

A single alternative without comments is always laid out as a soft wrap: units that fit on one line are not broken
(`renderBody_wrapped`). The lines of a soft wrap keep to the width or hold a single unit, their units begin in one
column, and none of them could have been put on the line before (`softWrap_wrapLines`). If no word has a line feed of
its own, these are the lines of the text (`splitLines_render`).
-/

namespace GrammarText

/-! ### Single alternatives -/

section Single

variable {width : Int} {head name : Text} {words : List Text} {p : List Token}

theorem wrapUnits_ne_nil (words : List Text) : wrapUnits words ≠ [] := by
  rcases words.eq_nil_or_concat' with rfl | ⟨ws, w, rfl⟩
  · exact List.cons_ne_nil _ _
  · simp [wrapUnits_append]

/-- The units of a wrap, put on one line. -/
theorem joinWords_wrapUnits (words : List Text) : joinWords (wrapUnits words) = joinWords (words ++ [[';']]) := by
  have hunits : [wrapUnits words].flatten = wrapUnits words := List.flatten_singleton
  obtain ⟨lines, hmap, hflat, -⟩ := lines_of_wrapUnits hunits (by simpa using wrapUnits_ne_nil words)
  obtain ⟨l, rfl⟩ : ∃ l, lines = [l] := by
    apply List.length_eq_one_iff.1
    simpa using congrArg List.length hmap
  rw [← hflat, List.flatten_singleton]
  simpa using hmap.symm

theorem oneLine_eq (head : Text) (words : List Text) :
    oneLine head words = head ++ [' '] ++ joinWords (wrapUnits words) := by
  rw [joinWords_wrapUnits, oneLine, List.cons_append, joinWords_cons (by simp), List.append_assoc]
  rfl

theorem length_oneLine (head : Text) (words : List Text) :
    (oneLine head words).length = extent (head.length + 1) (wrapUnits words) := by
  rw [oneLine_eq, extent, List.length_append, List.length_append]
  rfl

/-- What fits on one line is not broken. -/
theorem wrapped_of_fits (h : ((oneLine head words).length : Int) ≤ width) :
    wrapped width head words = oneLine head words := by
  rw [length_oneLine] at h
  rw [wrapped, fill_of_fits (wrapUnits_ne_nil words) h, oneLine_eq]
  simp [leadLines, joinLines]

/-- A single alternative without comments is a soft wrap, whether it fits on one line or not. -/
theorem renderBody_wrapped (hends : endsWithLineComment p = false) (hshort : (layoutLines p).length ≤ 1)
    (o : LayoutOptions) (name : Text) :
    renderBody o name [p] = wrapped o.width (ruleHead name) (layoutLines p).flatten := by
  have hlong : decide ((layoutLines p).length > 1) = false := by simpa using hshort
  rw [renderBody_single, hends, hlong, Bool.or_self, if_neg Bool.false_ne_true]
  split
  · rename_i hfits
    exact (wrapped_of_fits hfits).symm
  · rfl

theorem endsWithLineComment_eq_false (h : ∀ t ∈ p, t.kind ≠ .comment) : endsWithLineComment p = false := by
  unfold endsWithLineComment
  split
  · rename_i t hlast
    have hmem : t ∈ p := (List.mem_filter.1 (List.mem_of_getLast? hlast)).1
    simp [h t hmem]
  · rfl

theorem length_layoutLines_le (h : ∀ t ∈ p, t.kind ≠ .comment) : (layoutLines p).length ≤ 1 := by
  have hd : layoutLines p = wordLines (dense p) := rfl
  rw [hd]
  by_cases hne : dense p = []
  · simp [hne, wordLines]
  · obtain ⟨w, ws, hl, -⟩ := joinWords_wordLines hne fun t ht => h t (mem_dense.1 ht).1
    simp [hl]

end Single

/-! ### The lines of a wrap -/

/-- A line of a soft wrap: what stands before its units, and the units, with single spaces in between. -/
structure WrapLine where
  lead : Text
  units : List Text

/-- The line as it is written. -/
def WrapLine.text (l : WrapLine) : Text :=
  l.lead ++ joinWords l.units

/-- What a soft wrap of units in the given width is. The first line begins with `head` and a space, all others are
indented to the column behind it. A line holds units as far as the width allows, and one at least. -/
structure SoftWrap (width : Int) (head : Text) (units : List Text) (lines : List WrapLine) : Prop where
  units_eq : lines.flatMap WrapLine.units = units
  filled : ∀ l ∈ lines, l.units ≠ []
  leads : lines.map WrapLine.lead = (head ++ [' ']) :: List.replicate (lines.length - 1) (spaces (head.length + 1))
  fits : ∀ l ∈ lines, (l.text.length : Int) ≤ width ∨ l.units.length = 1
  tight : lines.IsChain fun l next => ∀ u ∈ next.units.head?, width < (l.text.length + 1 + u.length : Nat)

/-- The lines of units that are filled in behind `head`. -/
def wrapLines (head : Text) : List (List Text) → List WrapLine
  | [] => []
  | l :: ls => ⟨head ++ [' '], l⟩ :: ls.map (⟨spaces (head.length + 1), ·⟩)

section Wrap

variable {width : Int} {head : Text} {ls : List (List Text)} {l : WrapLine}

theorem map_units_wrapLines (head : Text) (ls : List (List Text)) : (wrapLines head ls).map WrapLine.units = ls := by
  cases ls with
  | nil => rfl
  | cons l ls => simp [wrapLines, Function.comp_def]

theorem length_wrapLines (head : Text) (ls : List (List Text)) : (wrapLines head ls).length = ls.length := by
  rw [← List.length_map WrapLine.units, map_units_wrapLines]

theorem map_lead_wrapLines (head : Text) (hne : ls ≠ []) : (wrapLines head ls).map WrapLine.lead =
    (head ++ [' ']) :: List.replicate (ls.length - 1) (spaces (head.length + 1)) := by
  obtain ⟨l, ls, rfl⟩ := List.exists_cons_of_ne_nil hne
  simp [wrapLines, Function.comp_def]

theorem map_text_wrapLines (head : Text) (ls : List (List Text)) : (wrapLines head ls).map WrapLine.text =
    leadLines (head ++ [' ']) (spaces (head.length + 1)) (ls.map joinWords) := by
  cases ls with
  | nil => rfl
  | cons l ls => simp [wrapLines, leadLines, WrapLine.text, Function.comp_def]

/-- All units begin in the same column. -/
theorem length_lead (h : l ∈ wrapLines head ls) : l.lead.length = head.length + 1 := by
  cases ls with
  | nil => cases h
  | cons k ls =>
    rcases List.mem_cons.1 h with rfl | h
    · simp
    · obtain ⟨k', -, rfl⟩ := List.mem_map.1 h
      simp [spaces]

theorem length_text (h : l ∈ wrapLines head ls) : l.text.length = extent (head.length + 1) l.units := by
  rw [WrapLine.text, List.length_append, length_lead h, extent]

theorem units_mem (h : l ∈ wrapLines head ls) : l.units ∈ ls := by
  rw [← map_units_wrapLines head ls]
  exact List.mem_map_of_mem h

/-- Filling gives a soft wrap. -/
theorem softWrap_wrapLines (width : Int) (head : Text) {units : List Text} (hne : units ≠ []) :
    SoftWrap width head units (wrapLines head (fill width (head.length + 1) units)) := by
  obtain ⟨harranged, htight⟩ := tight_fill width (head.length + 1) units
  have hflat := flatten_fill width (head.length + 1) units
  generalize fill width (head.length + 1) units = ls at harranged htight hflat
  have hls : ls ≠ [] := by
    rintro rfl
    exact hne hflat.symm
  constructor
  · rw [← hflat, List.flatMap_def, map_units_wrapLines]
  · intro l hl
    exact harranged.filled l.units (units_mem hl)
  · rw [length_wrapLines, map_lead_wrapLines head hls]
  · intro l hl
    rw [length_text hl]
    exact harranged.fits l.units (units_mem hl)
  · unfold Tight at htight
    rw [← map_units_wrapLines head ls, List.isChain_map] at htight
    refine htight.imp_of_mem_imp fun l next hl _ hnext => ?_
    rw [length_text hl]
    exact hnext

end Wrap

/-! ### The lines of a rule -/

section Rule

variable {source : Text} {r : Rule} {a : Alternative}

/-- Identifiers hold no line feed. -/
theorem newline_not_mem_identifier {d : Dialect} {t : Text} (h : Lexeme d .identifier t) : '\n' ∉ t := by
  cases h with
  | @word c rest hc hrest =>
    intro hmem
    rcases List.mem_cons.1 hmem with rfl | hmem
    · exact absurd hc (by decide)
    · exact absurd (hrest '\n' hmem) (by decide)
  | @stray c hc =>
    intro hmem
    obtain rfl := List.mem_singleton.1 hmem
    cases d <;> exact absurd hc (by decide)

theorem newline_not_mem_name (h : r ∈ documentRules source) : '\n' ∉ r.name := by
  obtain ⟨⟨r', e⟩, hmem, rfl⟩ := List.mem_map.1 h
  obtain ⟨⟨t, ht, hkind, htext⟩, -, -⟩ := extractFrom_spec hmem
  have hbare : t.bare ∈ lexemes .ebnf source := List.mem_map_of_mem ht
  have hlexeme := lexeme_of_mem_lexemes hbare (by simp [Token.isClosed, hkind])
  rw [Token.kind_bare, Token.text_bare, hkind, htext] at hlexeme
  exact newline_not_mem_identifier hlexeme

theorem newline_not_mem_words {p : List Token} (h : ∀ t ∈ p, t.kind ≠ .whitespace → '\n' ∉ t.text) :
    ∀ w ∈ (layoutLines p).flatten, '\n' ∉ w := by
  intro w hw hmem
  obtain ⟨l, hl, hw⟩ := List.mem_flatten.1 hw
  have hdense : layoutLines p = layoutLines (dense p) := by
    change wordLines (dense p) = wordLines (dense (dense p))
    rw [dense_dense]
  rw [hdense] at hl
  obtain ⟨t, ht, hc⟩ := List.mem_flatMap.1 (word_subset hl hw hmem)
  obtain ⟨ht, hkind⟩ := mem_dense.1 ht
  exact h t ht hkind hc

theorem newline_not_mem_units {words : List Text} (h : ∀ w ∈ words, '\n' ∉ w) : ∀ u ∈ wrapUnits words, '\n' ∉ u := by
  rcases words.eq_nil_or_concat' with rfl | ⟨ws, w, rfl⟩
  · decide
  · rw [wrapUnits_append]
    intro u hu
    rcases List.mem_append.1 hu with hu | hu
    · exact h u (List.mem_append_left _ hu)
    · obtain rfl := List.mem_singleton.1 hu
      simpa using h w (by simp)

/-- The text of a wrap, cut into its lines. -/
theorem splitLines_wrapped {head : Text} {words : List Text} (hhead : '\n' ∉ head) (hwords : ∀ w ∈ words, '\n' ∉ w)
    (width : Int) : splitLines (wrapped width head words) =
      (wrapLines head (fill width (head.length + 1) (wrapUnits words))).map WrapLine.text := by
  have htext : wrapped width head words =
      joinLines ((wrapLines head (fill width (head.length + 1) (wrapUnits words))).map WrapLine.text) := by
    rw [map_text_wrapLines]
    rfl
  have hsoft := softWrap_wrapLines width head (wrapUnits_ne_nil words)
  generalize wrapLines head (fill width (head.length + 1) (wrapUnits words)) = lines at htext hsoft ⊢
  have hlead : ∀ l ∈ lines, '\n' ∉ l.lead := by
    intro l hl
    have hmem : l.lead ∈ lines.map WrapLine.lead := List.mem_map_of_mem hl
    rw [hsoft.leads] at hmem
    rcases List.mem_cons.1 hmem with heq | hmem
    · rw [heq]
      simpa using hhead
    · rw [List.eq_of_mem_replicate hmem]
      simp [spaces]
  have hunits : ∀ l ∈ lines, '\n' ∉ joinWords l.units := by
    intro l hl hmem
    obtain heq | ⟨u, hu, hc⟩ := mem_joinWords hmem
    · exact absurd heq (by decide)
    · refine newline_not_mem_units hwords u ?_ hc
      rw [← hsoft.units_eq]
      exact List.mem_flatMap.2 ⟨l, hl, hu⟩
  have hne : lines.map WrapLine.text ≠ [] := by
    intro hnil
    rw [List.map_eq_nil_iff.1 hnil] at hsoft
    exact wrapUnits_ne_nil words hsoft.units_eq.symm
  rw [htext]
  refine List.splitOn_intercalate '\n' (fun t ht hmem => ?_) hne
  obtain ⟨l, hl, rfl⟩ := List.mem_map.1 ht
  rcases List.mem_append.1 hmem with hmem | hmem
  · exact hlead l hl hmem
  · exact hunits l hl hmem

/-- The lines of a rule with a single alternative, without comments and without line feeds in its tokens, are a soft wrap
of the words of the alternative, in every width. -/
theorem splitLines_render (hr : r ∈ documentRules source) (ha : r.alternatives = [a]) (hleading : r.comments = [])
    (hcomment : ∀ t ∈ r.body, t.kind ≠ .comment) (hnewline : ∀ t ∈ r.body, t.kind ≠ .whitespace → '\n' ∉ t.text)
    (width : Int) :
    ∃ lines, splitLines (render r width) = lines.map WrapLine.text ∧
      SoftWrap width (ruleHead r.name) (wrapUnits (layoutLines a.tokens).flatten) lines := by
  have hpieces : splitBars 0 r.body = [a.tokens] := by
    rw [← map_tokens_alternatives, ← Rule.alternatives, ha]
    rfl
  have htokens : a.tokens ⊆ r.body := by
    have hmem : a.tokens ∈ splitBars 0 r.body := by rw [hpieces]; exact List.mem_singleton.2 rfl
    exact (infix_of_mem_splitBars hmem).subset
  have hc : ∀ t ∈ a.tokens, t.kind ≠ .comment := fun t ht => hcomment t (htokens ht)
  have htext : render r width = wrapped width (ruleHead r.name) (layoutLines a.tokens).flatten := by
    rw [render, renderRule, hleading, hpieces,
      renderBody_wrapped (endsWithLineComment_eq_false hc) (length_layoutLines_le hc)]
    rfl
  have hhead : '\n' ∉ ruleHead r.name := by
    simpa [ruleHead] using newline_not_mem_name hr
  have hwords := newline_not_mem_words fun t ht => hnewline t (htokens ht)
  refine ⟨_, ?_, softWrap_wrapLines width (ruleHead r.name) (wrapUnits_ne_nil (layoutLines a.tokens).flatten)⟩
  rw [htext, splitLines_wrapped hhead hwords]

/-- A rule that is written on two lines. -/
def narrowSource : Text :=
  "sum ::= left\n  '+' (right)* ;".toList

/-- The rule, with its tokens at their places. -/
def narrowRule : Rule :=
  ⟨"sum".toList, ((scan .ebnf narrowSource).drop 3).dropLast, [], {}⟩

theorem splitLines_render_narrowRule : narrowRule ∈ documentRules narrowSource ∧
    narrowRule.alternatives = [⟨narrowRule.body, 0⟩] ∧ narrowRule.comments = [] ∧
    (∀ t ∈ narrowRule.body, t.kind ≠ .comment) ∧ (∀ t ∈ narrowRule.body, t.kind ≠ .whitespace → '\n' ∉ t.text) ∧
    ∃ lines, splitLines (render narrowRule 16) = lines.map WrapLine.text ∧
      SoftWrap 16 "sum ::=".toList ["left".toList, "'+'".toList, "(right)* ;".toList] lines := by
  have hr : narrowRule ∈ documentRules narrowSource := by decide +kernel
  have ha : narrowRule.alternatives = [⟨narrowRule.body, 0⟩] := by decide +kernel
  have hc : ∀ t ∈ narrowRule.body, t.kind ≠ .comment := by decide +kernel
  have hn : ∀ t ∈ narrowRule.body, t.kind ≠ .whitespace → '\n' ∉ t.text := by decide +kernel
  have hunits : wrapUnits (layoutLines narrowRule.body).flatten =
      ["left".toList, "'+'".toList, "(right)* ;".toList] := by decide +kernel
  refine ⟨hr, ha, rfl, hc, hn, ?_⟩
  rw [← hunits]
  exact splitLines_render hr ha rfl hc hn 16

end Rule

end GrammarText
