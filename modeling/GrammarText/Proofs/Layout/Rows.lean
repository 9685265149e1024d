import GrammarText.Layout.Render
import GrammarText.Proofs.Layout.Groups
import GrammarText.Proofs.Rule.Alternatives
import Mathlib.Data.List.Infix

/-!
# Rows of a layout

A laid out rule is a sequence of rows, each an indentation and words with single spaces in between.
Whatever the layout decides, one line, a wrap or a block of alternatives, its rows hold the same words
in the same order: the name, the defining sign, the words of the alternatives with the bars, and the
semicolon (`renderBody_rows`). What the decision changes is only where a row ends.
-/

namespace GrammarText

/-- A line of a layout. -/
structure Row where
  indent : Nat
  words : List Text

/-- The line as it is written. -/
def Row.text (r : Row) : Text :=
  spaces r.indent ++ joinWords r.words

/-- The rows, one under the other. -/
def rowsText (rows : List Row) : Text :=
  joinLines (rows.map Row.text)

@[simp] theorem joinWords_singleton (w : Text) : joinWords [w] = w := by
  simp [joinWords]

theorem joinWords_cons {w : Text} {ws : List Text} (h : ws ≠ []) :
    joinWords (w :: ws) = w ++ ' ' :: joinWords ws := by
  obtain ⟨v, vs, rfl⟩ := List.exists_cons_of_ne_nil h
  simp [joinWords]

theorem joinWords_append {vs ws : List Text} (hv : vs ≠ []) (hw : ws ≠ []) :
    joinWords (vs ++ ws) = joinWords vs ++ ' ' :: joinWords ws := by
  induction vs with
  | nil => exact absurd rfl hv
  | cons v vs ih =>
    cases vs with
    | nil => rw [List.singleton_append, joinWords_cons hw, joinWords_singleton]
    | cons u us =>
      rw [List.cons_append, joinWords_cons (by simp), ih (List.cons_ne_nil _ _),
        joinWords_cons (List.cons_ne_nil u us), List.append_assoc, List.cons_append]

theorem ruleHead_eq (name : Text) : ruleHead name = joinWords [name, definingSign] := by
  simp [ruleHead, joinWords, definingSign]

/-! ### Filling lines -/

theorem fillFrom_spec (width : Int) (lead used : Nat) (us : List Text) :
    (fillFrom width lead used us).flatten = us ∧ fillFrom width lead used us ≠ [] ∧
      ∀ l ∈ (fillFrom width lead used us).tail, l ≠ [] := by
  induction us generalizing used with
  | nil => simp [fillFrom]
  | cons u us ih =>
    rw [fillFrom]
    split
    · obtain ⟨hf, hne, ht⟩ := ih (lead + u.length)
      obtain ⟨l, ls, hl⟩ := List.exists_cons_of_ne_nil hne
      rw [hl] at hf ht ⊢
      refine ⟨by simpa using hf, List.cons_ne_nil _ _, ?_⟩
      intro l' hl'
      rw [List.tail_cons, List.modifyHead_cons] at hl'
      rcases List.mem_cons.1 hl' with rfl | hl'
      · exact List.cons_ne_nil _ _
      · exact ht l' hl'
    · obtain ⟨hf, hne, ht⟩ := ih (used + 1 + u.length)
      obtain ⟨l, ls, hl⟩ := List.exists_cons_of_ne_nil hne
      rw [hl] at hf ht ⊢
      exact ⟨by simpa using hf, List.cons_ne_nil _ _, ht⟩

/-- The units of a wrap, line by line. -/
theorem flatten_fill (width : Int) (lead : Nat) (us : List Text) : (fill width lead us).flatten = us := by
  cases us with
  | nil => rfl
  | cons u us =>
    obtain ⟨hf, hne, -⟩ := fillFrom_spec width lead (lead + u.length) us
    obtain ⟨l, ls, hl⟩ := List.exists_cons_of_ne_nil hne
    rw [fill, hl]
    rw [hl] at hf
    simpa using hf

theorem ne_nil_of_mem_fill {width : Int} {lead : Nat} {us l : List Text} (h : l ∈ fill width lead us) :
    l ≠ [] := by
  cases us with
  | nil => cases h
  | cons u us =>
    obtain ⟨-, hne, ht⟩ := fillFrom_spec width lead (lead + u.length) us
    obtain ⟨l', ls, hl⟩ := List.exists_cons_of_ne_nil hne
    rw [hl, List.tail_cons] at ht
    rw [fill, hl, List.modifyHead_cons] at h
    rcases List.mem_cons.1 h with rfl | h
    · exact List.cons_ne_nil _ _
    · exact ht l h

theorem wrapUnits_append (ws : List Text) (w : Text) : wrapUnits (ws ++ [w]) = ws ++ [w ++ [' ', ';']] := by
  induction ws with
  | nil => rfl
  | cons v vs ih =>
    cases vs with
    | nil => rfl
    | cons u us =>
      simp only [List.cons_append] at ih ⊢
      rw [wrapUnits, ih]
      simp

/-- The semicolon of a wrap is a word of its own. -/
theorem lines_of_wrapUnits {words : List Text} {lines : List (List Text)} (hf : lines.flatten = wrapUnits words)
    (hne : ∀ l ∈ lines, l ≠ []) :
    ∃ lines' : List (List Text), lines'.map joinWords = lines.map joinWords ∧
      lines'.flatten = words ++ [[';']] ∧ ∀ l ∈ lines', l ≠ [] := by
  rcases List.eq_nil_or_concat' words with rfl | ⟨ws, w, rfl⟩
  · exact ⟨lines, rfl, by simpa [wrapUnits] using hf, hne⟩
  · rw [wrapUnits_append] at hf
    rcases List.eq_nil_or_concat' lines with rfl | ⟨ls, l, rfl⟩
    · simp at hf
    rcases List.eq_nil_or_concat' l with rfl | ⟨l, y, rfl⟩
    · exact absurd rfl (hne [] (by simp))
    rw [List.flatten_concat, ← List.append_assoc] at hf
    obtain ⟨hws, hy⟩ := List.append_inj' hf rfl
    cases hy
    refine ⟨ls ++ [l ++ [w, [';']]], ?_, ?_, ?_⟩
    · have hjoin : joinWords [w, [';']] = w ++ [' ', ';'] := by simp [joinWords]
      rw [List.map_append, List.map_append, List.map_singleton, List.map_singleton]
      cases l with
      | nil => rw [List.nil_append, List.nil_append, hjoin, joinWords_singleton]
      | cons v vs =>
        rw [joinWords_append (by simp) (by simp), joinWords_append (by simp) (by simp), hjoin,
          joinWords_singleton]
    · rw [List.flatten_concat, ← hws]
      simp
    · intro l' hl'
      rcases List.mem_append.1 hl' with hl' | hl'
      · exact hne l' (List.mem_append_left _ hl')
      · obtain rfl := List.mem_singleton.1 hl'
        simp

/-! ### Rows of an alternative -/

/-- The rows of lines of words: the first goes on in the row `start`. -/
def leadRows (start : Row) (indent : Nat) : List (List Text) → List Row
  | [] => [start]
  | l :: ls => ⟨start.indent, start.words ++ l⟩ :: ls.map (⟨indent, ·⟩)

theorem leadRows_ne_nil (start : Row) (indent : Nat) (lines : List (List Text)) :
    leadRows start indent lines ≠ [] := by
  cases lines <;> exact List.cons_ne_nil _ _

theorem length_leadRows (start : Row) (indent : Nat) {lines : List (List Text)} (h : lines ≠ []) :
    (leadRows start indent lines).length = lines.length := by
  obtain ⟨l, ls, rfl⟩ := List.exists_cons_of_ne_nil h
  simp [leadRows]

theorem words_leadRows (start : Row) (indent : Nat) (lines : List (List Text)) :
    (leadRows start indent lines).flatMap Row.words = start.words ++ lines.flatten := by
  cases lines with
  | nil => simp [leadRows]
  | cons l ls => simp [leadRows, List.flatMap_def, Function.comp_def]

theorem ne_nil_of_mem_leadRows {start r : Row} {indent : Nat} {lines : List (List Text)}
    (hs : start.words ≠ []) (hl : ∀ l ∈ lines, l ≠ []) (h : r ∈ leadRows start indent lines) : r.words ≠ [] := by
  cases lines with
  | nil =>
    obtain rfl := List.mem_singleton.1 h
    exact hs
  | cons l ls =>
    rcases List.mem_cons.1 h with rfl | h
    · simp [hs]
    · obtain ⟨l', hl', rfl⟩ := List.mem_map.1 h
      exact hl l' (List.mem_cons_of_mem _ hl')

/-- A row of an alternative is one of its lines, the first behind what introduces it. -/
theorem words_of_mem_leadRows {start r : Row} {indent : Nat} {lines : List (List Text)}
    (h : r ∈ leadRows start indent lines) :
    r.words = start.words ∨ ∃ l ∈ lines, r.words = start.words ++ l ∨ r.words = l := by
  cases lines with
  | nil =>
    obtain rfl := List.mem_singleton.1 h
    exact .inl rfl
  | cons l ls =>
    rcases List.mem_cons.1 h with rfl | h
    · exact .inr ⟨l, List.mem_cons_self, .inl rfl⟩
    · obtain ⟨l', hl', rfl⟩ := List.mem_map.1 h
      exact .inr ⟨l', List.mem_cons_of_mem _ hl', .inr rfl⟩

theorem leadLines_eq_rows {start : Row} {indent : Nat} {lines : List (List Text)} (hs : start.words ≠ [])
    (hl : ∀ l ∈ lines, l ≠ []) (hne : lines ≠ []) :
    leadLines (start.text ++ [' ']) (spaces indent) (lines.map joinWords) =
      (leadRows start indent lines).map Row.text := by
  match lines, hne with
  | l :: ls, _ =>
    have hjoin := joinWords_append hs (hl l List.mem_cons_self)
    simp [leadLines, leadRows, Row.text, hjoin, Function.comp_def]

theorem alternativeLines_eq_rows {start : Row} {indent : Nat} {lines : List (List Text)}
    (hs : start.words ≠ []) (hl : ∀ l ∈ lines, l ≠ []) :
    alternativeLines start.text (spaces indent) lines = (leadRows start indent lines).map Row.text := by
  cases lines with
  | nil => rfl
  | cons l ls => exact leadLines_eq_rows hs hl (List.cons_ne_nil _ _)

/-! ### Rows of a body -/

/-- The rows of a body: they hold its words in order, begin with the name and the defining sign, and
none is empty. -/
structure BodyRows (name : Text) (words : List Text) (rows : List Row) : Prop where
  words_eq : rows.flatMap Row.words = name :: definingSign :: words ++ [[';']]
  begins : ∃ ws rest, rows = ⟨0, name :: definingSign :: ws⟩ :: rest
  filled : ∀ r ∈ rows, r.words ≠ []

/-- The row that begins a rule, as far as the defining sign. -/
def headRow (name : Text) : Row :=
  ⟨0, [name, definingSign]⟩

theorem text_headRow (name : Text) : (headRow name).text = ruleHead name := by
  rw [Row.text, headRow, ruleHead_eq]
  rfl

theorem oneLine_rows (name : Text) (words : List Text) :
    ∃ rows, oneLine (ruleHead name) words = rowsText rows ∧ BodyRows name words rows ∧ rows.length = 1 := by
  refine ⟨[⟨0, name :: definingSign :: words ++ [[';']]⟩], ?_, ⟨by simp, ⟨words ++ [[';']], [], by simp⟩, by simp⟩, rfl⟩
  have h : words ++ [[';']] ≠ [] := by simp
  rw [oneLine, List.cons_append, joinWords_cons h, ruleHead_eq, ← joinWords_append (List.cons_ne_nil _ _) h]
  simp [rowsText, Row.text, joinLines, spaces]

theorem wrapped_rows (width : Int) (name : Text) (words : List Text) :
    ∃ rows, wrapped width (ruleHead name) words = rowsText rows ∧ BodyRows name words rows ∧
      rows.length = (fill width ((ruleHead name).length + 1) (wrapUnits words)).length := by
  have hfill := fun l => @ne_nil_of_mem_fill width ((ruleHead name).length + 1) (wrapUnits words) l
  obtain ⟨lines, hmap, hflat, hne⟩ := lines_of_wrapUnits (flatten_fill width ((ruleHead name).length + 1) _) hfill
  have hlines : lines ≠ [] := by
    rintro rfl
    simp at hflat
  have hs : (headRow name).words ≠ [] := List.cons_ne_nil _ _
  refine ⟨leadRows (headRow name) ((ruleHead name).length + 1) lines, ?_, ⟨?_, ?_, ?_⟩, ?_⟩
  · rw [wrapped, rowsText, ← leadLines_eq_rows hs hne hlines, text_headRow, hmap]
  · rw [words_leadRows, hflat]
    simp [headRow]
  · obtain ⟨l, ls, rfl⟩ := List.exists_cons_of_ne_nil hlines
    exact ⟨l, ls.map (⟨(ruleHead name).length + 1, ·⟩), rfl⟩
  · exact fun r => ne_nil_of_mem_leadRows hs hne
  · have hlength := congrArg List.length hmap
    rw [List.length_map, List.length_map] at hlength
    rw [length_leadRows _ _ hlines, hlength]

/-- The row that begins an alternative other than the first, as far as the bar. -/
def barRow (name : Text) : Row :=
  ⟨(ruleHead name).length - 1, [['|']]⟩

/-- The rows of a block of alternatives, without the semicolon. -/
def blockRows (name : Text) : List (List (List Text)) → List Row
  | [] => []
  | lines :: others =>
    let lead := (ruleHead name).length + 1
    leadRows (headRow name) lead lines ++ others.flatMap (leadRows (barRow name) lead)

theorem blockLines_eq_rows {name : Text} {laidOut : List (List (List Text))}
    (hl : ∀ lines ∈ laidOut, ∀ l ∈ lines, l ≠ []) :
    blockLines (ruleHead name) laidOut = (blockRows name laidOut).map Row.text := by
  have hothers : ∀ (others : List (List (List Text))) (k : Nat), k ≠ 0 →
      (∀ lines ∈ others, ∀ l ∈ lines, l ≠ []) →
      ((others.zipIdx k).flatMap fun p => alternativeLines
        (if p.2 = 0 then ruleHead name else spaces ((ruleHead name).length - 1) ++ ['|'])
        (spaces ((ruleHead name).length + 1)) p.1) =
      (others.flatMap (leadRows (barRow name) ((ruleHead name).length + 1))).map Row.text := by
    intro others
    induction others with
    | nil => intros; rfl
    | cons lines others ih =>
      intro k hk hl
      have hbar : (barRow name).text = spaces ((ruleHead name).length - 1) ++ ['|'] := by
        simp [Row.text, barRow]
      rw [List.zipIdx_cons, List.flatMap_cons, List.flatMap_cons, List.map_append,
        ih (k + 1) (Nat.succ_ne_zero k) fun l' hl' => hl l' (List.mem_cons_of_mem _ hl'),
        ← alternativeLines_eq_rows (List.cons_ne_nil _ _) (hl lines List.mem_cons_self), hbar]
      simp only [if_neg hk]
  cases laidOut with
  | nil => rfl
  | cons lines others =>
    have hrest := hothers others 1 Nat.one_ne_zero fun l' hl' => hl l' (List.mem_cons_of_mem _ hl')
    have hfirst : alternativeLines (headRow name).text (spaces ((ruleHead name).length + 1)) lines =
        (leadRows (headRow name) ((ruleHead name).length + 1) lines).map Row.text :=
      alternativeLines_eq_rows (List.cons_ne_nil _ _) (hl lines List.mem_cons_self)
    rw [text_headRow] at hfirst
    rw [blockLines, List.zipIdx_cons, List.flatMap_cons, blockRows, List.map_append, ← hrest, ← hfirst]
    rfl

theorem words_blockRows (name : Text) (laidOut : List (List (List Text))) (h : laidOut ≠ []) :
    (blockRows name laidOut).flatMap Row.words = name :: definingSign :: barredWords laidOut := by
  have hothers : ∀ (lead : Nat) (first : List Text) (others : List (List (List Text))),
      first ++ (others.flatMap (leadRows (barRow name) lead)).flatMap Row.words =
        [['|']].intercalate (first :: others.map List.flatten) := by
    intro lead first others
    induction others generalizing first with
    | nil => simp
    | cons lines others ih =>
      rw [List.map_cons, List.intercalate_cons_cons, ← ih, List.flatMap_cons, List.flatMap_append, words_leadRows]
      simp [barRow]
  obtain ⟨lines, others, rfl⟩ := List.exists_cons_of_ne_nil h
  rw [blockRows, List.flatMap_append, words_leadRows, List.append_assoc, hothers]
  rfl

theorem blockRows_append (name : Text) (before : List (List (List Text))) (lines : List (List Text)) :
    ∃ rows, ∃ start ∈ [headRow name, barRow name],
      blockRows name (before ++ [lines]) = rows ++ leadRows start ((ruleHead name).length + 1) lines := by
  cases before with
  | nil => exact ⟨[], headRow name, by simp, by simp [blockRows]⟩
  | cons first others =>
    refine ⟨blockRows name (first :: others), barRow name, by simp, ?_⟩
    simp [blockRows, List.flatMap_append]

/-- Every row of a block is a row of one of its alternatives. -/
theorem mem_blockRows {name : Text} {laidOut : List (List (List Text))} {r : Row} (h : r ∈ blockRows name laidOut) :
    ∃ start ∈ [headRow name, barRow name], ∃ lines ∈ laidOut,
      r ∈ leadRows start ((ruleHead name).length + 1) lines := by
  cases laidOut with
  | nil => cases h
  | cons lines others =>
    rcases List.mem_append.1 h with h | h
    · exact ⟨headRow name, by simp, lines, List.mem_cons_self, h⟩
    · obtain ⟨lines', hlines', hr⟩ := List.mem_flatMap.1 h
      exact ⟨barRow name, by simp, lines', List.mem_cons_of_mem _ hlines', hr⟩

/-- The rows with the semicolon: at the end of the last one, or in a row of its own. -/
def closeRows (swallows : Bool) (lead : Nat) (rows : List Row) : List Row :=
  if swallows then rows ++ [⟨lead, [[';']]⟩]
  else rows.dropLast ++ (rows.getLast?.map fun r => ⟨r.indent, r.words ++ [[';']]⟩).toList

theorem closeRows_concat (lead : Nat) (before : List Row) (last : Row) :
    closeRows false lead (before ++ [last]) = before ++ [⟨last.indent, last.words ++ [[';']]⟩] := by
  simp [closeRows]

/-- Rows with everything but the semicolon are the rows of a body once they are closed. -/
theorem bodyRows_closeRows {name : Text} {words : List Text} {rows : List Row}
    (hwords : rows.flatMap Row.words = name :: definingSign :: words)
    (hbegins : ∃ ws rest, rows = ⟨0, name :: definingSign :: ws⟩ :: rest) (hfilled : ∀ r ∈ rows, r.words ≠ [])
    (swallows : Bool) (lead : Nat) : BodyRows name words (closeRows swallows lead rows) := by
  obtain ⟨ws, rest, hrest⟩ := hbegins
  cases swallows with
  | true =>
    rw [closeRows, if_pos rfl]
    refine ⟨?_, ⟨ws, rest ++ [⟨lead, [[';']]⟩], by rw [hrest]; rfl⟩, ?_⟩
    · rw [List.flatMap_append, hwords]
      rfl
    · intro r hr
      rcases List.mem_append.1 hr with hr | hr
      · exact hfilled r hr
      · obtain rfl := List.mem_singleton.1 hr
        exact List.cons_ne_nil _ _
  | false =>
    obtain rfl | ⟨before, last, rfl⟩ := List.eq_nil_or_concat' rows
    · cases hrest
    rw [closeRows_concat]
    refine ⟨?_, ?_, ?_⟩
    · simp only [List.flatMap_append, List.flatMap_singleton, ← List.append_assoc] at hwords ⊢
      rw [hwords]
    · cases before with
      | nil =>
        cases hrest
        exact ⟨ws ++ [[';']], [], rfl⟩
      | cons first before =>
        cases hrest
        exact ⟨ws, before ++ [⟨last.indent, last.words ++ [[';']]⟩], rfl⟩
    · intro r hr
      rcases List.mem_append.1 hr with hr | hr
      · exact hfilled r (List.mem_append_left _ hr)
      · obtain rfl := List.mem_singleton.1 hr
        simp

theorem filled_blockRows {name : Text} {laidOut : List (List (List Text))}
    (hl : ∀ lines ∈ laidOut, ∀ l ∈ lines, l ≠ []) : ∀ r ∈ blockRows name laidOut, r.words ≠ [] := by
  intro r hr
  obtain ⟨start, hstart, lines, hlines, hr⟩ := mem_blockRows hr
  refine ne_nil_of_mem_leadRows ?_ (hl lines hlines) hr
  rcases List.mem_cons.1 hstart with rfl | hstart
  · exact List.cons_ne_nil _ _
  · obtain rfl := List.mem_singleton.1 hstart
    exact List.cons_ne_nil _ _

theorem blockRows_begins (name : Text) {laidOut : List (List (List Text))} (hne : laidOut ≠ []) :
    ∃ ws rest, blockRows name laidOut = ⟨0, name :: definingSign :: ws⟩ :: rest := by
  obtain ⟨lines, others, rfl⟩ := List.exists_cons_of_ne_nil hne
  cases lines with
  | nil => exact ⟨[], _, rfl⟩
  | cons l ls => exact ⟨l, _, rfl⟩

theorem block_rows {name : Text} {laidOut : List (List (List Text))} (hne : laidOut ≠ [])
    (hl : ∀ lines ∈ laidOut, ∀ l ∈ lines, l ≠ []) (swallows : Bool) :
    block (ruleHead name) laidOut swallows =
        rowsText (closeRows swallows ((ruleHead name).length + 1) (blockRows name laidOut)) ∧
      BodyRows name (barredWords laidOut)
        (closeRows swallows ((ruleHead name).length + 1) (blockRows name laidOut)) := by
  have hbegins := blockRows_begins name hne
  have hfilled := @filled_blockRows name laidOut hl
  refine ⟨?_, bodyRows_closeRows (words_blockRows name laidOut hne) hbegins hfilled swallows _⟩
  rw [block, blockLines_eq_rows hl]
  cases swallows with
  | true => simp [closeRows, rowsText, Row.text]
  | false =>
    generalize blockRows name laidOut = rows at hbegins hfilled
    obtain rfl | ⟨before, last, rfl⟩ := List.eq_nil_or_concat' rows
    · obtain ⟨ws, rest, hrest⟩ := hbegins
      cases hrest
    have hjoin : joinWords (last.words ++ [[';']]) = joinWords last.words ++ [' ', ';'] := by
      rw [joinWords_append (hfilled last (by simp)) (List.cons_ne_nil _ _), joinWords_singleton]
    rw [closeRows_concat]
    simp [rowsText, Row.text, hjoin]

/-! ### Line comments -/

/-- What a line comment would swallow, the words after it in its line, is not there. -/
def Row.Closed (r : Row) : Prop :=
  ∀ w ∈ r.words.dropLast, ¬['/', '/'] <+: w

/-- Line comments stand alone in their lines. -/
def LinesClosed (lines : List (List Text)) : Prop :=
  ∀ l ∈ lines, ∀ w ∈ l, ['/', '/'] <+: w → l = [w]

/-- The last line holds no line comment. -/
def LastLineOpen (lines : List (List Text)) : Prop :=
  ∀ l ∈ lines.getLast?, ∀ w ∈ l, ¬['/', '/'] <+: w

section LineComments

variable {start r : Row} {indent : Nat} {lines : List (List Text)} {name : Text}

theorem closed_of_mem_leadRows (hs : ∀ w ∈ start.words, ¬['/', '/'] <+: w) (hl : ∀ l ∈ lines, l ≠ [])
    (hc : LinesClosed lines) (h : r ∈ leadRows start indent lines) : r.Closed := by
  have hline : ∀ l ∈ lines, ∀ w ∈ l.dropLast, ¬['/', '/'] <+: w := by
    intro l hlm w hw hp
    rw [hc l hlm w (List.mem_of_mem_dropLast hw) hp] at hw
    cases hw
  intro w hw
  rcases words_of_mem_leadRows h with h | ⟨l, hlm, h | h⟩
  · exact hs w (h ▸ List.mem_of_mem_dropLast hw)
  · rw [h, List.dropLast_append_of_ne_nil (hl l hlm)] at hw
    rcases List.mem_append.1 hw with hw | hw
    · exact hs w hw
    · exact hline l hlm w hw
  · exact hline l hlm w (h ▸ hw)

theorem getLast?_leadRows (hs : ∀ w ∈ start.words, ¬['/', '/'] <+: w) (ho : LastLineOpen lines)
    (h : r ∈ (leadRows start indent lines).getLast?) : ∀ w ∈ r.words, ¬['/', '/'] <+: w := by
  rcases List.eq_nil_or_concat' lines with rfl | ⟨before, l, rfl⟩
  · cases h
    exact hs
  · have hl : ∀ w ∈ l, ¬['/', '/'] <+: w := ho l (by simp)
    cases before with
    | nil =>
      cases h
      intro w hw
      rcases List.mem_append.1 hw with hw | hw
      · exact hs w hw
      · exact hl w hw
    | cons l' ls =>
      have hlast : (leadRows start indent (l' :: ls ++ [l])).getLast? = some ⟨indent, l⟩ := by
        rw [List.cons_append, leadRows, List.map_append, ← List.cons_append]
        exact List.getLast?_concat
      rw [hlast] at h
      cases h
      exact hl

theorem words_of_start (hn : ¬['/', '/'] <+: name) (h : start ∈ [headRow name, barRow name]) :
    start.words ≠ [] ∧ ∀ w ∈ start.words, ¬['/', '/'] <+: w := by
  rcases List.mem_cons.1 h with rfl | h
  · simpa [headRow, definingSign] using hn
  · obtain rfl := List.mem_singleton.1 h
    simp [barRow]

/-- In a block every line comment ends its row; the semicolon comes behind none. -/
theorem closed_block {laidOut : List (List (List Text))} (hn : ¬['/', '/'] <+: name)
    (hl : ∀ lines ∈ laidOut, ∀ l ∈ lines, l ≠ []) (hc : ∀ lines ∈ laidOut, LinesClosed lines) (swallows : Bool)
    (hs : swallows = false → ∀ lines ∈ laidOut.getLast?, LastLineOpen lines) (lead : Nat) :
    ∀ r ∈ closeRows swallows lead (blockRows name laidOut), r.Closed := by
  have hrows : ∀ r ∈ blockRows name laidOut, r.Closed := by
    intro r hr
    obtain ⟨start, hstart, lines, hlines, hr⟩ := mem_blockRows hr
    exact closed_of_mem_leadRows (words_of_start hn hstart).2 (hl lines hlines) (hc lines hlines) hr
  intro r hr
  cases swallows with
  | true =>
    rcases List.mem_append.1 hr with hr | hr
    · exact hrows r hr
    · obtain rfl := List.mem_singleton.1 hr
      simp [Row.Closed]
  | false =>
    rcases List.mem_append.1 hr with hr | hr
    · exact hrows r (List.mem_of_mem_dropLast hr)
    · obtain ⟨last, hlast, rfl⟩ : ∃ last, (blockRows name laidOut).getLast? = some last ∧
          ⟨last.indent, last.words ++ [[';']]⟩ = r := by
        simpa using hr
      rcases List.eq_nil_or_concat' laidOut with rfl | ⟨before, lines, rfl⟩
      · cases hlast
      obtain ⟨rows, start, hstart, hb⟩ := blockRows_append name before lines
      rw [hb, List.getLast?_append_of_ne_nil _ (leadRows_ne_nil _ _ _)] at hlast
      have hopen : LastLineOpen lines := hs rfl lines (by simp)
      intro w hw
      rw [List.dropLast_concat] at hw
      exact getLast?_leadRows (words_of_start hn hstart).2 hopen hlast w hw

/-- The words of the alternatives and the bars. -/
theorem mem_barredWords {laidOut : List (List (List Text))} {w : Text} (h : w ∈ barredWords laidOut) :
    w = ['|'] ∨ ∃ lines ∈ laidOut, ∃ l ∈ lines, w ∈ l := by
  obtain h | ⟨ws, hws, hw⟩ := mem_intercalate h
  · exact .inl (List.mem_singleton.1 h)
  · obtain ⟨lines, hlines, rfl⟩ := List.mem_map.1 hws
    obtain ⟨l, hl, hw⟩ := List.mem_flatten.1 hw
    exact .inr ⟨lines, hlines, l, hl, hw⟩

/-- Rows without line comments are closed. -/
theorem BodyRows.closed {words : List Text} {rows : List Row} (h : BodyRows name words rows)
    (hn : ¬['/', '/'] <+: name) (hw : ∀ w ∈ words, ¬['/', '/'] <+: w) : ∀ r ∈ rows, r.Closed := by
  intro r hr w hm
  have hmem : w ∈ name :: definingSign :: words ++ [[';']] := by
    rw [← h.words_eq]
    exact List.mem_flatMap.2 ⟨r, hr, List.mem_of_mem_dropLast hm⟩
  simp only [List.cons_append, List.mem_cons, List.mem_append, List.mem_nil_iff, or_false] at hmem
  rcases hmem with rfl | rfl | hm | rfl
  · exact hn
  · simp [definingSign]
  · exact hw w hm
  · simp

end LineComments

/-- A piece whose line comments stand alone in their lines, and whose last line is one exactly if the piece
says that it ends with one. -/
structure ClosedPiece (p : List Token) : Prop where
  lines : LinesClosed (layoutLines p)
  last : endsWithLineComment p = false → LastLineOpen (layoutLines p)

/-- A text in rows that hold the words of the pieces. If the pieces are closed, so are the rows. -/
def LaidOut (name : Text) (pieces : List (List Token)) (text : Text) : Prop :=
  ∃ rows, text = rowsText rows ∧ BodyRows name (barredWords (pieces.map layoutLines)) rows ∧
    (¬['/', '/'] <+: name → (∀ p ∈ pieces, ClosedPiece p) → ∀ r ∈ rows, r.Closed)

/-- No line of a layout is empty. -/
theorem filled_layoutLines (pieces : List (List Token)) : ∀ lines ∈ pieces.map layoutLines, ∀ l ∈ lines, l ≠ [] := by
  intro lines hlines l hl
  obtain ⟨p, -, rfl⟩ := List.mem_map.1 hlines
  exact ne_nil_of_mem_layoutLines hl

theorem laidOut_block (name : Text) {pieces : List (List Token)} (hp : pieces ≠ []) :
    LaidOut name pieces
      (block (ruleHead name) (pieces.map layoutLines) ((pieces.getLast?.map endsWithLineComment).getD false)) := by
  have hl := filled_layoutLines pieces
  obtain ⟨htext, hrows⟩ := block_rows (by simpa using hp) hl
    ((pieces.getLast?.map endsWithLineComment).getD false)
  refine ⟨_, htext, hrows, fun hn hc => closed_block hn hl ?_ _ ?_ _⟩
  · intro lines hlines
    obtain ⟨p, hpm, rfl⟩ := List.mem_map.1 hlines
    exact (hc p hpm).lines
  · intro hs lines hlines
    rw [List.getLast?_map] at hlines
    obtain ⟨p, hlast, rfl⟩ := Option.map_eq_some_iff.1 hlines
    rw [hlast] at hs
    exact (hc p (List.mem_of_getLast? hlast)).last hs

/-- Pieces of at most one line that do not end with a line comment hold none. -/
theorem not_line_of_mem_barredWords {pieces : List (List Token)} {w : Text} (hc : ∀ p ∈ pieces, ClosedPiece p)
    (he : ∀ p ∈ pieces, endsWithLineComment p = false) (hl : ∀ p ∈ pieces, (layoutLines p).length ≤ 1)
    (hw : w ∈ barredWords (pieces.map layoutLines)) : ¬['/', '/'] <+: w := by
  obtain rfl | ⟨lines, hlines, l, hll, hw⟩ := mem_barredWords hw
  · simp
  · obtain ⟨p, hpm, rfl⟩ := List.mem_map.1 hlines
    have hlen := hl p hpm
    have hsingle : layoutLines p = [l] := by
      match hlp : layoutLines p with
      | [] => simp [hlp] at hll
      | [l'] => simpa [hlp, eq_comm] using hll
      | _ :: _ :: _ => simp [hlp] at hlen
    exact (hc p hpm).last (he p hpm) l (by simp [hsingle]) w hw

/-- Whatever the layout decides, it lays the body out in rows. -/
theorem renderBody_rows (o : LayoutOptions) (name : Text) {pieces : List (List Token)} (hp : pieces ≠ []) :
    LaidOut name pieces (renderBody o name pieces) := by
  simp only [renderBody]
  split
  · exact laidOut_block name hp
  · rename_i hcond
    simp only [Bool.or_eq_true, not_or, List.any_eq_true, List.mem_map, decide_eq_true_eq, not_exists, not_and,
      Bool.not_eq_true] at hcond
    obtain ⟨hends, hlong⟩ := hcond
    have hlen : ∀ p ∈ pieces, (layoutLines p).length ≤ 1 :=
      fun p hpm => Nat.le_of_not_lt (hlong _ ⟨p, hpm, rfl⟩)
    have hclosed : ∀ rows, BodyRows name (barredWords (pieces.map layoutLines)) rows →
        ¬['/', '/'] <+: name → (∀ p ∈ pieces, ClosedPiece p) → ∀ r ∈ rows, r.Closed :=
      fun rows hrows hn hc => hrows.closed hn fun w hw => not_line_of_mem_barredWords hc hends hlen hw
    have hline : LaidOut name pieces (oneLine (ruleHead name) (barredWords (pieces.map layoutLines))) := by
      obtain ⟨rows, htext, hrows, -⟩ := oneLine_rows name (barredWords (pieces.map layoutLines))
      exact ⟨rows, htext, hrows, hclosed rows hrows⟩
    split
    · rename_i lines hlines
      split
      · exact hline
      · obtain ⟨rows, htext, hrows, -⟩ := wrapped_rows o.width name lines.flatten
        have hw : lines.flatten = barredWords (pieces.map layoutLines) := by
          simp [hlines, barredWords]
        rw [hw] at hrows
        exact ⟨rows, htext, hrows, hclosed rows hrows⟩
    · split
      · exact hline
      · exact laidOut_block name hp

end GrammarText
