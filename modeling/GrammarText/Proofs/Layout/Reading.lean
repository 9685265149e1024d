import GrammarText.Proofs.Layout.Rows
import GrammarText.Proofs.Layout.Spacing
import GrammarText.Proofs.Layout.Trim
import GrammarText.Proofs.Rule.Leading

/-!
# Reading a layout back

What a layout of a body says again when it is scanned: the name, the defining sign, the body without its
whitespace, and the semicolon (`lexemes_renderBody`). The rows of a layout enter as a sequence of words
with gaps in between (`Spaced`), which is all that the scanner sees of them.
-/

namespace GrammarText

/-! ### Words and gaps -/

/-- What can stand between the word `w` and the next one: a space, or the beginning of a new row. -/
def Gap (w g : Text) : Prop :=
  (g = [' '] ∧ ¬['/', '/'] <+: w) ∨ ∃ n, g = '\n' :: spaces n

/-- A text of words with gaps in between. -/
inductive Spaced : List Text → Text → Prop where
  | last (w : Text) : Spaced [w] w
  | cons {w g s : Text} {ws : List Text} (hg : Gap w g) (hs : Spaced ws s) : Spaced (w :: ws) (w ++ (g ++ s))

theorem Spaced.joinWords {ws : List Text} (hne : ws ≠ []) (hc : ∀ w ∈ ws.dropLast, ¬['/', '/'] <+: w) :
    Spaced ws (joinWords ws) := by
  induction ws with
  | nil => exact absurd rfl hne
  | cons w ws ih =>
    cases ws with
    | nil =>
      rw [joinWords_singleton]
      exact .last w
    | cons v vs =>
      rw [joinWords_cons (List.cons_ne_nil _ _)]
      rw [List.dropLast_cons_cons] at hc
      have hrest := ih (List.cons_ne_nil _ _) fun u hu => hc u (List.mem_cons_of_mem _ hu)
      exact .cons (.inl ⟨rfl, hc w List.mem_cons_self⟩) hrest

theorem Spaced.append {vs ws : List Text} {s t : Text} {n : Nat} (hs : Spaced vs s) (ht : Spaced ws t) :
    Spaced (vs ++ ws) (s ++ '\n' :: (spaces n ++ t)) := by
  induction hs with
  | last w => exact .cons (g := '\n' :: spaces n) (.inr ⟨n, rfl⟩) ht
  | cons hg _ ih =>
    rw [List.append_assoc, List.append_assoc]
    exact .cons hg ih

/-- Rows are words with gaps, once the indentation of the first is taken away. -/
theorem spaced_rows {r : Row} {rows : List Row} (hf : ∀ r' ∈ r :: rows, r'.words ≠ [])
    (hc : ∀ r' ∈ r :: rows, r'.Closed) :
    ∃ s, rowsText (r :: rows) = spaces r.indent ++ s ∧ Spaced ((r :: rows).flatMap Row.words) s := by
  have hr := Spaced.joinWords (hf r List.mem_cons_self) (hc r List.mem_cons_self)
  induction rows generalizing r with
  | nil => exact ⟨joinWords r.words, by simp [rowsText, Row.text, joinLines], by simpa using hr⟩
  | cons r' rows ih =>
    obtain ⟨s, hs, hspaced⟩ := ih (fun q hq => hf q (List.mem_cons_of_mem _ hq))
      (fun q hq => hc q (List.mem_cons_of_mem _ hq))
      (Spaced.joinWords (hf r' (by simp)) (hc r' (by simp)))
    refine ⟨joinWords r.words ++ '\n' :: (spaces r'.indent ++ s), ?_, hr.append hspaced⟩
    rw [rowsText, List.map_cons, joinLines_cons _ (by simp), ← rowsText, hs, Row.text, List.append_assoc]

theorem isSpace_of_mem_spaces {n : Nat} {c : Char} (h : c ∈ spaces n) : isSpace c = true := by
  rw [List.eq_of_mem_replicate h]
  rfl

theorem Gap.spec {w g : Text} (h : Gap w g) :
    g ≠ [] ∧ (∀ x ∈ g, isSpace x = true) ∧ (['/', '/'] <+: w → g.head? = some '\n') := by
  obtain ⟨rfl, hw⟩ | ⟨n, rfl⟩ := h
  · exact ⟨List.cons_ne_nil _ _, by simp [isSpace], fun hp => absurd hp hw⟩
  · refine ⟨List.cons_ne_nil _ _, fun x hx => ?_, fun _ => rfl⟩
    rcases List.mem_cons.1 hx with rfl | hx
    · rfl
    · exact isSpace_of_mem_spaces hx

/-- A text of words begins with no space. -/
theorem Spaced.starts {ws : List Text} {s : Text} (hs : Spaced ws s)
    (hw : ∀ w ∈ ws, ∃ c r, w = c :: r ∧ isSpace c = false) : ∃ c r, s = c :: r ∧ isSpace c = false := by
  cases hs with
  | last => exact hw _ List.mem_cons_self
  | @cons w g s ws hg hs =>
    obtain ⟨c, r, rfl, hc⟩ := hw _ List.mem_cons_self
    exact ⟨c, _, rfl, hc⟩

/-- Words with gaps, the last one a semicolon, are read as the tokens of the words. -/
theorem lexemes_spaced {gs : List (List Token)} {s : Text} (hs : Spaced (gs.map spelling ++ [[';']]) s)
    (hgs : ∀ g ∈ gs, Solid g) (rest : Text) :
    ∃ us, lexemes .ebnf (s ++ rest) = us ++ ⟨.operator, [';'], {}⟩ :: lexemes .ebnf rest ∧ dense us = gs.flatten := by
  induction gs generalizing s with
  | nil =>
    cases hs with
    | last => exact ⟨[], lexemes_semicolon rest, rfl⟩
    | cons _ h => cases h
  | cons g gs ih =>
    have hsolid := hgs g List.mem_cons_self
    have hgs' := fun g' hg' => hgs g' (List.mem_cons_of_mem _ hg')
    generalize hws : gs.map spelling ++ [[';']] = ws at ih
    rw [List.map_cons, List.cons_append, hws] at hs
    cases hs with
    | last => simp at hws
    | @cons _ gap s' _ hgap hs' =>
      obtain ⟨us, hus, hd⟩ := ih hs' hgs'
      obtain ⟨hne, hsp, hline⟩ := hgap.spec
      obtain ⟨x, z, rfl⟩ := List.exists_cons_of_ne_nil hne
      have hw : ∀ w ∈ ws, ∃ c r, w = c :: r ∧ isSpace c = false := by
        intro w hw
        rw [← hws] at hw
        rcases List.mem_append.1 hw with hw | hw
        · obtain ⟨g', hg', rfl⟩ := List.mem_map.1 hw
          exact (hgs' g' hg').starts
        · obtain rfl := List.mem_singleton.1 hw
          exact ⟨';', [], rfl, rfl⟩
      have hhead : ∀ y ∈ (s' ++ rest).head?, isSpace y = false := by
        obtain ⟨c, r, rfl, hc⟩ := hs'.starts hw
        simpa using hc
      refine ⟨g ++ ⟨.whitespace, x :: z, {}⟩ :: us, ?_, ?_⟩
      · have hg := hsolid.reads (x :: z ++ (s' ++ rest)) (by simpa using hsp x List.mem_cons_self)
          (fun hp => by simpa using hline hp)
        rw [List.append_assoc, List.append_assoc, hg, lexemes_gap hne hsp hhead, hus]
        simp
      · rw [dense_append, hsolid.dense_eq, dense_cons_whitespace rfl, hd, List.flatten_cons]

/-! ### The words of a rule -/

theorem Token.bare_of_tidy {t : Token} (h : t.tidy.bare = t.tidy) : t.bare = t := by
  by_cases hc : t.kind = .comment
  · rw [Token.tidy_of_comment hc] at h
    obtain ⟨k, x, p⟩ := t
    simpa [Token.bare] using h
  · rwa [Token.tidy_of_not_comment hc] at h

/-- A rule whose layout says what the rule says: its tokens are complete, none run together, and its body
ends where it does. -/
structure Rule.Legible (r : Rule) : Prop where
  name : Lexeme .ebnf .identifier r.name
  tokens : ∀ t ∈ dense r.body, Written t.tidy
  apart : keepsApart (dense r.body) = true
  body : bodyFrom 0 r.body = true
  closed : depthAfterAll 0 r.body = 0
  comments : ∀ x ∈ r.comments, LeadingComment x

/-- The groups that make the words of the pieces and the bars between them. -/
def pieceGroups (pieces : List (List Token)) : List (List Token) :=
  [[barToken]].intercalate (pieces.map fun p => (wordGroups ((dense p).map Token.tidy)).flatten)

theorem barredWords_eq (pieces : List (List Token)) :
    barredWords (pieces.map layoutLines) = (pieceGroups pieces).map spelling := by
  rw [barredWords, pieceGroups, map_intercalate, List.map_map, List.map_map]
  have h : ∀ p ∈ pieces, (List.flatten ∘ layoutLines) p =
      (List.map spelling ∘ fun p => (wordGroups ((dense p).map Token.tidy)).flatten) p := by
    intro p _
    rw [Function.comp_apply, Function.comp_apply, layoutLines_eq, List.map_flatten]
  rw [List.map_congr_left h]
  rfl

theorem flatten_pieceGroups {body : List Token} (h : ∀ t ∈ dense body, t.bare = t) :
    (pieceGroups (splitBars 0 body)).flatten = (dense body).map Token.tidy := by
  have hd : (splitBars 0 body).map (fun p => (dense p).map Token.tidy) =
      splitBars 0 ((dense body).map Token.tidy) := by
    rw [splitBars_map Token.isOp_tidy, ← map_dense_splitBars, List.map_map]
    rfl
  have hbare : ∀ t ∈ (dense body).map Token.tidy, t.bare = t := by
    intro t ht
    obtain ⟨u, hu, rfl⟩ := List.mem_map.1 ht
    rw [← h u hu]
    by_cases hc : u.kind = .comment
    · rw [Token.tidy_of_comment (by simpa using hc)]
      rfl
    · rw [Token.tidy_of_not_comment (by simpa using hc), Token.bare_bare]
  rw [pieceGroups, flatten_intercalate, List.map_map]
  have hflat : (List.flatten ∘ fun p : List Token => (wordGroups ((dense p).map Token.tidy)).flatten) =
      fun p => (dense p).map Token.tidy :=
    funext fun p => flatten_wordGroups _
  rw [hflat, hd]
  exact intercalate_splitBars hbare 0

/-- The groups of a rule's words after its name. -/
def bodyGroups (r : Rule) : List (List Token) :=
  [⟨.operator, definingSign, {}⟩] :: pieceGroups (splitBars 0 r.body)

section Legible

variable {r : Rule} {p : List Token}

theorem dense_infix_of_mem_splitBars (hp : p ∈ splitBars 0 r.body) : dense p <:+: dense r.body :=
  (infix_of_mem_splitBars hp).filter _

theorem Rule.Legible.piece (h : r.Legible) (hp : p ∈ splitBars 0 r.body) :
    (∀ t ∈ (dense p).map Token.tidy, Written t) ∧ keepsApart ((dense p).map Token.tidy) = true := by
  have hi := dense_infix_of_mem_splitBars hp
  constructor
  · intro t ht
    obtain ⟨u, hu, rfl⟩ := List.mem_map.1 ht
    exact h.tokens u (hi.subset hu)
  · rw [keepsApart_map Token.isOp_tidy Token.isLone_tidy]
    exact keepsApart_of_isInfix hi h.apart

/-- In the pieces of a legible rule line comments are where the layout expects them. -/
theorem Rule.Legible.closedPiece (h : r.Legible) (hp : p ∈ splitBars 0 r.body) : ClosedPiece p := by
  obtain ⟨hw, ha⟩ := h.piece hp
  constructor
  · intro l hl w hwl hline
    rw [layoutLines_eq] at hl
    obtain ⟨line, hm, rfl⟩ := List.mem_map.1 hl
    obtain ⟨g, hg, rfl⟩ := List.mem_map.1 hwl
    obtain ⟨t, -, rfl, rfl⟩ := eq_of_line hw ha hm hg hline
    rfl
  · intro hends l hl w hwl hline
    rw [layoutLines_eq, List.getLast?_map] at hl
    obtain ⟨line, hlast, rfl⟩ := Option.map_eq_some_iff.1 hl
    obtain ⟨g, hg, rfl⟩ := List.mem_map.1 hwl
    obtain ⟨t, hk, rfl, rfl⟩ := eq_of_line hw ha (List.mem_of_getLast? hlast) hg hline
    -- the line comment is the last token of the piece
    have hflat := flatten_wordGroups ((dense p).map Token.tidy)
    obtain ⟨lines, hlines⟩ := List.getLast?_eq_some_iff.1 hlast
    rw [hlines] at hflat
    have hlt : ((dense p).map Token.tidy).getLast? = some t := by
      rw [← hflat]
      simp
    rw [List.getLast?_map] at hlt
    obtain ⟨u, hu, rfl⟩ := Option.map_eq_some_iff.1 hlt
    rw [Token.kind_tidy] at hk
    have hup : ['/', '/'] <+: u.text := by
      rw [Token.tidy_of_comment hk] at hline
      have hs : spelling [{ u with text := rstrip u.text }] = rstrip u.text := by simp [spelling]
      rw [hs] at hline
      exact hline.trans (isPrefix_rstrip u.text)
    rw [endsWithLineComment, show (p.filter (·.kind != .whitespace)).getLast? = some u from hu] at hends
    simp [hk, List.isPrefixOf_iff_prefix.2 hup] at hends

theorem solid_bodyGroups (h : r.Legible) : ∀ g ∈ bodyGroups r, Solid g := by
  intro g hg
  rcases List.mem_cons.1 hg with rfl | hg
  · exact solid_singleton ⟨.longOperator (by decide), rfl, by decide⟩
  · rcases mem_intercalate hg with hg | ⟨gs, hgs, hg⟩
    · obtain rfl := List.mem_singleton.1 hg
      exact solid_singleton ⟨.shortOperator (by decide), rfl, by decide⟩
    · obtain ⟨p, hp, rfl⟩ := List.mem_map.1 hgs
      obtain ⟨line, hline, hg⟩ := List.mem_flatten.1 hg
      obtain ⟨hw, ha⟩ := h.piece hp
      exact solid_of_mem_wordGroups hw ha hline hg

theorem flatten_bodyGroups (h : r.Legible) :
    (bodyGroups r).flatten = ⟨.operator, definingSign, {}⟩ :: (dense r.body).map Token.tidy := by
  rw [bodyGroups, List.flatten_cons, flatten_pieceGroups fun t ht => Token.bare_of_tidy (h.tokens t ht).bare]
  rfl

theorem not_line_of_identifier {n : Text} (h : Lexeme .ebnf .identifier n) : ¬['/', '/'] <+: n := by
  rintro ⟨s, rfl⟩
  cases h with
  | word hc => cases hc

/-- A laid out body is its name, a space, and the words of the rest with gaps in between. -/
theorem spaced_renderBody (h : r.Legible) (o : LayoutOptions) :
    ∃ t, renderBody o r.name (splitBars 0 r.body) = r.name ++ ' ' :: t ∧
      Spaced ((bodyGroups r).map spelling ++ [[';']]) t := by
  obtain ⟨rows, htext, hrows, hclosed⟩ := renderBody_rows o r.name (splitBars_ne_nil 0 r.body)
  have hc := hclosed (not_line_of_identifier h.name) fun p hp => h.closedPiece hp
  obtain ⟨ws, rest, rfl⟩ := hrows.begins
  have hf := hrows.filled
  -- the first row without the name
  obtain ⟨s, hs, hspaced⟩ : ∃ s, rowsText (⟨0, definingSign :: ws⟩ :: rest) = spaces 0 ++ s ∧
      Spaced ((⟨0, definingSign :: ws⟩ :: rest : List Row).flatMap Row.words) s := by
    apply spaced_rows
    · intro r' hr'
      rcases List.mem_cons.1 hr' with rfl | hr'
      · exact List.cons_ne_nil _ _
      · exact hf r' (List.mem_cons_of_mem _ hr')
    · intro r' hr'
      rcases List.mem_cons.1 hr' with rfl | hr'
      · intro w hw
        have := hc _ List.mem_cons_self w
        rw [List.dropLast_cons_cons] at this
        exact this (List.mem_cons_of_mem _ hw)
      · exact hc r' (List.mem_cons_of_mem _ hr')
  refine ⟨s, ?_, ?_⟩
  · have hfirst : (⟨0, r.name :: definingSign :: ws⟩ : Row).text =
        (r.name ++ [' ']) ++ (⟨0, definingSign :: ws⟩ : Row).text := by
      simp only [Row.text, joinWords_cons (List.cons_ne_nil definingSign ws)]
      simp [spaces]
    rw [htext, rowsText, List.map_cons, hfirst, joinLines_cons_append, ← List.map_cons, ← rowsText, hs]
    simp [spaces]
  · have hwords := hrows.words_eq
    rw [barredWords_eq] at hwords
    simp only [List.flatMap_cons, List.cons_append, List.cons.injEq, true_and] at hwords hspaced
    rw [hwords] at hspaced
    simpa [bodyGroups, spelling] using hspaced

end Legible

end GrammarText
