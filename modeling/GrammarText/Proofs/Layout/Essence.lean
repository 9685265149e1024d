import GrammarText.Proofs.Layout.Restoring

/-!
# What a layout depends on

A layout depends on a rule through its name, the comments before it, and the cores of its tokens without
whitespace (`Rule.Like`): rules that are alike are laid out the same way (`renderRule_like`), and say the
same (`content_like`). A rule that was read back from its layout is like the one that was laid out.
-/

namespace GrammarText

/-- The token as far as a layout can tell: at no place, and a comment without the blanks at its end. -/
def Token.core (t : Token) : Token :=
  t.tidy.bare

/-- Rules that a layout cannot tell apart. -/
structure Rule.Like (r r' : Rule) : Prop where
  name : r'.name = r.name
  comments : r'.comments = r.comments
  body : (dense r'.body).map Token.core = (dense r.body).map Token.core

section Core

variable {t u : Token}

@[simp] theorem Token.kind_core (t : Token) : t.core.kind = t.kind :=
  t.kind_tidy

@[simp] theorem Token.isOp_core (t : Token) (s : Text) : t.core.isOp s = t.isOp s :=
  t.isOp_tidy s

theorem Token.text_core_of_comment (h : t.kind = .comment) : t.core.text = rstrip t.text := by
  rw [Token.core, Token.tidy_of_comment h]
  rfl

theorem Token.core_of_not_comment (h : t.kind ≠ .comment) : t.core = t.bare := by
  rw [Token.core, Token.tidy_of_not_comment h]

theorem Token.text_core_of_not_comment (h : t.kind ≠ .comment) : t.core.text = t.text := by
  rw [Token.core_of_not_comment h, Token.text_bare]

theorem Token.core_tidy (t : Token) : t.tidy.core = t.core := by
  by_cases h : t.kind = .comment
  · rw [Token.core, Token.tidy_of_comment (by simpa using h), Token.core, Token.tidy_of_comment h, rstrip_rstrip]
  · rw [Token.tidy_of_not_comment h]

theorem Token.core_bare (t : Token) : t.bare.core = t.core := by
  by_cases h : t.kind = .comment
  · rw [Token.core, Token.core, Token.tidy_of_comment h, Token.tidy_of_comment (show t.bare.kind = _ from h)]
    rfl
  · rw [Token.core, Token.core, Token.tidy_of_not_comment h, Token.tidy_of_not_comment (show t.bare.kind ≠ _ from h)]
    rfl

theorem needsSpace_core (ht : t.kind ≠ .comment) (hu : u.kind ≠ .comment) :
    needsSpace (some t.core) u.core = needsSpace (some t) u := by
  rw [Token.core_of_not_comment ht, Token.core_of_not_comment hu]
  rfl

theorem wordLines_map_core (ts : List Token) : wordLines (ts.map Token.core) = wordLines ts := by
  induction ts with
  | nil => rfl
  | cons t ts ih =>
    cases ts with
    | nil =>
      by_cases h : t.kind = .comment
      · simp [wordLines, h, Token.text_core_of_comment h]
      · simp [wordLines, h, Token.text_core_of_not_comment h]
    | cons u ts =>
      rw [List.map_cons] at ih
      rw [List.map_cons, List.map_cons, wordLines, wordLines, ih, Token.kind_core, Token.kind_core]
      by_cases ht : t.kind = .comment
      · simp [ht, Token.text_core_of_comment ht]
      · rw [Token.text_core_of_not_comment ht]
        by_cases hu : u.kind = .comment
        · simp [ht, hu]
        · rw [needsSpace_core ht hu]

/-- What a piece contributes to a layout. -/
theorem layoutLines_eq_core (p : List Token) : layoutLines p = wordLines ((dense p).map Token.core) :=
  (wordLines_map_core _).symm

/-- Whether a piece ends with a line comment can be told from tokens of the same classes whose comments have the same
marks. -/
theorem endsWithLineComment_map {f : Token → Token} (hk : ∀ t, (f t).kind = t.kind)
    (hl : ∀ t, t.kind = .comment → (['/', '/'] <+: (f t).text ↔ ['/', '/'] <+: t.text)) (p : List Token) :
    endsWithLineComment (p.map f) = endsWithLineComment p := by
  rw [endsWithLineComment, endsWithLineComment, ← dense, ← dense, dense_map hk, List.getLast?_map]
  cases (dense p).getLast? with
  | none => rfl
  | some t =>
    change ((f t).kind == .comment && ['/', '/'].isPrefixOf (f t).text) =
      (t.kind == .comment && ['/', '/'].isPrefixOf t.text)
    rw [hk]
    by_cases h : t.kind = .comment
    · rw [Bool.eq_iff_iff, Bool.and_eq_true, Bool.and_eq_true, List.isPrefixOf_iff_prefix, List.isPrefixOf_iff_prefix,
        hl t h]
    · rw [beq_eq_false_iff_ne.2 h, Bool.false_and, Bool.false_and]

theorem endsWithLineComment_eq_core (p : List Token) :
    endsWithLineComment p = endsWithLineComment ((dense p).map Token.core) := by
  have hline : ∀ t : Token, t.kind = .comment → (['/', '/'] <+: t.core.text ↔ ['/', '/'] <+: t.text) := by
    intro t h
    rw [Token.text_core_of_comment h, (thin_rstrip t.text).line_iff]
  rw [endsWithLineComment_map Token.kind_core hline, endsWithLineComment, endsWithLineComment, ← dense, ← dense,
    dense_dense]

end Core

/-- The pieces of a body, as far as a layout can tell. -/
theorem map_core_splitBars (body : List Token) :
    (splitBars 0 body).map (fun p => (dense p).map Token.core) = splitBars 0 ((dense body).map Token.core) := by
  rw [splitBars_map Token.isOp_core, ← map_dense_splitBars, List.map_map]
  rfl

/-- Pieces that agree in their cores are laid out the same way. -/
theorem renderBody_congr (o : LayoutOptions) (name : Text) {pieces pieces' : List (List Token)}
    (h : pieces'.map (fun p => (dense p).map Token.core) = pieces.map fun p => (dense p).map Token.core) :
    renderBody o name pieces' = renderBody o name pieces := by
  have hlines : pieces'.map layoutLines = pieces.map layoutLines := by
    have := congrArg (List.map wordLines) h
    simp only [List.map_map] at this
    simpa only [Function.comp_def, ← layoutLines_eq_core] using this
  have hends : pieces'.map endsWithLineComment = pieces.map endsWithLineComment := by
    have := congrArg (List.map endsWithLineComment) h
    simp only [List.map_map] at this
    simpa only [Function.comp_def, ← endsWithLineComment_eq_core] using this
  have hany : pieces'.any endsWithLineComment = pieces.any endsWithLineComment := by
    have := congrArg (·.any id) hends
    simpa using this
  have hlast : pieces'.getLast?.map endsWithLineComment = pieces.getLast?.map endsWithLineComment := by
    rw [← List.getLast?_map, hends, List.getLast?_map]
  simp only [renderBody, hlines, hany, hlast]

section Like

variable {r r' : Rule}

/-- Rules that are alike are laid out the same way. -/
theorem renderRule_like (h : r.Like r') (o : LayoutOptions) : renderRule o r' = renderRule o r := by
  have hpieces : (splitBars 0 r'.body).map (fun p => (dense p).map Token.core) =
      (splitBars 0 r.body).map fun p => (dense p).map Token.core := by
    rw [map_core_splitBars, map_core_splitBars, h.body]
  rw [renderRule, renderRule, h.name, h.comments, renderBody_congr o r.name hpieces]

theorem like_bare (r : Rule) : r.bare.Like r := by
  refine ⟨rfl, rfl, ?_⟩
  rw [Rule.bare, dense_map Token.kind_bare, List.map_map]
  exact List.map_congr_left fun t _ => (Token.core_bare t).symm

theorem Restored.like (h : Restored r r') : r.Like r' := by
  refine ⟨h.name, h.comments, ?_⟩
  rw [h.body, List.map_map]
  exact List.map_congr_left fun t _ => Token.core_tidy t

/-! ### Content -/

theorem significant_core (p : List Token) :
    (significant ((dense p).map Token.core)).map Token.sign = (significant p).map Token.sign := by
  induction p with
  | nil => rfl
  | cons t p ih =>
    by_cases hw : t.kind = .whitespace
    · rw [dense_cons_whitespace hw, ih]
      simp [significant, Token.isTrivia, hw]
    · rw [dense_cons hw, List.map_cons]
      by_cases hc : t.kind = .comment
      · simpa [significant, Token.isTrivia, hc] using ih
      · simpa [significant, Token.isTrivia, hc, hw, Token.sign, Token.text_core_of_not_comment hc] using ih

theorem commentTexts_core (p : List Token) : commentTexts ((dense p).map Token.core) = commentTexts p := by
  induction p with
  | nil => rfl
  | cons t p ih =>
    by_cases hw : t.kind = .whitespace
    · rw [dense_cons_whitespace hw]
      simpa [commentTexts, hw] using ih
    · rw [dense_cons hw, List.map_cons]
      by_cases hc : t.kind = .comment
      · simpa [commentTexts, hc, Token.text_core_of_comment hc] using ih
      · simpa [commentTexts, hc] using ih

/-- What a piece says can be told from the cores of its tokens. -/
theorem content_eq_core (p : List Token) (i j : Nat) :
    Alternative.content ⟨p, i⟩ = Alternative.content ⟨(dense p).map Token.core, j⟩ := by
  simp only [Alternative.content, Alternative.significant, significant_core, commentTexts_core]

theorem map_content_alternatives (body : List Token) :
    (alternatives body).map Alternative.content =
      (splitBars 0 ((dense body).map Token.core)).map fun p => Alternative.content ⟨p, 0⟩ := by
  have hzip : ∀ (pieces : List (List Token)) (k : Nat),
      ((pieces.zipIdx k).map fun p => Alternative.content ⟨p.1, p.2⟩) =
        pieces.map fun p => Alternative.content ⟨(dense p).map Token.core, 0⟩ := by
    intro pieces
    induction pieces with
    | nil => exact fun _ => rfl
    | cons p pieces ih =>
      intro k
      rw [List.zipIdx_cons, List.map_cons, List.map_cons, ih, content_eq_core p k 0]
  rw [alternatives, List.map_map, ← map_core_splitBars, List.map_map]
  exact hzip (splitBars 0 body) 0

/-- Rules that are alike say the same. -/
theorem content_like (h : r.Like r') : r'.content = r.content := by
  rw [Rule.content, Rule.content, Rule.alternatives, Rule.alternatives, map_content_alternatives,
    map_content_alternatives, h.name, h.body]

end Like

end GrammarText
