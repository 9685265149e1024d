import GrammarText.Proofs.Layout.Idempotence
import GrammarText.Proofs.Rule.Partition

/-!
# Where the characters of a layout come from

A formatted text is made of characters of the document and of the few signs that a layout writes itself
(`drawnFrom_formatDocument`). In particular it has no carriage return if the document has none.
-/

namespace GrammarText

/-- The signs that a layout writes. -/
def layoutSigns : Text :=
  [' ', '\n', '|', ':', '=', ';']

/-- Whether every character of `t` stands in `s` or is a sign that a layout writes. -/
def DrawnFrom (s t : Text) : Prop :=
  ∀ c ∈ t, c ∈ s ∨ c ∈ layoutSigns

section DrawnFrom

variable {s s' t t' : Text} {ts : List Text}

theorem DrawnFrom.subset (h : DrawnFrom s t) (ht : t' ⊆ t) : DrawnFrom s t' :=
  fun c hc => h c (ht hc)

theorem drawnFrom_of_subset (h : t ⊆ s) : DrawnFrom s t :=
  fun _ hc => .inl (h hc)

theorem drawnFrom_of_signs (h : t ⊆ layoutSigns) : DrawnFrom s t :=
  fun _ hc => .inr (h hc)

theorem DrawnFrom.append (h : DrawnFrom s t) (h' : DrawnFrom s t') : DrawnFrom s (t ++ t') := by
  intro c hc
  rcases List.mem_append.1 hc with hc | hc
  · exact h c hc
  · exact h' c hc

theorem DrawnFrom.joinWords (h : ∀ t ∈ ts, DrawnFrom s t) : DrawnFrom s (joinWords ts) := by
  intro c hc
  obtain rfl | ⟨t, ht, hc⟩ := mem_joinWords hc
  · right
    decide
  · exact h t ht c hc

theorem DrawnFrom.joinLines (h : ∀ t ∈ ts, DrawnFrom s t) : DrawnFrom s (joinLines ts) := by
  intro c hc
  obtain rfl | ⟨t, ht, hc⟩ := mem_joinLines hc
  · right
    decide
  · exact h t ht c hc

theorem drawnFrom_replicate {c : Char} (hc : c ∈ layoutSigns) (n : Nat) : DrawnFrom s (List.replicate n c) := by
  intro d hd
  rw [List.eq_of_mem_replicate hd]
  exact .inr hc

theorem DrawnFrom.joinSpaced (gap : Nat) (h : ∀ t ∈ ts, DrawnFrom s t) : DrawnFrom s (joinSpaced gap ts) := by
  induction ts with
  | nil =>
    unfold GrammarText.joinSpaced
    exact drawnFrom_of_subset (List.nil_subset s)
  | cons t ts ih =>
    have htail := ih fun u hu => h u (List.mem_cons_of_mem t hu)
    cases ts with
    | nil => exact h t List.mem_cons_self
    | cons u us =>
      unfold GrammarText.joinSpaced
      exact ((h t List.mem_cons_self).append (drawnFrom_replicate (by decide) gap)).append htail

end DrawnFrom

/-! ### Rules -/

section Rules

variable {ts : List Token} {r : Rule}

theorem subset_spelling {t : Token} (h : t ∈ ts) : t.text ⊆ spelling ts :=
  fun _ hc => List.mem_flatMap.2 ⟨t, h, hc⟩

theorem spelling_subset {us : List Token} (h : us ⊆ ts) : spelling us ⊆ spelling ts := by
  intro c hc
  obtain ⟨t, ht, hc⟩ := List.mem_flatMap.1 hc
  exact subset_spelling (h ht) hc

theorem leadingBlank_subset (ts : List Token) : leadingBlank ts ⊆ spelling ts := by
  cases ts with
  | nil => exact List.nil_subset _
  | cons t ts =>
    rw [leadingBlank]
    split
    · exact subset_spelling List.mem_cons_self
    · exact List.nil_subset _

theorem keptComments_subset {x : Text} (h : x ∈ keptComments ts) : x ⊆ spelling ts := by
  induction ts with
  | nil => cases h
  | cons t ts ih =>
    have htail : spelling ts ⊆ spelling (t :: ts) := spelling_subset (List.subset_cons_self t ts)
    unfold keptComments at h
    split at h
    · rcases List.mem_cons.1 h with rfl | h
      · exact List.append_subset.2 ⟨subset_spelling List.mem_cons_self, List.Subset.trans (leadingBlank_subset ts) htail⟩
      · exact List.Subset.trans (ih h) htail
    · exact List.Subset.trans (ih h) htail

/-- The parts of a rule are spelled with the tokens in which it is found. -/
theorem parts_subset_of_mem_extract (h : r ∈ extract ts) :
    r.name ⊆ spelling ts ∧ r.comments.flatten ⊆ spelling ts ∧ r.body ⊆ ts := by
  obtain ⟨s, rfl, hs⟩ := exists_stretch_of_mem_extract h
  have hgap : s.gap ⊆ ts := List.Subset.trans (List.subset_append_left _ _) hs.subset
  have hname : s.name ∈ ts := hs.subset (List.mem_append_right _ List.mem_cons_self)
  refine ⟨subset_spelling hname, ?_, (body_infix_of_mem_extract h).subset⟩
  intro c hc
  obtain ⟨x, hx, hc⟩ := List.mem_flatten.1 hc
  exact spelling_subset hgap (keptComments_subset hx hc)

theorem word_subset {p : List Token} {l : List Text} {w : Text} (hl : l ∈ layoutLines p) (hw : w ∈ l) :
    w ⊆ spelling p := by
  rw [layoutLines_eq] at hl
  obtain ⟨line, hline, rfl⟩ := List.mem_map.1 hl
  obtain ⟨g, hg, rfl⟩ := List.mem_map.1 hw
  intro c hc
  obtain ⟨u, hu, hc⟩ := List.mem_flatMap.1 hc
  obtain ⟨t, ht, rfl⟩ := List.mem_map.1 ((infix_of_mem_wordGroups hline hg).subset hu)
  apply subset_spelling (mem_dense.1 ht).1
  unfold Token.tidy at hc
  split at hc
  · exact (isPrefix_rstrip t.text).subset hc
  · exact hc

theorem drawnFrom_rowsText {s : Text} {rows : List Row} (h : ∀ w ∈ rows.flatMap Row.words, DrawnFrom s w) :
    DrawnFrom s (rowsText rows) := by
  apply DrawnFrom.joinLines
  intro t ht
  obtain ⟨row, hrow, rfl⟩ := List.mem_map.1 ht
  apply (drawnFrom_replicate (by decide) row.indent).append
  exact DrawnFrom.joinWords fun w hw => h w (List.mem_flatMap.2 ⟨row, hrow, hw⟩)

theorem drawnFrom_renderRule (h : r ∈ extract ts) (o : LayoutOptions) : DrawnFrom (spelling ts) (renderRule o r) := by
  obtain ⟨hname, hcomments, hbody⟩ := parts_subset_of_mem_extract h
  obtain ⟨rows, htext, hrows, -⟩ := renderBody_rows o r.name (splitBars_ne_nil 0 r.body)
  unfold renderRule
  apply (drawnFrom_of_subset hcomments).append
  rw [htext]
  apply drawnFrom_rowsText
  rw [hrows.words_eq]
  intro w hw
  rw [List.mem_append, List.mem_cons, List.mem_cons, List.mem_singleton] at hw
  rcases hw with (rfl | rfl | hw) | rfl
  · exact drawnFrom_of_subset hname
  · exact drawnFrom_of_signs (by decide)
  · obtain rfl | ⟨lines, hlines, l, hl, hw⟩ := mem_barredWords hw
    · exact drawnFrom_of_signs (by decide)
    · obtain ⟨p, hp, rfl⟩ := List.mem_map.1 hlines
      have hpiece : p ⊆ ts := List.Subset.trans (infix_of_mem_splitBars hp).subset hbody
      exact drawnFrom_of_subset (List.Subset.trans (word_subset hl hw) (spelling_subset hpiece))
  · exact drawnFrom_of_signs (by decide)

end Rules

/-! ### Documents -/

section Documents

variable {s t : Text}

theorem DrawnFrom.cleanUp (h : DrawnFrom s t) (o : LayoutOptions) : DrawnFrom s (cleanUp o t) := by
  have htrimmed : DrawnFrom s (if o.trimLines then GrammarText.joinLines ((splitLines t).map rstrip) else t) := by
    split
    · rw [joinLines_map_rstrip]
      exact h.subset (trimBlanks_sublist true t).subset
    · exact h
  unfold GrammarText.cleanUp
  generalize (if o.trimLines then GrammarText.joinLines ((splitLines t).map rstrip) else t) = u at htrimmed ⊢
  show DrawnFrom s (if _ then u ++ ['\n'] else u)
  split
  · exact htrimmed.append (drawnFrom_of_signs (by decide))
  · exact htrimmed

theorem drawnFrom_squeezeGaps (t : Text) : DrawnFrom t (squeezeGaps t) := by
  have hspace : ' ' ∈ t ∨ ' ' ∈ layoutSigns := by
    right
    decide
  exact (thin_squeezeGaps t).forall (fun _ hc => .inl hc) fun _ => hspace

theorem drawnFrom_normalizeWhitespace (t : Text) : DrawnFrom t (normalizeWhitespace t) := by
  apply (drawnFrom_squeezeGaps t).subset
  unfold normalizeWhitespace strip lstrip
  exact List.Subset.trans (isPrefix_rstrip _).subset (List.dropWhile_subset _)

/-- A formatted text is made of the characters of the document and the signs that a layout writes. -/
theorem drawnFrom_formatDocument (o : LayoutOptions) (source : Text) :
    DrawnFrom source (formatDocument o source).text := by
  unfold formatDocument
  split
  · exact (drawnFrom_normalizeWhitespace source).cleanUp o
  · split
    · apply DrawnFrom.cleanUp
      apply DrawnFrom.joinSpaced
      intro t ht
      obtain ⟨r, hr, rfl⟩ := List.mem_map.1 ht
      have hrule := drawnFrom_renderRule hr o
      rwa [spelling_scan] at hrule
    · exact drawnFrom_of_subset (List.Subset.refl source)

theorem return_not_mem_formatDocument (o : LayoutOptions) {source : Text} (h : '\r' ∉ source) :
    '\r' ∉ (formatDocument o source).text := by
  intro hmem
  rcases drawnFrom_formatDocument o source '\r' hmem with hc | hc
  · exact h hc
  · revert hc
    decide

end Documents

end GrammarText
