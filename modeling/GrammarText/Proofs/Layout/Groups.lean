import GrammarText.Layout.Words
import GrammarText.Proofs.Rule.Body
import Mathlib.Data.List.Chain

/-!
# Words as groups of tokens

A layout forgets which tokens a word is made of. `wordGroups` keeps them: it cuts a sequence of tokens
at the same places as `wordLines` (`wordLines_eq`), loses nothing (`flatten_wordGroups`), and puts
tokens into one group only where no space belongs between them (`wordGroups_spec`).
-/

namespace GrammarText

/-- The token as a layout writes it: a comment loses the blanks at its end. -/
def Token.tidy (t : Token) : Token :=
  if t.kind = .comment then { t with text := rstrip t.text } else t

@[simp] theorem Token.kind_tidy (t : Token) : t.tidy.kind = t.kind := by
  unfold Token.tidy
  split <;> rfl

theorem Token.tidy_of_not_comment {t : Token} (h : t.kind ≠ .comment) : t.tidy = t :=
  if_neg h

theorem Token.tidy_of_comment {t : Token} (h : t.kind = .comment) : t.tidy = { t with text := rstrip t.text } :=
  if_pos h

@[simp] theorem Token.isOp_tidy (t : Token) (s : Text) : t.tidy.isOp s = t.isOp s := by
  by_cases h : t.kind = .comment
  · rw [isOp_eq_false (by simp [h]), isOp_eq_false (by simp [h])]
  · rw [Token.tidy_of_not_comment h]

/-- The lines of tokens that hold no whitespace, each line as the groups that make its words. -/
def wordGroups : List Token → List (List (List Token))
  | [] => []
  | [t] => [[[t]]]
  | t :: u :: ts =>
    let lines := wordGroups (u :: ts)
    if t.kind = .comment ∨ u.kind = .comment then [[t]] :: lines
    else if needsSpace (some t) u then lines.modifyHead ([t] :: ·)
    else lines.modifyHead (List.modifyHead (t :: ·))

/-- The first group begins with the first token. -/
theorem wordGroups_cons (t : Token) (ts : List Token) :
    ∃ g l ls, wordGroups (t :: ts) = ((t :: g) :: l) :: ls := by
  induction ts generalizing t with
  | nil => exact ⟨[], [], [], rfl⟩
  | cons u ts ih =>
    obtain ⟨g, l, ls, h⟩ := ih u
    rw [wordGroups, h]
    split
    · exact ⟨[], [], _, rfl⟩
    split
    · exact ⟨[], (u :: g) :: l, ls, rfl⟩
    · exact ⟨u :: g, l, ls, rfl⟩

/-- Every token is in a group, and all stay in order. -/
theorem flatten_wordGroups (ts : List Token) : (wordGroups ts).flatten.flatten = ts := by
  fun_induction wordGroups ts with
  | case1 => rfl
  | case2 => rfl
  | case3 t u ts lines h ih => simp [lines, ih]
  | case4 t u ts lines h hs ih =>
    obtain ⟨g, l, ls, hl⟩ := wordGroups_cons u ts
    rw [hl] at ih
    simpa [lines, hl] using ih
  | case5 t u ts lines h hs ih =>
    obtain ⟨g, l, ls, hl⟩ := wordGroups_cons u ts
    rw [hl] at ih
    simpa [lines, hl] using ih

/-- What holds of a line of groups: none is empty, no space belongs inside a group, and a comment stands
alone in its line. -/
structure GroupLine (line : List (List Token)) : Prop where
  ne_nil : line ≠ []
  groups : ∀ g ∈ line, g ≠ [] ∧ g.IsChain fun t u => needsSpace (some t) u = false
  alone : ∀ g ∈ line, ∀ t ∈ g, t.kind = .comment → line = [[t]]

theorem groupLine_singleton (t : Token) : GroupLine [[t]] where
  ne_nil := List.cons_ne_nil _ _
  groups := by simp
  alone := by simp

theorem wordGroups_spec (ts : List Token) : ∀ line ∈ wordGroups ts, GroupLine line := by
  fun_induction wordGroups ts with
  | case1 => simp
  | case2 t =>
    intro line h
    obtain rfl := List.mem_singleton.1 h
    exact groupLine_singleton t
  | case3 t u ts lines hc ih =>
    intro line h
    rcases List.mem_cons.1 h with rfl | h
    · exact groupLine_singleton t
    · exact ih line h
  | case4 t u ts lines hc hs ih =>
    intro line h
    obtain ⟨g, l, ls, hl⟩ := wordGroups_cons u ts
    simp only [lines, hl, List.modifyHead_cons] at h ih
    rcases List.mem_cons.1 h with rfl | h
    · obtain ⟨-, hgroups, halone⟩ := ih _ List.mem_cons_self
      refine ⟨List.cons_ne_nil _ _, ?_, ?_⟩
      · intro g' hg'
        rcases List.mem_cons.1 hg' with rfl | hg'
        · simp
        · exact hgroups g' hg'
      · intro g' hg' t' ht' hk
        rcases List.mem_cons.1 hg' with rfl | hg'
        · obtain rfl := List.mem_singleton.1 ht'
          exact absurd (.inl hk) hc
        · -- a comment in the line would be its first token
          have hline := halone g' hg' t' ht' hk
          simp only [List.cons.injEq] at hline
          exact absurd (.inr (hline.1.1 ▸ hk)) hc
    · exact ih line (List.mem_cons_of_mem _ h)
  | case5 t u ts lines hc hs ih =>
    intro line h
    obtain ⟨g, l, ls, hl⟩ := wordGroups_cons u ts
    simp only [lines, hl, List.modifyHead_cons] at h ih
    rcases List.mem_cons.1 h with rfl | h
    · obtain ⟨-, hgroups, halone⟩ := ih _ List.mem_cons_self
      have hno : ∀ g' ∈ (u :: g) :: l, ∀ t' ∈ g', t'.kind ≠ .comment := by
        intro g' hg' t' ht' hk
        have hline := halone g' hg' t' ht' hk
        simp only [List.cons.injEq] at hline
        exact hc (.inr (hline.1.1 ▸ hk))
      refine ⟨List.cons_ne_nil _ _, ?_, ?_⟩
      · intro g' hg'
        rcases List.mem_cons.1 hg' with rfl | hg'
        · refine ⟨List.cons_ne_nil _ _, .cons_cons (by simpa using hs) ?_⟩
          exact (hgroups _ List.mem_cons_self).2
        · exact hgroups g' (List.mem_cons_of_mem _ hg')
      · intro g' hg' t' ht' hk
        rcases List.mem_cons.1 hg' with rfl | hg'
        · rcases List.mem_cons.1 ht' with rfl | ht'
          · exact absurd (.inl hk) hc
          · exact absurd hk (hno _ List.mem_cons_self t' ht')
        · exact absurd hk (hno g' (List.mem_cons_of_mem _ hg') t' ht')
    · exact ih line (List.mem_cons_of_mem _ h)

/-- Words are spelled by groups. -/
theorem wordLines_eq (ts : List Token) :
    wordLines ts = (wordGroups (ts.map Token.tidy)).map (List.map spelling) := by
  fun_induction wordLines ts with
  | case1 => rfl
  | case2 t =>
    by_cases h : t.kind = .comment
    · simp [wordGroups, spelling, h, Token.tidy_of_comment h]
    · simp [wordGroups, spelling, h, Token.tidy_of_not_comment h]
  | case3 t u ts lines ht ih =>
    have ht' := beq_iff_eq.1 ht
    simp only [List.map_cons] at ih ⊢
    rw [wordGroups, if_pos (.inl (by simpa using ht')), List.map_cons, ← ih, Token.tidy_of_comment ht']
    simp [spelling, lines]
  | case4 t u ts lines ht hu ih =>
    have hu' := beq_iff_eq.1 hu
    simp only [List.map_cons] at ih ⊢
    rw [wordGroups, if_pos (.inr (by simpa using hu')), List.map_cons, ← ih,
      Token.tidy_of_not_comment (by simpa using ht)]
    simp [spelling, lines]
  | case5 t u ts lines ht hu hs ih =>
    have ht' : t.kind ≠ .comment := by simpa using ht
    have hu' : u.kind ≠ .comment := by simpa using hu
    obtain ⟨g, l, ls, hl⟩ := wordGroups_cons u (ts.map Token.tidy)
    simp only [List.map_cons, Token.tidy_of_not_comment hu'] at ih ⊢
    rw [Token.tidy_of_not_comment ht', wordGroups, if_neg (by simp [ht', hu']), if_pos hs, hl]
    simp [lines, ih, hl, spelling]
  | case6 t u ts lines ht hu hs ih =>
    have ht' : t.kind ≠ .comment := by simpa using ht
    have hu' : u.kind ≠ .comment := by simpa using hu
    obtain ⟨g, l, ls, hl⟩ := wordGroups_cons u (ts.map Token.tidy)
    simp only [List.map_cons, Token.tidy_of_not_comment hu'] at ih ⊢
    rw [Token.tidy_of_not_comment ht', wordGroups, if_neg (by simp [ht', hu']), if_neg hs, hl]
    simp [lines, ih, hl, spelling]

/-- The lines of a layout, spelled by the groups of its tokens. -/
theorem layoutLines_eq (ts : List Token) :
    layoutLines ts = (wordGroups ((dense ts).map Token.tidy)).map (List.map spelling) :=
  wordLines_eq (dense ts)

theorem ne_nil_of_mem_layoutLines {ts : List Token} {l : List Text} (h : l ∈ layoutLines ts) : l ≠ [] := by
  rw [layoutLines_eq] at h
  obtain ⟨line, hline, rfl⟩ := List.mem_map.1 h
  simpa using (wordGroups_spec _ line hline).ne_nil

end GrammarText
