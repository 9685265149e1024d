import GrammarText.Text.Lines
import Mathlib.Data.List.Forall2

/-!
# Cutting and joining

What stands in a joined text stands in one of its parts or between two of them (`mem_intercalate`); the parts of a text
that was cut do not hold the sign at which it was cut (`not_mem_of_mem_splitOn`). Lines and words are the parts that a
line feed and a space separate.
-/

namespace GrammarText

/-! ### Separated lists -/

section Intercalate

variable {α β : Type}

theorem mem_intercalate {sep : List α} {ls : List (List α)} {x : α} (h : x ∈ sep.intercalate ls) :
    x ∈ sep ∨ ∃ l ∈ ls, x ∈ l := by
  induction ls with
  | nil => cases h
  | cons l ls ih =>
    cases ls with
    | nil => exact .inr ⟨l, List.mem_cons_self, by simpa using h⟩
    | cons l' ls =>
      rw [List.intercalate_cons_cons, List.append_assoc, List.mem_append, List.mem_append] at h
      rcases h with h | h | h
      · exact .inr ⟨l, List.mem_cons_self, h⟩
      · exact .inl h
      · obtain h | ⟨l'', hl'', hx⟩ := ih h
        · exact .inl h
        · exact .inr ⟨l'', List.mem_cons_of_mem _ hl'', hx⟩

theorem map_intercalate (f : α → β) (sep : List α) (ls : List (List α)) :
    (sep.intercalate ls).map f = (sep.map f).intercalate (ls.map (List.map f)) := by
  induction ls with
  | nil => rfl
  | cons l ls ih =>
    cases ls with
    | nil => simp
    | cons l' ls =>
      rw [List.intercalate_cons_cons, List.map_append, List.map_append, ih, List.map_cons, List.map_cons,
        List.map_cons, List.intercalate_cons_cons]

theorem flatten_intercalate (sep : List (List α)) (ls : List (List (List α))) :
    (sep.intercalate ls).flatten = sep.flatten.intercalate (ls.map List.flatten) := by
  induction ls with
  | nil => rfl
  | cons l ls ih =>
    cases ls with
    | nil => simp
    | cons l' ls =>
      rw [List.intercalate_cons_cons, List.flatten_append, List.flatten_append, ih, List.map_cons, List.map_cons,
        List.map_cons, List.intercalate_cons_cons]

/-- Related lists with related separators. -/
theorem forall₂_intersperse {R : α → β → Prop} {a : α} {b : β} (hs : R a b) {xs : List α} {ys : List β}
    (h : List.Forall₂ R xs ys) : List.Forall₂ R (xs.intersperse a) (ys.intersperse b) := by
  induction h with
  | nil => exact .nil
  | @cons x y xs ys hxy h ih =>
    cases h with
    | nil => exact .cons hxy .nil
    | cons => exact .cons hxy (.cons hs ih)

end Intercalate

/-! ### Cutting -/

theorem not_mem_of_mem_splitOn {x : Char} {t l : Text} (h : l ∈ t.splitOn x) : x ∉ l := by
  induction t generalizing l with
  | nil =>
    obtain rfl : l = [] := by simpa using h
    exact List.not_mem_nil
  | cons c r ih =>
    rw [List.splitOn_cons_eq_if_modifyHead] at h
    split at h
    · rcases List.mem_cons.1 h with rfl | h
      · exact List.not_mem_nil
      · exact ih h
    · rename_i hc
      obtain ⟨l', ls, hl⟩ := List.exists_cons_of_ne_nil (List.splitOn_ne_nil x r)
      rw [hl] at h ih
      rcases List.mem_cons.1 h with rfl | h
      · have hne : x ≠ c := fun heq => hc (beq_iff_eq.2 heq.symm)
        exact List.not_mem_cons_of_ne_of_not_mem hne (ih List.mem_cons_self)
      · exact ih (List.mem_cons_of_mem _ h)

theorem splitLines_cons (c : Char) (r : Text) :
    splitLines (c :: r) = if c = '\n' then [] :: splitLines r else (splitLines r).modifyHead (c :: ·) := by
  rw [splitLines, List.splitOn, List.splitOnP_cons_eq_if_modifyHead]
  by_cases h : c = '\n'
  · rw [if_pos (by simpa using h), if_pos h]
    rfl
  · rw [if_neg (by simpa using h), if_neg h]
    rfl

theorem splitLines_ne_nil (t : Text) : splitLines t ≠ [] :=
  List.splitOnP_ne_nil _ _

/-! ### Lines and words -/

theorem joinLines_cons (l : Text) {ls : List Text} (h : ls ≠ []) : joinLines (l :: ls) = l ++ '\n' :: joinLines ls := by
  obtain ⟨l', ls', rfl⟩ := List.exists_cons_of_ne_nil h
  simp [joinLines]

theorem joinLines_cons_append (s l : Text) (ls : List Text) : joinLines ((s ++ l) :: ls) = s ++ joinLines (l :: ls) := by
  cases ls <;> simp [joinLines]

theorem mem_joinLines {c : Char} {ls : List Text} (h : c ∈ joinLines ls) : c = '\n' ∨ ∃ l ∈ ls, c ∈ l := by
  simpa using mem_intercalate h

theorem mem_joinWords {c : Char} {ws : List Text} (h : c ∈ joinWords ws) : c = ' ' ∨ ∃ w ∈ ws, c ∈ w := by
  simpa using mem_intercalate h

end GrammarText
