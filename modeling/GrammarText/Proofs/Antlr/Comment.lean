import GrammarText.Antlr.Convert
import GrammarText.Proofs.Scan.Lexeme
import Mathlib.Data.List.Infix

/-!
# Texts in block comments

A text that does not hold the mark that ends a block comment can be written as one: what comes out is a
single comment (`lexeme_blockComment`). Parts of a document that are put together stay such a text as long
as no mark arises where they meet (`Enclosable.append`).
-/

namespace GrammarText.Antlr

/-- A text that a block comment can hold. -/
def Enclosable (t : Text) : Prop :=
  ¬['*', ')'] <:+: t

instance (t : Text) : Decidable (Enclosable t) :=
  inferInstanceAs (Decidable (¬['*', ')'] <:+: t))

section Comments

variable {s t : Text}

/-- A pair of characters in a text of two parts is in one of them or where they meet. -/
theorem pair_infix_append {x y : Char} (h : [x, y] <:+: s ++ t) :
    [x, y] <:+: s ∨ [x, y] <:+: t ∨ (s.getLast? = some x ∧ t.head? = some y) := by
  induction s with
  | nil => exact .inr (.inl h)
  | cons c s ih =>
    rw [List.cons_append, List.infix_cons_iff] at h
    rcases h with hfirst | hi
    · obtain ⟨rfl, hnext⟩ := List.cons_prefix_cons.1 hfirst
      cases s with
      | nil =>
        obtain ⟨z, rfl⟩ : [y] <+: t := hnext
        exact .inr (.inr ⟨rfl, rfl⟩)
      | cons d s =>
        obtain ⟨rfl, -⟩ := List.cons_prefix_cons.1 hnext
        exact .inl ⟨[], s, rfl⟩
    · rcases ih hi with hs | ht | ⟨hs, ht⟩
      · exact .inl (List.infix_cons_iff.2 (.inr hs))
      · exact .inr (.inl ht)
      · refine .inr (.inr ⟨?_, ht⟩)
        cases s with
        | nil => cases hs
        | cons d s => rw [List.getLast?_cons_cons, hs]

theorem Enclosable.append (hs : Enclosable s) (ht : Enclosable t)
    (h : s.getLast? ≠ some '*' ∨ t.head? ≠ some ')') : Enclosable (s ++ t) := by
  intro hi
  rcases pair_infix_append hi with hi | hi | ⟨h1, h2⟩
  · exact hs hi
  · exact ht hi
  · exact h.elim (fun h => h h1) (fun h => h h2)

theorem enclosable_slashed (h : Enclosable t) : Enclosable (slashed t) := by
  have hc : ∀ c x : Char, x ≠ '/' → (if c == '\\' then '/' else c) = x → c = x := by
    intro c x hx he
    split at he
    · exact absurd he.symm hx
    · exact he
  intro hi
  obtain ⟨l, hl, heq⟩ := List.infix_map_iff.1 hi
  obtain ⟨c, r, rfl⟩ := List.exists_cons_of_ne_nil (l := l) (by rintro rfl; simp at heq)
  obtain ⟨d, r', rfl⟩ := List.exists_cons_of_ne_nil (l := r) (by rintro rfl; simp at heq)
  simp only [List.map_cons, List.cons.injEq] at heq
  obtain rfl := hc c '*' (by decide) heq.1.symm
  obtain rfl := hc d ')' (by decide) heq.2.1.symm
  obtain rfl : r' = [] := List.map_eq_nil_iff.1 heq.2.2.symm
  exact h hl

/-- Texts that a comment can hold, with a separator that begins and ends harmlessly. -/
theorem enclosable_intercalate {sep : Text} {ls : List Text} (hsep : Enclosable sep)
    (h1 : sep.head? ≠ some ')') (h2 : sep.getLast? ≠ some '*') (h3 : sep ≠ []) (hl : ∀ l ∈ ls, Enclosable l) :
    Enclosable (sep.intercalate ls) := by
  induction ls with
  | nil => simp [Enclosable]
  | cons l ls ih =>
    have hrest := ih fun l' hl' => hl l' (List.mem_cons_of_mem _ hl')
    cases ls with
    | nil => simpa using hl l List.mem_cons_self
    | cons l' ls =>
      rw [List.intercalate_cons_cons]
      have hboth := (hl l List.mem_cons_self).append hsep (.inr h1)
      refine hboth.append hrest (.inl ?_)
      rw [List.getLast?_append_of_ne_nil _ h3]
      exact h2

theorem closesAtEnd_block (st : BlockState) (hst : st ≠ .closed) (hh : st = .half → t.head? ≠ some ')')
    (h : Enclosable t) : closesAtEnd (BlockState.step '*' ')') (· == .closed) st (t ++ ['*', ')']) = true := by
  induction t generalizing st with
  | nil =>
    cases st with
    | closed => exact absurd rfl hst
    | _ => decide
  | cons c t ih =>
    have ht : Enclosable t := fun hi => h (List.infix_cons_iff.2 (.inr hi))
    have hstar : c = '*' → t.head? ≠ some ')' := by
      rintro rfl hd
      obtain ⟨r, rfl⟩ := List.head?_eq_some_iff.1 hd
      exact h ⟨[], r, rfl⟩
    rw [List.cons_append, closesAtEnd]
    have hnext : BlockState.step '*' ')' st c = if c == '*' then .half else .inside := by
      cases st with
      | closed => exact absurd rfl hst
      | inside => rfl
      | half =>
        have hc : (c == ')') = false := by simpa using hh rfl
        simp [BlockState.step, hc]
    rw [hnext]
    by_cases hc : c = '*'
    · simpa [hc] using ih .half (by decide) (fun _ => hstar hc) ht
    · simpa [hc] using ih .inside (by decide) (by simp) ht

theorem lexeme_blockComment (h : Enclosable t) : Lexeme .ebnf .comment (blockComment t) := by
  have hpad : Enclosable ([' '] ++ t ++ [' ']) :=
    (Enclosable.append (by decide) h (.inl (by decide))).append (by decide) (.inr (by decide))
  have hclose := closesAtEnd_block .inside (by decide) (by simp) hpad
  have htext : blockComment t = '(' :: '*' :: ([' '] ++ t ++ [' '] ++ ['*', ')']) := by
    simp [blockComment]
  rw [htext]
  exact .starred rfl hclose

end Comments

end GrammarText.Antlr
