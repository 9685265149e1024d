import GrammarText.Layout.Document
import GrammarText.Proofs.Text.Lines
import Mathlib.Data.List.Basic

/-!
# Trimming line ends

Trimming is defined line by line. `trimBlanks` is the same as one pass over the text from its end
(`joinLines_map_rstrip`): a blank is dropped if only dropped blanks stand between it and the end of its
line. In this form trimming can be followed through the parts of a text (`trimBlanks_append`), and a
part that holds no blank before a line end is left alone (`Neat`).
-/

namespace GrammarText

/-! ### Trimming one line -/

theorem isPrefix_rstrip (t : Text) : rstrip t <+: t := by
  induction t with
  | nil => exact List.prefix_rfl
  | cons c r ih =>
    rw [rstrip_cons]
    split
    · exact List.nil_prefix
    · exact List.cons_prefix_cons.2 ⟨rfl, ih⟩

/-- What is left ends in no blank. -/
theorem getLast?_rstrip (t : Text) : ∀ c ∈ (rstrip t).getLast?, isBlank c = false := by
  induction t with
  | nil => simp
  | cons c r ih =>
    rw [rstrip_cons]
    split
    · simp
    · rename_i h
      cases hr : rstrip r with
      | nil => simpa [hr] using h
      | cons d s =>
        rw [List.getLast?_cons_cons, ← hr]
        exact ih

@[simp] theorem rstrip_rstrip (t : Text) : rstrip (rstrip t) = rstrip t :=
  rstrip_eq_self_iff.2 (getLast?_rstrip t)

theorem rstrip_append_blank {b : Text} (hb : ∀ x ∈ b, isBlank x = true) (t : Text) : rstrip (t ++ b) = rstrip t := by
  induction t with
  | nil =>
    rw [List.nil_append, rstrip_nil]
    induction b with
    | nil => rfl
    | cons c b ih =>
      have hr := ih fun x hx => hb x (List.mem_cons_of_mem _ hx)
      rw [rstrip_cons, if_pos ⟨hr, hb c List.mem_cons_self⟩]
  | cons c t ih => rw [List.cons_append, rstrip_cons, rstrip_cons, ih]

theorem lstrip_append {x : Text} (hx : ∀ y ∈ x, isBlank y = true) (s : Text) : lstrip (x ++ s) = lstrip s :=
  List.dropWhile_append_of_pos hx

theorem head?_lstrip (t : Text) : ∀ c ∈ (lstrip t).head?, isBlank c = false := by
  intro c hc
  have h := List.head?_dropWhile_not isBlank t
  rw [show (t.dropWhile isBlank).head? = some c from hc] at h
  exact h

/-! ### Trimming all lines in one pass -/

/-- Whether a text begins with the end of a line; the empty one does if `atEnd`. -/
def endsLine (atEnd : Bool) : Text → Bool
  | [] => atEnd
  | c :: _ => c == '\n'

/-- The text without the blanks before its line ends. Its own end is a line end if `atEnd`. -/
def trimBlanks (atEnd : Bool) : Text → Text
  | [] => []
  | c :: r =>
    let rest := trimBlanks atEnd r
    if isBlank c && c != '\n' && endsLine atEnd rest then rest else c :: rest

@[simp] theorem trimBlanks_nil (e : Bool) : trimBlanks e [] = [] := rfl

theorem trimBlanks_cons_drop {e : Bool} {c : Char} {r : Text} (hb : isBlank c = true) (hc : c ≠ '\n')
    (he : endsLine e (trimBlanks e r) = true) : trimBlanks e (c :: r) = trimBlanks e r := by
  simp [trimBlanks, hb, hc, he]

theorem trimBlanks_cons_keep {e : Bool} {c : Char} {r : Text}
    (h : isBlank c = false ∨ c = '\n' ∨ endsLine e (trimBlanks e r) = false) :
    trimBlanks e (c :: r) = c :: trimBlanks e r := by
  rcases h with h | h | h <;> simp [trimBlanks, h]

/-- Each character is dropped or kept. -/
theorem trimBlanks_cons (e : Bool) (c : Char) (r : Text) :
    (isBlank c = true ∧ c ≠ '\n' ∧ endsLine e (trimBlanks e r) = true ∧ trimBlanks e (c :: r) = trimBlanks e r) ∨
    ((isBlank c = false ∨ c = '\n' ∨ endsLine e (trimBlanks e r) = false) ∧
      trimBlanks e (c :: r) = c :: trimBlanks e r) := by
  cases hb : isBlank c with
  | false => exact .inr ⟨.inl rfl, trimBlanks_cons_keep (.inl hb)⟩
  | true =>
    by_cases hc : c = '\n'
    · exact .inr ⟨.inr (.inl hc), trimBlanks_cons_keep (.inr (.inl hc))⟩
    · cases he : endsLine e (trimBlanks e r) with
      | false => exact .inr ⟨.inr (.inr rfl), trimBlanks_cons_keep (.inr (.inr he))⟩
      | true => exact .inl ⟨rfl, hc, rfl, trimBlanks_cons_drop hb hc he⟩

theorem endsLine_append (e : Bool) (s t : Text) : endsLine e (s ++ t) = endsLine (endsLine e t) s := by
  cases s <;> rfl

/-- Of two parts the first sees of the second only whether it begins with a line end. -/
theorem trimBlanks_append (e : Bool) (s t : Text) :
    trimBlanks e (s ++ t) = trimBlanks (endsLine e (trimBlanks e t)) s ++ trimBlanks e t := by
  induction s with
  | nil => rfl
  | cons c r ih =>
    rw [List.cons_append, trimBlanks, trimBlanks, ih, endsLine_append]
    split <;> rfl

theorem trimBlanks_sublist (e : Bool) (t : Text) : (trimBlanks e t).Sublist t := by
  induction t with
  | nil => exact List.Sublist.refl _
  | cons c r ih =>
    obtain ⟨-, -, -, h⟩ | ⟨-, h⟩ := trimBlanks_cons e c r
    · rw [h]
      exact ih.cons c
    · rw [h]
      exact ih.cons_cons c

/-- A second pass finds nothing to drop. -/
theorem trimBlanks_trimBlanks (e : Bool) (t : Text) : trimBlanks e (trimBlanks e t) = trimBlanks e t := by
  induction t with
  | nil => rfl
  | cons c r ih =>
    obtain ⟨-, -, -, h⟩ | ⟨hk, h⟩ := trimBlanks_cons e c r
    · rw [h, ih]
    · rw [h, trimBlanks_cons_keep (by rwa [ih]), ih]

/-- The last character of a text is kept if it is no blank. -/
theorem getLast?_trimBlanks {t : Text} (e : Bool) (h : ∀ c ∈ t.getLast?, isBlank c = false) :
    (trimBlanks e t).getLast? = t.getLast? := by
  induction t with
  | nil => rfl
  | cons c r ih =>
    cases r with
    | nil => rw [trimBlanks_cons_keep (.inl (h c rfl)), trimBlanks_nil]
    | cons d r =>
      have ih' := ih (by simpa using h)
      rw [List.getLast?_cons_cons]
      obtain ⟨-, -, -, heq⟩ | ⟨-, heq⟩ := trimBlanks_cons e c (d :: r)
      · rw [heq, ih']
      · rw [heq]
        cases ht : trimBlanks e (d :: r) with
        | nil =>
          rw [ht] at ih'
          cases hlast : (d :: r).getLast? with
          | none => simp at hlast
          | some => rw [hlast] at ih'; cases ih'
        | cons x z => rw [List.getLast?_cons_cons, ← ht, ih']

/-- Trimming line by line is one pass over the text. -/
theorem joinLines_map_rstrip (t : Text) : joinLines ((splitLines t).map rstrip) = trimBlanks true t := by
  induction t with
  | nil => rfl
  | cons c r ih =>
    obtain ⟨l, ls, hl⟩ := List.exists_cons_of_ne_nil (splitLines_ne_nil r)
    rw [splitLines_cons]
    split
    · rename_i hc
      subst hc
      rw [List.map_cons, joinLines_cons _ (by simpa using splitLines_ne_nil r), ih,
        trimBlanks_cons_keep (.inr (.inl rfl))]
      rfl
    · rename_i hc
      -- the line that `c` stands in is empty after trimming exactly if the rest begins with a line end
      have hends : endsLine true (trimBlanks true r) = (rstrip l).isEmpty := by
        rw [← ih, hl, List.map_cons]
        cases hs : rstrip l with
        | nil => cases ls <;> simp [joinLines, endsLine]
        | cons d s =>
          have hd : d ≠ '\n' := by
            rintro rfl
            have hmem : '\n' ∈ l := (isPrefix_rstrip l).subset (by simp [hs])
            have hline : l ∈ splitLines r := hl ▸ List.mem_cons_self
            exact not_mem_of_mem_splitOn hline hmem
          rw [show (d :: s) = [d] ++ s from rfl, joinLines_cons_append]
          simpa [endsLine] using hd
      rw [hl, List.modifyHead_cons, List.map_cons, rstrip_cons]
      rw [hl, List.map_cons] at ih
      by_cases hdrop : rstrip l = [] ∧ isBlank c = true
      · rw [if_pos hdrop, trimBlanks_cons_drop hdrop.2 hc (by rw [hends, hdrop.1]; rfl), ← ih, hdrop.1]
      · have hkeep : isBlank c = false ∨ c = '\n' ∨ endsLine true (trimBlanks true r) = false := by
          cases hb : isBlank c with
          | false => exact .inl rfl
          | true =>
            refine .inr (.inr ?_)
            rw [hends]
            cases hs : rstrip l with
            | nil => exact absurd ⟨hs, hb⟩ hdrop
            | cons => rfl
        rw [if_neg hdrop, trimBlanks_cons_keep hkeep, ← ih]
        exact joinLines_cons_append [c] _ _

/-! ### Texts that trimming leaves alone -/

/-- Whether a blank other than a line feed stands directly before a line feed. -/
def blankAtLineEnd : Text → Bool
  | c :: d :: r => (isBlank c && c != '\n' && d == '\n') || blankAtLineEnd (d :: r)
  | _ => false

/-- A text that trimming leaves alone, whatever follows it. -/
def Neat (t : Text) : Prop :=
  ∀ e, trimBlanks e t = t

theorem neat_of_blankAtLineEnd {t : Text} (h : blankAtLineEnd t = false)
    (hl : ∀ c ∈ t.getLast?, isBlank c = false) : Neat t := by
  intro e
  induction t with
  | nil => rfl
  | cons c r ih =>
    cases r with
    | nil => exact trimBlanks_cons_keep (.inl (hl c rfl))
    | cons d s =>
      simp only [blankAtLineEnd, Bool.or_eq_false_iff] at h
      have ih' := ih h.2 (by simpa using hl)
      have hkeep : isBlank c = false ∨ c = '\n' ∨ endsLine e (trimBlanks e (d :: s)) = false := by
        rw [ih']
        simp only [Bool.and_eq_false_iff, bne_eq_false_iff_eq, or_assoc] at h
        exact h.1
      rw [trimBlanks_cons_keep hkeep, ih']

theorem Neat.append {s t : Text} (hs : Neat s) (ht : Neat t) : Neat (s ++ t) := by
  intro e
  rw [trimBlanks_append, ht, hs]

theorem neat_of_forall {t : Text} (h : ∀ c ∈ t, isBlank c = false) : Neat t := by
  intro e
  induction t with
  | nil => rfl
  | cons c r ih =>
    rw [trimBlanks_cons_keep (.inl (h c List.mem_cons_self)), ih fun d hd => h d (List.mem_cons_of_mem _ hd)]

theorem neat_flatMap {α : Type} {f : α → Text} {l : List α} (h : ∀ x ∈ l, Neat (f x)) : Neat (l.flatMap f) := by
  induction l with
  | nil => exact fun e => rfl
  | cons x l ih =>
    rw [List.flatMap_cons]
    exact (h x List.mem_cons_self).append (ih fun y hy => h y (List.mem_cons_of_mem _ hy))

theorem blankAtLineEnd_of_isPrefix {s t : Text} (hp : s <+: t) (h : blankAtLineEnd t = false) :
    blankAtLineEnd s = false := by
  induction s generalizing t with
  | nil => rfl
  | cons c r ih =>
    obtain ⟨z, rfl⟩ := hp
    cases r with
    | nil => rfl
    | cons d s =>
      simp only [List.cons_append, blankAtLineEnd, Bool.or_eq_false_iff] at h ⊢
      exact ⟨h.1, ih (List.prefix_append (d :: s) z) h.2⟩

end GrammarText
