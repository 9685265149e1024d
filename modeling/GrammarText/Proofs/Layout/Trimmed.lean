import GrammarText.Proofs.Layout.Trim
import Mathlib.Data.List.TakeWhile

/-!
# Texts that differ in trailing blanks

Two texts that trimming makes equal whatever follows them (`SameTrimmed`) can take each other's place in any
text that is trimmed in the end: the relation passes to concatenations (`SameTrimmed.append`), to joined
lines and words (`sameTrimmed_intercalate`), and to texts whose end is trimmed early (`sameTrimmed_rstrip`).
Normalizing whitespace may as well come after trimming as before it (`trimBlanks_normalizeWhitespace`).
-/

namespace GrammarText

/-- Texts that differ only in blanks that trimming drops, whether a line end follows or not. -/
def SameTrimmed (s t : Text) : Prop :=
  ∀ e, trimBlanks e s = trimBlanks e t

section SameTrimmed

variable {s t u s' t' : Text}

theorem SameTrimmed.refl (s : Text) : SameTrimmed s s :=
  fun _ => rfl

theorem SameTrimmed.symm (h : SameTrimmed s t) : SameTrimmed t s :=
  fun e => (h e).symm

theorem SameTrimmed.trans (h : SameTrimmed s t) (h' : SameTrimmed t u) : SameTrimmed s u :=
  fun e => (h e).trans (h' e)

theorem SameTrimmed.append (hs : SameTrimmed s s') (ht : SameTrimmed t t') : SameTrimmed (s ++ t) (s' ++ t') := by
  intro e
  rw [trimBlanks_append, trimBlanks_append, ht e, hs]

theorem sameTrimmed_flatten {xs ys : List Text} (h : List.Forall₂ SameTrimmed xs ys) :
    SameTrimmed xs.flatten ys.flatten := by
  induction h with
  | nil => exact .refl []
  | cons hxy _ ih => exact hxy.append ih

/-- Texts with the same text between each two. -/
theorem sameTrimmed_intercalate (sep : Text) {xs ys : List Text} (h : List.Forall₂ SameTrimmed xs ys) :
    SameTrimmed (sep.intercalate xs) (sep.intercalate ys) :=
  sameTrimmed_flatten (forall₂_intersperse (.refl sep) h)

end SameTrimmed

/-! ### The ends of a text -/

section Ends

variable {s t : Text}

/-- A text that ends in no blank is trimmed the same way whether a line end follows or not. -/
theorem trimBlanks_of_getLast? (h : ∀ c ∈ t.getLast?, isBlank c = false) (e e' : Bool) :
    trimBlanks e t = trimBlanks e' t := by
  induction t with
  | nil => rfl
  | cons c r ih =>
    cases r with
    | nil => rw [trimBlanks_cons_keep (.inl (h c rfl)), trimBlanks_cons_keep (.inl (h c rfl)), trimBlanks_nil,
        trimBlanks_nil]
    | cons d r =>
      have hr : ∀ c ∈ (d :: r).getLast?, isBlank c = false := by simpa using h
      have hne : trimBlanks e' (d :: r) ≠ [] := by
        intro hnil
        have hlast := getLast?_trimBlanks e' hr
        rw [hnil] at hlast
        exact absurd hlast.symm (by simp)
      obtain ⟨x, z, hx⟩ := List.exists_cons_of_ne_nil hne
      have hcons : ∀ e, trimBlanks e (c :: d :: r) =
          if isBlank c && c != '\n' && endsLine e (trimBlanks e (d :: r)) then trimBlanks e (d :: r)
          else c :: trimBlanks e (d :: r) := fun _ => rfl
      rw [hcons, hcons, ih hr, hx]
      rfl

/-- What the end of a text loses is blank. -/
theorem exists_rstrip_append (t : Text) : ∃ b, t = rstrip t ++ b ∧ ∀ x ∈ b, isBlank x = true := by
  induction t with
  | nil => exact ⟨[], rfl, by simp⟩
  | cons c r ih =>
    obtain ⟨b, hr, hb⟩ := ih
    rw [rstrip_cons]
    split
    · rename_i h
      rw [h.1, List.nil_append] at hr
      refine ⟨c :: r, rfl, fun x hx => ?_⟩
      rcases List.mem_cons.1 hx with rfl | hx
      · exact h.2
      · exact hb x (hr ▸ hx)
    · exact ⟨b, congrArg (c :: ·) hr, hb⟩

/-- Trimming the end first and the lines then is the same as the other way round. -/
theorem trimBlanks_rstrip (e : Bool) (t : Text) : trimBlanks e (rstrip t) = rstrip (trimBlanks true t) := by
  obtain ⟨b, ht, hb⟩ := exists_rstrip_append t
  have hlast := getLast?_rstrip t
  have hkeep : rstrip (trimBlanks e (rstrip t)) = trimBlanks e (rstrip t) := by
    rw [rstrip_eq_self_iff, getLast?_trimBlanks e hlast]
    exact hlast
  calc trimBlanks e (rstrip t)
      = rstrip (trimBlanks (endsLine true (trimBlanks true b)) (rstrip t)) := by
        rw [trimBlanks_of_getLast? hlast (endsLine true (trimBlanks true b)) e, hkeep]
    _ = rstrip (trimBlanks true (rstrip t ++ b)) := by
        rw [trimBlanks_append, rstrip_append_blank fun x hx => hb x ((trimBlanks_sublist true b).subset hx)]
    _ = rstrip (trimBlanks true t) := by rw [← ht]

theorem sameTrimmed_rstrip (h : trimBlanks true s = trimBlanks true t) : SameTrimmed (rstrip s) (rstrip t) := by
  intro e
  rw [trimBlanks_rstrip, trimBlanks_rstrip, h]

/-- The same holds of the beginning. -/
theorem trimBlanks_lstrip (e : Bool) (t : Text) : trimBlanks e (lstrip t) = lstrip (trimBlanks e t) := by
  have hsplit : t = t.takeWhile isBlank ++ lstrip t := List.takeWhile_append_dropWhile.symm
  have hblank : ∀ x ∈ t.takeWhile isBlank, isBlank x = true := fun x hx => List.mem_takeWhile_imp hx
  have hself : lstrip (trimBlanks e (lstrip t)) = trimBlanks e (lstrip t) := by
    cases h : lstrip t with
    | nil => rfl
    | cons c r =>
      have hc : isBlank c = false := head?_lstrip t c (by rw [h]; rfl)
      rw [trimBlanks_cons_keep (.inl hc), lstrip, List.dropWhile_cons_of_neg (by simp [hc])]
  conv => rhs; rw [hsplit, trimBlanks_append]
  rw [lstrip_append fun x hx => hblank x ((trimBlanks_sublist _ _).subset hx), hself]

end Ends

/-! ### Normalizing whitespace -/

section Normalize

variable {c : Char} {t : Text}

/-- A space or a tab. -/
def isGap (c : Char) : Bool :=
  c == ' ' || c == '\t'

theorem isBlank_of_isGap (h : isGap c = true) : isBlank c = true ∧ c ≠ '\n' := by
  simp only [isGap, Bool.or_eq_true, beq_iff_eq] at h
  rcases h with rfl | rfl <;> decide

/-- A space or tab is dropped before another or before a line feed. Otherwise a character is kept, a tab as a
space. -/
theorem squeezeGaps_cons (c : Char) (t : Text) :
    (isGap c = true ∧ (∃ d ∈ t.head?, isGap d = true ∨ d = '\n') ∧ squeezeGaps (c :: t) = squeezeGaps t) ∨
    ((isGap c = true → ∀ d ∈ t.head?, isGap d = false ∧ d ≠ '\n') ∧
      squeezeGaps (c :: t) = (if isGap c then ' ' else c) :: squeezeGaps t) := by
  cases t with
  | nil =>
    refine .inr ⟨by simp, ?_⟩
    by_cases hspace : c = ' '
    · simp [squeezeGaps, isGap, hspace]
    · by_cases htab : c = '\t' <;> simp [squeezeGaps, isGap, hspace, htab]
  | cons d r =>
    have hc : (c == ' ' || c == '\t') = isGap c := rfl
    have hd : (d == ' ' || d == '\t') = isGap d := rfl
    rw [squeezeGaps, hc, hd]
    cases hgap : isGap c with
    | false => exact .inr ⟨by simp, by simp⟩
    | true =>
      by_cases hnext : isGap d = true ∨ d = '\n'
      · exact .inl ⟨rfl, ⟨d, rfl, hnext⟩, by rcases hnext with h | h <;> simp [h]⟩
      · simp only [not_or, Bool.not_eq_true] at hnext
        exact .inr ⟨fun _ x hx => by
          obtain rfl : d = x := by simpa using hx
          exact hnext, by simp [hnext]⟩

/-- A text begins with a line end after trimming if it does so before, or if a blank stands in front of such a
text. -/
theorem endsLine_trimBlanks_cons (e : Bool) (c : Char) (t : Text) :
    endsLine e (trimBlanks e (c :: t)) = (c == '\n' || (isBlank c && endsLine e (trimBlanks e t))) := by
  obtain ⟨hb, hc, he, h⟩ | ⟨hkeep, h⟩ := trimBlanks_cons e c t
  · simp [h, hb, he]
  · rw [h]
    change (c == '\n') = _
    rcases hkeep with hk | hk | hk <;> simp [hk]

/-- Squeezing does not change whether only blanks stand before the next line end. -/
theorem endsLine_squeezeGaps (e : Bool) (t : Text) :
    endsLine e (trimBlanks e (squeezeGaps t)) = endsLine e (trimBlanks e t) := by
  induction t with
  | nil => rfl
  | cons c t ih =>
    rw [endsLine_trimBlanks_cons]
    obtain ⟨hc, -, h⟩ | ⟨-, h⟩ := squeezeGaps_cons c t
    · obtain ⟨hb, hn⟩ := isBlank_of_isGap hc
      rw [h, ih]
      simp [hb, hn]
    · rw [h, endsLine_trimBlanks_cons, ih]
      split
      · rename_i hc
        obtain ⟨hb, hn⟩ := isBlank_of_isGap hc
        have hspace : isBlank ' ' = true := rfl
        simp [hb, hn, hspace]
      · rfl

/-- Unless only blanks stand before the next line end, trimming keeps the first character. -/
theorem head?_trimBlanks {e : Bool} (h : endsLine e (trimBlanks e t) = false) : (trimBlanks e t).head? = t.head? := by
  cases t with
  | nil => rfl
  | cons c t =>
    obtain ⟨-, -, he, heq⟩ | ⟨-, heq⟩ := trimBlanks_cons e c t
    · rw [heq, he] at h
      cases h
    · rw [heq]
      rfl

/-- Squeezing and trimming can change places. -/
theorem trimBlanks_squeezeGaps (e : Bool) (t : Text) : trimBlanks e (squeezeGaps t) = squeezeGaps (trimBlanks e t) := by
  induction t with
  | nil => rfl
  | cons c t ih =>
    obtain ⟨hgap, ⟨d, hd, hnext⟩, hsq⟩ | ⟨hgap, hsq⟩ := squeezeGaps_cons c t
    · -- the character is dropped for the one behind it, if trimming leaves both
      rw [hsq, ih]
      obtain ⟨-, -, -, htr⟩ | ⟨hkeep, htr⟩ := trimBlanks_cons e c t
      · rw [htr]
      · obtain ⟨hb, hn⟩ := isBlank_of_isGap hgap
        have hends : endsLine e (trimBlanks e t) = false := by simpa [hb, hn] using hkeep
        rw [htr]
        obtain ⟨-, -, h⟩ | ⟨h, -⟩ := squeezeGaps_cons c (trimBlanks e t)
        · exact h.symm
        · obtain ⟨h1, h2⟩ := h hgap d (by rwa [head?_trimBlanks hends])
          simp [h1, h2] at hnext
    · rw [hsq]
      obtain ⟨hb, hn, hends, htr⟩ | ⟨hkeep, htr⟩ := trimBlanks_cons e c t
      · have hdrop : isBlank (if isGap c then ' ' else c) = true ∧ (if isGap c then ' ' else c) ≠ '\n' := by
          split
          · decide
          · exact ⟨hb, hn⟩
        rw [trimBlanks_cons_drop hdrop.1 hdrop.2 (by rw [endsLine_squeezeGaps, hends]), htr, ih]
      · have hends : isGap c = true → endsLine e (trimBlanks e t) = false := by
          intro hg
          obtain ⟨hb, hn⟩ := isBlank_of_isGap hg
          simpa [hb, hn] using hkeep
        have hkept : trimBlanks e ((if isGap c then ' ' else c) :: squeezeGaps t) =
            (if isGap c then ' ' else c) :: trimBlanks e (squeezeGaps t) := by
          apply trimBlanks_cons_keep
          split
          · rename_i hg
            exact .inr (.inr (by rw [endsLine_squeezeGaps, hends hg]))
          · rw [endsLine_squeezeGaps]
            exact hkeep
        rw [hkept, htr, ih]
        obtain ⟨hg, ⟨d, hd, hnext⟩, -⟩ | ⟨-, h⟩ := squeezeGaps_cons c (trimBlanks e t)
        · obtain ⟨h1, h2⟩ := hgap hg d (by rwa [← head?_trimBlanks (hends hg)])
          simp [h1, h2] at hnext
        · exact h.symm

/-- Normalizing whitespace and trimming can change places. -/
theorem trimBlanks_normalizeWhitespace (t : Text) :
    trimBlanks true (normalizeWhitespace t) = normalizeWhitespace (trimBlanks true t) := by
  rw [normalizeWhitespace, normalizeWhitespace, strip, strip, trimBlanks_rstrip, trimBlanks_lstrip,
    trimBlanks_squeezeGaps]

end Normalize

end GrammarText
