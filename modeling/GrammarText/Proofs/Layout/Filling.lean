import GrammarText.Proofs.Layout.Rows

/-!
# Filling lines

A fill puts a unit on the current line if it fits there, and begins a line with it otherwise. So every line keeps to the
width or holds a single unit, and the unit that begins a line did not fit on the line before (`tight_fill`). No other
arrangement of the units in such lines has fewer of them (`length_fill_le`): it may break a line where the fill does not
yet, but then it is no further in its next line than the fill is one line before. A greater width therefore never takes
more lines (`length_fill_anti`).
-/

namespace GrammarText

/-! ### The extent of a line -/

/-- The number of columns of a line: `lead` columns, and the units with single spaces in between. -/
def extent (lead : Nat) (units : List Text) : Nat :=
  lead + (joinWords units).length

section Extent

variable {lead : Nat} {us : List Text}

@[simp] theorem extent_singleton (lead : Nat) (u : Text) : extent lead [u] = lead + u.length := by
  rw [extent, joinWords_singleton]

/-- A further unit takes a space and its own columns. -/
theorem extent_concat (lead : Nat) (h : us ≠ []) (u : Text) : extent lead (us ++ [u]) = extent lead us + 1 + u.length := by
  rw [extent, extent, joinWords_append h (List.cons_ne_nil u []), joinWords_singleton, List.length_append,
    List.length_cons]
  omega

theorem extent_le_append_right (lead : Nat) (us vs : List Text) : extent lead us ≤ extent lead (us ++ vs) := by
  rcases us.eq_nil_or_concat' with rfl | ⟨us', u, hu⟩
  · simp [extent, joinWords]
  · cases vs with
    | nil => rw [List.append_nil]
    | cons v vs =>
      rw [extent, extent, joinWords_append (by simp [hu]) (List.cons_ne_nil v vs), List.length_append]
      omega

theorem extent_le_cons (lead : Nat) (u : Text) (us : List Text) : extent lead us ≤ extent lead (u :: us) := by
  cases us with
  | nil => simp [extent, joinWords]
  | cons v vs =>
    rw [extent, extent, joinWords_cons (List.cons_ne_nil v vs), List.length_append, List.length_cons]
    omega

end Extent

/-! ### Lines that fit -/

/-- Whether a line keeps to the width; a line with a single unit may exceed it. -/
def LineFits (width : Int) (lead : Nat) (units : List Text) : Prop :=
  (extent lead units : Int) ≤ width ∨ units.length = 1

/-- Lines that are not empty and keep to the width. -/
structure Arranged (width : Int) (lead : Nat) (lines : List (List Text)) : Prop where
  filled : ∀ l ∈ lines, l ≠ []
  fits : ∀ l ∈ lines, LineFits width lead l

/-- Whether the first unit of each line would have exceeded the width on the line before. -/
def Tight (width : Int) (lead : Nat) (lines : List (List Text)) : Prop :=
  lines.IsChain fun l next => ∀ u ∈ next.head?, width < (extent lead l + 1 + u.length : Nat)

section Lines

variable {width : Int} {lead used : Nat} {u : Text} {us l current : List Text} {ls lines : List (List Text)}

theorem LineFits.of_cons (h : LineFits width lead (u :: l)) : l = [] ∨ (extent lead (u :: l) : Int) ≤ width := by
  rcases h with h | h
  · exact .inr h
  · exact .inl (by simpa using h)

theorem arranged_cons : Arranged width lead (l :: ls) ↔ (l ≠ [] ∧ LineFits width lead l) ∧ Arranged width lead ls := by
  constructor
  · intro h
    refine ⟨⟨h.filled l List.mem_cons_self, h.fits l List.mem_cons_self⟩, ?_, ?_⟩
    · exact fun k hk => h.filled k (List.mem_cons_of_mem l hk)
    · exact fun k hk => h.fits k (List.mem_cons_of_mem l hk)
  · rintro ⟨⟨hne, hfits⟩, hls⟩
    exact ⟨List.forall_mem_cons.2 ⟨hne, hls.filled⟩, List.forall_mem_cons.2 ⟨hfits, hls.fits⟩⟩

theorem Arranged.mono {w₁ w₂ : Int} (hw : w₁ ≤ w₂) (h : Arranged w₁ lead lines) : Arranged w₂ lead lines := by
  refine ⟨h.filled, fun l hl => ?_⟩
  rcases h.fits l hl with hfits | hsingle
  · exact .inl (Int.le_trans hfits hw)
  · exact .inr hsingle

/-- The lines of a line that is begun and of the units that follow: the first goes on with what the line holds. -/
theorem tight_fillFrom (width : Int) (lead : Nat) (hc : current ≠ []) (hfits : LineFits width lead current) (us : List Text) :
    ∃ l ls, fillFrom width lead (extent lead current) us = l :: ls ∧
      Arranged width lead ((current ++ l) :: ls) ∧ Tight width lead ((current ++ l) :: ls) := by
  induction us generalizing current with
  | nil =>
    refine ⟨[], [], rfl, ?_, List.isChain_singleton _⟩
    rw [List.append_nil]
    exact arranged_cons.2 ⟨⟨hc, hfits⟩, by simp, by simp⟩
  | cons u us ih =>
    rw [fillFrom]
    split
    · -- the unit begins the next line
      rename_i hbreak
      obtain ⟨l, ls, hl, harranged, htight⟩ := ih (List.cons_ne_nil u []) (.inr rfl)
      rw [extent_singleton] at hl
      refine ⟨[], (u :: l) :: ls, by rw [hl]; rfl, ?_, ?_⟩
      · rw [List.append_nil]
        exact arranged_cons.2 ⟨⟨hc, hfits⟩, harranged⟩
      · rw [List.append_nil]
        refine List.isChain_cons_cons.2 ⟨fun v hv => ?_, htight⟩
        obtain rfl : u = v := by simpa using hv
        exact hbreak
    · rename_i hstay
      have hextent := extent_concat lead hc u
      obtain ⟨l, ls, hl, harranged, htight⟩ := @ih (current ++ [u]) (by simp) (.inl (by omega))
      rw [hextent] at hl
      rw [List.append_assoc] at harranged htight
      exact ⟨u :: l, ls, by rw [hl]; rfl, harranged, htight⟩

/-- The lines of a fill keep to the width, and each was begun because its first unit did not fit on the line before. -/
theorem tight_fill (width : Int) (lead : Nat) (us : List Text) :
    Arranged width lead (fill width lead us) ∧ Tight width lead (fill width lead us) := by
  cases us with
  | nil => exact ⟨⟨by simp [fill], by simp [fill]⟩, List.isChain_nil⟩
  | cons u us =>
    obtain ⟨l, ls, hl, harranged, htight⟩ :=
      tight_fillFrom width lead (List.cons_ne_nil u []) (.inr rfl) us
    rw [extent_singleton] at hl
    rw [fill, hl]
    exact ⟨harranged, htight⟩

/-! ### The least number of lines -/

/-- A fill with `used` columns taken, against another arrangement of the same units: it has at most one line more if the
other one begins a line here, and no more lines if the other one is in a line that is as far as the fill's. -/
theorem length_fillFrom_le (us : List Text) (used : Nat) :
    (∀ lines, Arranged width lead lines → lines.flatten = us →
      (fillFrom width lead used us).length ≤ lines.length + 1) ∧
    ∀ current l ls, current ≠ [] → used ≤ extent lead current → (l = [] ∨ (extent lead (current ++ l) : Int) ≤ width) →
      Arranged width lead ls → l ++ ls.flatten = us → (fillFrom width lead used us).length ≤ ls.length + 1 := by
  induction us generalizing used with
  | nil => simp [fillFrom]
  | cons u us ih =>
    have hfresh : ∀ lines, Arranged width lead lines → lines.flatten = u :: us →
        (fillFrom width lead used (u :: us)).length ≤ lines.length + 1 := by
      intro lines hlines hflat
      -- the other arrangement has a line that begins with the unit
      obtain ⟨l, ls, rfl⟩ : ∃ l ls, lines = (u :: l) :: ls := by
        cases lines with
        | nil => cases hflat
        | cons k ls =>
          cases k with
          | nil => exact absurd rfl (hlines.filled [] List.mem_cons_self)
          | cons v l =>
            obtain ⟨rfl, -⟩ := List.cons.inj hflat
            exact ⟨l, ls, rfl⟩
      obtain ⟨⟨-, hline⟩, hls⟩ := arranged_cons.1 hlines
      have hus : l ++ ls.flatten = us := (List.cons.inj hflat).2
      rw [fillFrom, List.length_cons]
      split
      · have hrest := (ih (lead + u.length)).2 [u] l ls (List.cons_ne_nil u []) (by simp) hline.of_cons hls hus
        rw [List.length_cons, List.length_modifyHead]
        omega
      · rw [List.length_modifyHead]
        rcases hline.of_cons with rfl | hfits
        · have hrest := (ih (used + 1 + u.length)).1 ls hls hus
          omega
        · by_cases hl : l = []
          · have hrest := (ih (used + 1 + u.length)).1 ls hls (by simpa [hl] using hus)
            omega
          · have hle := extent_le_cons lead u l
            exact (ih (used + 1 + u.length)).1 (l :: ls) (arranged_cons.2 ⟨⟨hl, .inl (by omega)⟩, hls⟩) hus
    refine ⟨hfresh, fun current l ls hc hused hfits hls hflat => ?_⟩
    cases l with
    | nil => exact hfresh ls hls hflat
    | cons v l =>
      obtain ⟨rfl, hus⟩ := List.cons.inj hflat
      -- the unit fits on the other line, so it fits on the line of the fill
      have hconcat := extent_concat lead hc v
      have hle := extent_le_append_right lead (current ++ [v]) l
      rw [List.append_assoc, List.singleton_append] at hle
      have hwidth : (extent lead (current ++ v :: l) : Int) ≤ width := hfits.resolve_left (List.cons_ne_nil v l)
      have hstay : ¬((used + 1 + v.length : Nat) : Int) > width := by omega
      rw [fillFrom, if_neg hstay, List.length_modifyHead]
      refine (ih (used + 1 + v.length)).2 (current ++ [v]) l ls (by simp) (by omega) (.inr ?_) hls hus
      rwa [List.append_assoc]

/-- No arrangement of the units in lines that keep to the width has fewer lines than a fill. -/
theorem length_fill_le (h : Arranged width lead lines) : (fill width lead lines.flatten).length ≤ lines.length := by
  cases lines with
  | nil => exact Nat.le_refl 0
  | cons l ls =>
    obtain ⟨⟨hne, hline⟩, hls⟩ := arranged_cons.1 h
    obtain ⟨u, l, rfl⟩ := List.exists_cons_of_ne_nil hne
    rw [List.flatten_cons, List.cons_append, fill, List.length_modifyHead, List.length_cons]
    exact (length_fillFrom_le _ _).2 [u] l ls (List.cons_ne_nil u []) (by simp) hline.of_cons hls rfl

/-- A greater width takes no more lines. -/
theorem length_fill_anti {w₁ w₂ : Int} (hw : w₁ ≤ w₂) (lead : Nat) (us : List Text) :
    (fill w₂ lead us).length ≤ (fill w₁ lead us).length := by
  obtain ⟨harranged, -⟩ := tight_fill w₁ lead us
  have hle := length_fill_le (harranged.mono hw)
  rwa [flatten_fill] at hle

/-- Units that fit on one line stand there. -/
theorem fill_of_fits (hne : us ≠ []) (h : (extent lead us : Int) ≤ width) : fill width lead us = [us] := by
  have harranged : Arranged width lead [us] := ⟨by simpa using hne, by simpa using .inl h⟩
  have hle := length_fill_le harranged
  have hflat := flatten_fill width lead us
  rw [List.flatten_singleton] at hle
  match hfill : fill width lead us with
  | [] =>
    rw [hfill] at hflat
    exact absurd hflat.symm hne
  | [l] =>
    rw [hfill, List.flatten_singleton] at hflat
    rw [hflat]
  | _ :: _ :: _ => simp [hfill] at hle

end Lines

end GrammarText
