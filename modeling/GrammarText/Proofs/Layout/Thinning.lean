import GrammarText.Proofs.Layout.Trim
import GrammarText.Proofs.Scan.Boundary

/-!
# Thinning blanks

Every pass over a text that normalizes whitespace thins it: it drops blanks in front of spaces and at the
end, and writes spaces for tabs. `Thin after s s'` says that `s'` is such a text for `s`, if `after` follows
it. Thinning brings no two signs together (`prefix_of_thin`), and what is closed stays closed
(`Lexeme.thin`).
-/

namespace GrammarText

/-- The text `s'` is `s` with blanks dropped in front of spaces and with spaces for tabs; line feeds are only
dropped at the end. What follows `s'` is `after`. -/
inductive Thin (after : Text) : Text → Text → Prop where
  | nil : Thin after [] []
  | keep {c : Char} {r r' : Text} (h : Thin after r r') : Thin after (c :: r) (c :: r')
  | tab {r r' : Text} (h : Thin after r r') : Thin after ('\t' :: r) (' ' :: r')
  | drop {c : Char} {r r' : Text} (hb : isBlank c = true) (hc : c = '\n' → r' ++ after = [])
      (hn : ∀ d ∈ (r' ++ after).head?, isSpace d = true) (h : Thin after r r') : Thin after (c :: r) r'

section Thin

variable {after s s' : Text}

theorem thin_refl (after s : Text) : Thin after s s := by
  induction s with
  | nil => exact .nil
  | cons c s ih => exact .keep ih

/-- Of two parts each is thinned, the first with what is left of the second behind it. -/
theorem Thin.split {a b : Text} (h : Thin after (a ++ b) s') :
    ∃ a' b', s' = a' ++ b' ∧ Thin (b' ++ after) a a' ∧ Thin after b b' := by
  induction a generalizing s' with
  | nil => exact ⟨[], s', rfl, .nil, h⟩
  | cons c a ih =>
    rw [List.cons_append] at h
    cases h with
    | keep h =>
      obtain ⟨a', b', rfl, ha, hb⟩ := ih h
      exact ⟨c :: a', b', rfl, .keep ha, hb⟩
    | tab h =>
      obtain ⟨a', b', rfl, ha, hb⟩ := ih h
      exact ⟨' ' :: a', b', rfl, .tab ha, hb⟩
    | drop hbl hc hn h =>
      obtain ⟨a', b', rfl, ha, hb⟩ := ih h
      rw [List.append_assoc] at hc hn
      exact ⟨a', b', rfl, .drop hbl hc hn ha, hb⟩

/-- What holds of all characters of a text, and of the space, holds of all that are left. -/
theorem Thin.forall {p : Char → Prop} (h : Thin after s s') (hs : ∀ x ∈ s, p x) (hsp : p '\t' → p ' ') :
    ∀ x ∈ s', p x := by
  induction h with
  | nil => exact hs
  | keep _ ih =>
    intro x hx
    rcases List.mem_cons.1 hx with rfl | hx
    · exact hs x List.mem_cons_self
    · exact ih (fun y hy => hs y (List.mem_cons_of_mem _ hy)) x hx
  | tab _ ih =>
    intro x hx
    rcases List.mem_cons.1 hx with rfl | hx
    · exact hsp (hs _ List.mem_cons_self)
    · exact ih (fun y hy => hs y (List.mem_cons_of_mem _ hy)) x hx
  | drop _ _ _ _ ih => exact ih fun y hy => hs y (List.mem_cons_of_mem _ hy)

/-- A text without blanks stays as it is. -/
theorem Thin.eq_of_not_blank (h : Thin after s s') (hs : ∀ x ∈ s, isBlank x = false) : s' = s := by
  induction h with
  | nil => rfl
  | keep _ ih => rw [ih fun y hy => hs y (List.mem_cons_of_mem _ hy)]
  | tab => exact absurd (hs _ List.mem_cons_self) (by decide)
  | drop hb => simp [hs _ List.mem_cons_self] at hb

/-- What begins with a line feed or not at all still does. -/
theorem Thin.head_newline (h : Thin after s s') (ha : ∀ d ∈ after.head?, d = '\n') (hs : ∀ d ∈ s.head?, d = '\n') :
    ∀ d ∈ (s' ++ after).head?, d = '\n' := by
  cases h with
  | nil => exact ha
  | keep => simpa using hs
  | tab => exact absurd (hs _ rfl) (by decide)
  | drop _ hc =>
    rw [hc (hs _ rfl)]
    simp

/-- Thinning brings nothing together that no space is part of. -/
theorem prefix_of_thin {p : Text} (h : Thin after s s') (ha : ∀ d ∈ after.head?, isSpace d = true)
    (hp : ∀ x ∈ p, isSpace x = false) (hpre : p <+: s' ++ after) : p <+: s := by
  induction p generalizing s s' with
  | nil => exact List.nil_prefix
  | cons c p ih =>
    have hc := hp c List.mem_cons_self
    have hp' := fun x hx => hp x (List.mem_cons_of_mem _ hx)
    have hhead : (s' ++ after).head? = some c := by
      obtain ⟨z, hz⟩ := hpre
      rw [← hz]
      rfl
    cases h with
    | nil =>
      rw [List.nil_append] at hhead
      simp [ha c hhead] at hc
    | keep h =>
      obtain ⟨rfl, hrest⟩ := List.cons_prefix_cons.1 hpre
      exact List.cons_prefix_cons.2 ⟨rfl, ih h hp' hrest⟩
    | tab =>
      obtain rfl : ' ' = c := by simpa using hhead
      cases hc
    | drop _ _ hn => simp [hn c hhead] at hc

end Thin

/-! ### Passes that thin -/

theorem thin_trimBlanks {e : Bool} {after : Text} (ha : e = true → ∀ d ∈ after.head?, isSpace d = true) (t : Text) :
    Thin after t (trimBlanks e t) := by
  induction t with
  | nil => exact .nil
  | cons c r ih =>
    obtain ⟨hb, hc, hends, h⟩ | ⟨-, h⟩ := trimBlanks_cons e c r
    · rw [h]
      refine .drop hb (fun he => absurd he hc) (fun d hd => ?_) ih
      cases ht : trimBlanks e r with
      | nil =>
        rw [ht] at hends hd
        exact ha hends d hd
      | cons x z =>
        rw [ht] at hends hd
        obtain rfl : x = d := by simpa using hd
        obtain rfl : x = '\n' := by simpa [endsLine] using hends
        rfl
    · rw [h]
      exact .keep ih

theorem thin_rstrip (t : Text) : Thin [] t (rstrip t) := by
  induction t with
  | nil => exact .nil
  | cons c r ih =>
    rw [rstrip_cons]
    split
    · rename_i h
      rw [h.1] at ih
      exact .drop h.2 (fun _ => rfl) (by simp) ih
    · exact .keep ih

/-- A gap leaves a space behind, or the line feed that ends it. -/
theorem head_squeezeGaps {d : Char} {r : Text} (hd : d = ' ' ∨ d = '\t' ∨ d = '\n') :
    ∀ x ∈ (squeezeGaps (d :: r)).head?, isSpace x = true := by
  induction r generalizing d with
  | nil => rcases hd with rfl | rfl | rfl <;> simp [squeezeGaps, isSpace]
  | cons e r ih =>
    intro x hx
    rw [squeezeGaps] at hx
    split at hx
    · split at hx
      · rename_i he
        exact ih (by simpa [or_assoc] using he) x hx
      · obtain rfl : ' ' = x := by simpa using hx
        rfl
    · rename_i hnd
      obtain rfl : d = x := by simpa using hx
      rcases hd with rfl | rfl | rfl
      · rfl
      · rfl
      · rfl

theorem thin_squeezeGaps (t : Text) : Thin [] t (squeezeGaps t) := by
  fun_induction squeezeGaps t with
  | case1 => exact .nil
  | case2 c =>
    by_cases hc : c = '\t'
    · subst hc
      exact .tab .nil
    · rw [if_neg (by simpa using hc)]
      exact thin_refl _ _
  | case3 c d r hc hd ih =>
    have hblank : isBlank c = true ∧ c ≠ '\n' := by
      simp only [Bool.or_eq_true, beq_iff_eq] at hc
      rcases hc with rfl | rfl <;> decide
    refine .drop hblank.1 (fun he => absurd he hblank.2) (fun x hx => ?_) ih
    rw [List.append_nil] at hx
    exact head_squeezeGaps (by simpa [or_assoc] using hd) x hx
  | case4 c d r hc hd ih =>
    simp only [Bool.or_eq_true, beq_iff_eq] at hc
    rcases hc with rfl | rfl
    · exact .keep ih
    · exact .tab ih
  | case5 c d r hc ih => exact .keep ih

/-! ### Delimited forms -/

/-- The signs that the readers of delimited forms look for are no blanks. -/
theorem ne_of_isBlank {c x : Char} (hc : isBlank c = true) (hx : isBlank x = false) : c ≠ x := by
  rintro rfl
  simp [hc] at hx

theorem isBlank_of_isSpace {c : Char} (h : isSpace c = true) : isBlank c = true := by
  simp only [isSpace, Bool.or_eq_true, beq_iff_eq] at h
  rcases h with ((rfl | rfl) | rfl) | rfl <;> decide

/-- A reader to which blanks mean nothing, unless they are escaped: one that is left out in front of another
makes no difference, and none closes the form. `P` holds of its states while the form is open. -/
structure PassesBlanks {σ : Type} (step : σ → Char → σ) (closed : σ → Bool) (P : σ → Prop) : Prop where
  stays : ∀ s c, P s → closed (step s c) = false → P (step s c)
  passes : ∀ s c d, P s → isBlank c = true → isBlank d = true → step (step s c) d = step s d
  leavesOpen : ∀ s c, P s → isBlank c = true → closed (step s c) = false
  same : ∀ s c d, P s → isBlank c = true → isBlank d = true → step s c = step s d

theorem closesAtEnd_thin {σ : Type} {step : σ → Char → σ} {closed : σ → Bool} {P : σ → Prop}
    (hm : PassesBlanks step closed P) {after r r' : Text} (h : Thin after r r') {s : σ} (hs : P s)
    (hr : closesAtEnd step closed s r = true) : closesAtEnd step closed s r' = true := by
  induction h generalizing s with
  | nil => exact hr
  | @keep c r r' h ih =>
    rw [closesAtEnd] at hr ⊢
    split at hr
    · rename_i hcl
      rw [if_pos hcl]
      rw [List.isEmpty_iff.1 hr] at h
      cases h
      rfl
    · rename_i hcl
      rw [if_neg hcl]
      exact ih (hm.stays s c hs (by simpa using hcl)) hr
  | @tab r r' h ih =>
    have hcl := hm.leavesOpen s '\t' hs (by decide)
    have htab := hm.same s '\t' ' ' hs (by decide) (by decide)
    rw [closesAtEnd, if_neg (by simp [hcl])] at hr
    rw [closesAtEnd, ← htab, if_neg (by simp [hcl])]
    exact ih (hm.stays s '\t' hs hcl) hr
  | @drop c r r' hb hc hn h ih =>
    have hcl := hm.leavesOpen s c hs hb
    rw [closesAtEnd, if_neg (by simp [hcl])] at hr
    have hrest := ih (hm.stays s c hs hcl) hr
    cases r' with
    | nil => cases hrest
    | cons d z =>
      have hd : isBlank d = true := isBlank_of_isSpace (hn d rfl)
      rw [closesAtEnd, hm.passes s c d hs hb hd] at hrest
      rw [closesAtEnd]
      exact hrest

theorem passesBlanks_literal {mark : Char} (hm : isBlank mark = false) :
    PassesBlanks (LiteralState.step mark) (· == .closed) (· ≠ .closed) := by
  have hstep : ∀ s c, s ≠ LiteralState.closed → isBlank c = true → LiteralState.step mark s c = .inside := by
    intro s c hs hc
    have h1 := ne_of_isBlank hc hm
    have h2 : c ≠ '\\' := ne_of_isBlank hc (by decide)
    cases s with
    | inside => simp [LiteralState.step, h1, h2]
    | escape => rfl
    | closed => exact absurd rfl hs
  refine ⟨fun s c _ hcl => by simpa using hcl, ?_, ?_, ?_⟩
  · intro s c d hs hc hd
    rw [hstep s c hs hc, hstep .inside d (by simp) hd, hstep s d hs hd]
  · intro s c hs hc
    rw [hstep s c hs hc]
    rfl
  · intro s c d hs hc hd
    rw [hstep s c hs hc, hstep s d hs hd]

theorem passesBlanks_class : PassesBlanks ClassState.step (·.depth == 0) (·.depth ≠ 0) := by
  have hstep : ∀ s c, isBlank c = true → ClassState.step s c = ⟨s.depth, false⟩ := by
    intro s c hc
    have h1 : c ≠ '\\' := ne_of_isBlank hc (by decide)
    have h2 : c ≠ '[' := ne_of_isBlank hc (by decide)
    have h3 : c ≠ ']' := ne_of_isBlank hc (by decide)
    obtain ⟨depth, escape⟩ := s
    cases escape <;> simp [ClassState.step, h1, h2, h3]
  refine ⟨fun s c _ hcl => by simpa using hcl, ?_, ?_, ?_⟩
  · intro s c d hs hc hd
    rw [hstep s c hc, hstep _ d hd, hstep s d hd]
  · intro s c hs hc
    rw [hstep s c hc]
    simpa using hs
  · intro s c d _ hc hd
    rw [hstep s c hc, hstep s d hd]

theorem passesBlanks_block {first second : Char} (hf : isBlank first = false) (hsec : isBlank second = false) :
    PassesBlanks (BlockState.step first second) (· == .closed) (· ≠ .closed) := by
  have hstep : ∀ s c, s ≠ BlockState.closed → isBlank c = true → BlockState.step first second s c = .inside := by
    intro s c hs hc
    have h1 := ne_of_isBlank hc hf
    have h2 := ne_of_isBlank hc hsec
    cases s with
    | inside => simp [BlockState.step, h1]
    | half => simp [BlockState.step, h1, h2]
    | closed => exact absurd rfl hs
  refine ⟨fun s c _ hcl => by simpa using hcl, ?_, ?_, ?_⟩
  · intro s c d hs hc hd
    rw [hstep s c hs hc, hstep .inside d (by simp) hd, hstep s d hs hd]
  · intro s c hs hc
    rw [hstep s c hs hc]
    rfl
  · intro s c d hs hc hd
    rw [hstep s c hs hc, hstep s d hs hd]

/-- What begins with a sign that is no blank begins with it after thinning. -/
theorem Thin.cons_of_not_blank {after r s' : Text} {c : Char} (h : Thin after (c :: r) s') (hc : isBlank c = false) :
    ∃ r', s' = c :: r' ∧ Thin after r r' := by
  cases h with
  | keep h => exact ⟨_, rfl, h⟩
  | tab => cases hc
  | drop hb => simp [hb] at hc

/-- A text that is thinned begins with the mark of a line comment if it did so before, and not otherwise. -/
theorem Thin.line_iff {s s' : Text} (h : Thin [] s s') : ['/', '/'] <+: s' ↔ ['/', '/'] <+: s := by
  have hslash : isBlank '/' = false := by decide
  constructor
  · intro hp
    exact prefix_of_thin h (by simp) (by simp [isSpace]) (by rwa [List.append_nil])
  · rintro ⟨r, rfl⟩
    obtain ⟨z, rfl, hz⟩ := h.cons_of_not_blank hslash
    obtain ⟨r', rfl, -⟩ := hz.cons_of_not_blank hslash
    exact ⟨r', rfl⟩

/-- A delimited token that is thinned is a token of its kind; a line comment comes from a line comment. -/
theorem Lexeme.thin {after x x' : Text} {k : TokenKind} (h : Lexeme .ebnf k x)
    (hk : k = .literal ∨ k = .charClass ∨ k = .comment) (ht : Thin after x x') :
    Lexeme .ebnf k x' ∧ (['/', '/'] <+: x' → ['/', '/'] <+: x) := by
  have hslash : isBlank '/' = false := by decide
  have hstar : isBlank '*' = false := by decide
  cases h with
  | @literal mark r hm h =>
    have hmb : isBlank mark = false := by
      rcases hm with rfl | rfl <;> decide
    obtain ⟨r', rfl, hr⟩ := ht.cons_of_not_blank hmb
    refine ⟨.literal hm (closesAtEnd_thin (passesBlanks_literal hmb) hr (by simp) h), ?_⟩
    rcases hm with rfl | rfl <;> simp
  | charClass h =>
    obtain ⟨r', rfl, hr⟩ := ht.cons_of_not_blank (by decide)
    exact ⟨.charClass (closesAtEnd_thin passesBlanks_class hr (by simp) h), by simp⟩
  | starred hd h =>
    obtain ⟨z, rfl, hz⟩ := ht.cons_of_not_blank (by decide)
    obtain ⟨r', rfl, hr⟩ := hz.cons_of_not_blank hstar
    exact ⟨.starred hd (closesAtEnd_thin (passesBlanks_block hstar (by decide)) hr (by simp) h), by simp⟩
  | slashed h =>
    obtain ⟨z, rfl, hz⟩ := ht.cons_of_not_blank hslash
    obtain ⟨r', rfl, hr⟩ := hz.cons_of_not_blank hstar
    exact ⟨.slashed (closesAtEnd_thin (passesBlanks_block hstar hslash) hr (by simp) h), by simp⟩
  | @line r h =>
    obtain ⟨z, rfl, hz⟩ := ht.cons_of_not_blank hslash
    obtain ⟨r', rfl, hr⟩ := hz.cons_of_not_blank hslash
    refine ⟨.line fun hm => ?_, fun _ => ⟨r, rfl⟩⟩
    exact hr.forall (p := (· ≠ '\n')) (fun x hx he => h (he ▸ hx)) (by decide) '\n' hm rfl
  | _ => simp at hk

end GrammarText
