import GrammarText.Proofs.Layout.Preservation
import GrammarText.Proofs.Layout.Quiet

/-!
# Formatting twice

A second formatting of a clean document changes nothing (`formatDocument_idempotent`). With rules, the first
one wrote a layout of rules that are read back from it, and these are laid out the same way again. Without
rules, the normalized text has no rules either, and normalizing it again changes nothing: what makes it
normal (`Settled`) is all that the passes look for.
-/

namespace GrammarText

/-! ### Squeezed texts -/

/-- Whether a text has no tab, and no space in front of a space or a line feed. -/
def squeezed : Text → Bool
  | [] => true
  | [c] => c != '\t'
  | c :: d :: r => c != '\t' && !(c == ' ' && (d == ' ' || d == '\n')) && squeezed (d :: r)

section Squeezed

variable {c : Char} {s t : Text}

theorem squeezed_cons_iff : squeezed (c :: t) = true ↔
    c ≠ '\t' ∧ (c = ' ' → ∀ d ∈ t.head?, d ≠ ' ' ∧ d ≠ '\n') ∧ squeezed t = true := by
  cases t with
  | nil => simp [squeezed]
  | cons d r =>
    by_cases hc : c = ' '
    · simp [squeezed, hc]
    · simp [squeezed, hc]

theorem squeezeGaps_of_squeezed (h : squeezed t = true) : squeezeGaps t = t := by
  fun_induction squeezeGaps t with
  | case1 => rfl
  | case2 c =>
    obtain ⟨hc, -, -⟩ := squeezed_cons_iff.1 h
    rw [if_neg (by simpa using hc)]
  | case3 c d r hc hd ih =>
    obtain ⟨ht, hsp, hr⟩ := squeezed_cons_iff.1 h
    obtain ⟨hdt, -, -⟩ := squeezed_cons_iff.1 hr
    have hspace : c = ' ' := by simpa [ht] using hc
    obtain ⟨h1, h2⟩ := hsp hspace d rfl
    simp [h1, h2, hdt] at hd
  | case4 c d r hc hd ih =>
    obtain ⟨ht, -, hr⟩ := squeezed_cons_iff.1 h
    have hspace : c = ' ' := by simpa [ht] using hc
    rw [ih hr, hspace]
  | case5 c d r hc ih =>
    obtain ⟨-, -, hr⟩ := squeezed_cons_iff.1 h
    rw [ih hr]

theorem squeezeGaps_cons_of_not_gap (h1 : c ≠ ' ') (h2 : c ≠ '\t') : ∃ z, squeezeGaps (c :: t) = c :: z := by
  cases t with
  | nil => exact ⟨[], by simp [squeezeGaps, h2]⟩
  | cons d r => exact ⟨squeezeGaps (d :: r), by simp [squeezeGaps, h1, h2]⟩

theorem squeezed_squeezeGaps (t : Text) : squeezed (squeezeGaps t) = true := by
  fun_induction squeezeGaps t with
  | case1 => rfl
  | case2 c =>
    by_cases hc : c = '\t'
    · simp [hc, squeezed]
    · simp [hc, squeezed]
  | case3 c d r hc hd ih => exact ih
  | case4 c d r hc hd ih =>
    simp only [Bool.or_eq_true, beq_iff_eq, not_or] at hd
    obtain ⟨z, hz⟩ := squeezeGaps_cons_of_not_gap (t := r) hd.1.1 hd.1.2
    rw [hz] at ih ⊢
    exact squeezed_cons_iff.2 ⟨by decide, fun _ x hx => by
      obtain rfl : d = x := by simpa using hx
      exact ⟨hd.1.1, hd.2⟩, ih⟩
  | case5 c d r hc ih =>
    simp only [Bool.or_eq_true, beq_iff_eq, not_or] at hc
    exact squeezed_cons_iff.2 ⟨hc.2, fun he => absurd he hc.1, ih⟩

theorem squeezed_of_append (h : squeezed (s ++ t) = true) : squeezed s = true ∧ squeezed t = true := by
  induction s with
  | nil => exact ⟨rfl, h⟩
  | cons c s ih =>
    obtain ⟨ht, hsp, hr⟩ := squeezed_cons_iff.1 h
    obtain ⟨hs, htt⟩ := ih hr
    refine ⟨squeezed_cons_iff.2 ⟨ht, fun hc d hd => hsp hc d ?_, hs⟩, htt⟩
    cases s with
    | nil => cases hd
    | cons e s => exact hd

theorem squeezed_trimBlanks (e : Bool) (h : squeezed t = true) : squeezed (trimBlanks e t) = true := by
  induction t with
  | nil => rfl
  | cons c r ih =>
    obtain ⟨ht, hsp, hr⟩ := squeezed_cons_iff.1 h
    obtain ⟨-, -, -, heq⟩ | ⟨hkeep, heq⟩ := trimBlanks_cons e c r
    · rw [heq]
      exact ih hr
    · rw [heq]
      refine squeezed_cons_iff.2 ⟨ht, ?_, ih hr⟩
      rintro rfl d hd
      -- a space is only kept where no line end follows
      have hends : endsLine e (trimBlanks e r) = false := by
        rcases hkeep with hk | hk | hk
        · cases hk
        · cases hk
        · exact hk
      cases r with
      | nil => cases hd
      | cons x r =>
        obtain ⟨-, -, hx, hxeq⟩ | ⟨-, hxeq⟩ := trimBlanks_cons e x r
        · rw [hxeq, hx] at hends
          cases hends
        · rw [hxeq] at hd
          obtain rfl : x = d := by simpa using hd
          exact hsp rfl x rfl

theorem squeezed_append_newline (h : squeezed t = true) (hl : ∀ c ∈ t.getLast?, isBlank c = false) :
    squeezed (t ++ ['\n']) = true := by
  induction t with
  | nil => rfl
  | cons c r ih =>
    obtain ⟨ht, hsp, hr⟩ := squeezed_cons_iff.1 h
    cases r with
    | nil =>
      refine squeezed_cons_iff.2 ⟨ht, ?_, rfl⟩
      rintro rfl
      have := hl ' ' rfl
      cases this
    | cons d r => exact squeezed_cons_iff.2 ⟨ht, hsp, ih hr (by simpa using hl)⟩

end Squeezed

/-! ### Settled texts -/

/-- A text that normalizing its whitespace leaves alone. -/
structure Settled (o : LayoutOptions) (t : Text) : Prop where
  squeezed : squeezed t = true
  starts : ∀ c ∈ t.head?, isBlank c = false
  ends : ∀ c ∈ t.getLast?, isBlank c = false
  trimmed : o.trimLines = true → trimBlanks true t = t

/-- The text with the line ends trimmed as the options have it. -/
def trimmedLines (o : LayoutOptions) (t : Text) : Text := if o.trimLines then trimBlanks true t else t

/-- What the last pass adds to a text that does not end in a line feed. -/
def ending (o : LayoutOptions) (t : Text) : Text :=
  if o.finalNewline && !t.isEmpty then ['\n'] else []

section Settled

variable {o : LayoutOptions} {s t : Text}

theorem getLast?_trimmedLines (hl : ∀ c ∈ t.getLast?, isBlank c = false) :
    (trimmedLines o t).getLast? = t.getLast? := by
  unfold trimmedLines
  split
  · exact getLast?_trimBlanks true hl
  · rfl

theorem ending_cases (o : LayoutOptions) (t : Text) : ending o t = [] ∨ (ending o t = ['\n'] ∧ t ≠ []) := by
  unfold ending
  split
  · rename_i h
    right
    refine ⟨rfl, ?_⟩
    rintro rfl
    simp at h
  · exact .inl rfl

/-- The last pass adds a line feed to a text that does not end in a blank. -/
theorem cleanUp_eq (hl : ∀ c ∈ t.getLast?, isBlank c = false) :
    cleanUp o t = trimmedLines o t ++ ending o (trimmedLines o t) := by
  have hlast : (trimmedLines o t).getLast? != some '\n' := by
    rw [getLast?_trimmedLines hl, bne_iff_ne]
    intro hn
    cases hl '\n' hn
  unfold trimmedLines at hlast ⊢
  simp only [cleanUp, joinLines_map_rstrip, hlast, Bool.and_true]
  generalize (if o.trimLines then trimBlanks true t else t) = u
  unfold ending
  split
  · rfl
  · rw [List.append_nil]

/-- A document without rules is formatted to a settled text and its end. -/
theorem settled_normalizeWhitespace (o : LayoutOptions) (s : Text) :
    Settled o (trimmedLines o (normalizeWhitespace s)) := by
  have hsq : squeezed (normalizeWhitespace s) = true := by
    have h := squeezed_squeezeGaps s
    rw [← List.takeWhile_append_dropWhile (p := isBlank) (l := squeezeGaps s)] at h
    obtain ⟨z, hz⟩ := isPrefix_rstrip (lstrip (squeezeGaps s))
    have hl := (squeezed_of_append h).2
    rw [show (squeezeGaps s).dropWhile isBlank = lstrip (squeezeGaps s) from rfl, ← hz] at hl
    exact (squeezed_of_append hl).1
  have hends : ∀ c ∈ (normalizeWhitespace s).getLast?, isBlank c = false := getLast?_rstrip _
  have hstarts : ∀ c ∈ (normalizeWhitespace s).head?, isBlank c = false := by
    intro c hc
    obtain ⟨r, hr⟩ := List.head?_eq_some_iff.1 hc
    obtain ⟨z, hz⟩ := isPrefix_rstrip (lstrip (squeezeGaps s))
    refine head?_lstrip (squeezeGaps s) c ?_
    rw [← hz, show rstrip (lstrip (squeezeGaps s)) = c :: r from hr]
    rfl
  unfold trimmedLines
  cases ht : o.trimLines with
  | false => exact ⟨hsq, hstarts, hends, by simp [ht]⟩
  | true =>
    rw [if_pos rfl]
    refine ⟨squeezed_trimBlanks true hsq, ?_, ?_, fun _ => trimBlanks_trimBlanks true _⟩
    · cases hn : normalizeWhitespace s with
      | nil => simp
      | cons c r =>
        rw [hn] at hstarts
        rw [trimBlanks_cons_keep (.inl (hstarts c rfl))]
        exact hstarts
    · rw [getLast?_trimBlanks true hends]
      exact hends

theorem cleanUp_settled (h : Settled o t) : cleanUp o t = t ++ ending o t := by
  have ht : trimmedLines o t = t := by
    unfold trimmedLines
    split
    · exact h.trimmed ‹_›
    · rfl
  rw [cleanUp_eq h.ends, ht]

theorem normalizeWhitespace_settled (h : Settled o t) : normalizeWhitespace (t ++ ending o t) = t := by
  have hself : rstrip t = t := rstrip_eq_self_iff.2 h.ends
  have hsq : squeezed (t ++ ending o t) = true := by
    rcases ending_cases o t with he | ⟨he, -⟩
    · rw [he, List.append_nil]
      exact h.squeezed
    · rw [he]
      exact squeezed_append_newline h.squeezed h.ends
  have hl : lstrip (t ++ ending o t) = t ++ ending o t := by
    cases ht : t with
    | nil => simp [ending, lstrip]
    | cons c r =>
      have hc : isBlank c = false := h.starts c (by rw [ht]; rfl)
      exact List.dropWhile_cons_of_neg (by simp [hc])
  have hb : ∀ x ∈ ending o t, isBlank x = true := by
    intro x hx
    rcases ending_cases o t with he | ⟨he, -⟩
    · rw [he] at hx
      cases hx
    · rw [he] at hx
      obtain rfl := List.mem_singleton.1 hx
      rfl
  rw [normalizeWhitespace, squeezeGaps_of_squeezed hsq, strip, hl, rstrip_append_blank hb, hself]

end Settled

/-! ### Documents -/

section Document

variable {source : Text} {o : LayoutOptions}

theorem quiet_iff (hcl : ∀ t ∈ lexemes .ebnf source, t.isClosed = true) :
    Quiet source ↔ documentRules source = [] := by
  have hnil : documentRules source = [] ↔ noRule (dense (lexemes .ebnf source)) = true := by
    rw [← extractFrom_eq_nil_iff []]
    have h := documentRules_bare source
    constructor
    · intro hn
      rw [hn] at h
      exact List.map_eq_nil_iff.1 h.symm
    · intro hn
      rw [extract, hn] at h
      exact List.map_eq_nil_iff.1 h
  exact ⟨fun h => hnil.2 h.noRule, fun h => ⟨hcl, hnil.1 h⟩⟩

/-- A document without rules has none after it was formatted. -/
theorem documentRules_cleanUp (h : Quiet source) (o : LayoutOptions) :
    documentRules (cleanUp o (normalizeWhitespace source)) = [] := by
  have hn := h.normalizeWhitespace
  have hend : (∀ d ∈ (ending o (trimmedLines o (normalizeWhitespace source))).head?, d = '\n') ∧
      ∀ x ∈ ending o (trimmedLines o (normalizeWhitespace source)), isSpace x = true := by
    rcases ending_cases o (trimmedLines o (normalizeWhitespace source)) with he | ⟨he, -⟩ <;> rw [he] <;>
      simp [isSpace]
  have hthin : Thin (ending o (trimmedLines o (normalizeWhitespace source))) (normalizeWhitespace source)
      (trimmedLines o (normalizeWhitespace source)) := by
    generalize ending o (trimmedLines o (normalizeWhitespace source)) = after at hend
    unfold trimmedLines
    split
    · exact thin_trimBlanks (fun _ d hd => hend.1 d hd ▸ rfl) _
    · exact thin_refl _ _
  have hq := hn.thin hend.1 hend.2 hthin
  rw [cleanUp_eq (t := normalizeWhitespace source) (getLast?_rstrip _)]
  exact (quiet_iff hq.closed).1 hq

theorem joinedRules_restored {rs rs' : List Rule} (h : List.Forall₂ Restored rs rs') (o : LayoutOptions) :
    rs'.map (renderRule o) = rs.map (renderRule o) := by
  induction h with
  | nil => rfl
  | cons hr _ ih => rw [List.map_cons, List.map_cons, ih, renderRule_like hr.like]

/-- Without rules the text is settled after it was formatted. -/
theorem formatDocument_again_of_quiet (h : Quiet source) (o : LayoutOptions) :
    formatDocument o (formatDocument o source).text = { formatDocument o source with changed := false } := by
  have hne := (quiet_iff h.closed).1 h
  have htext : (formatDocument o source).text = cleanUp o (normalizeWhitespace source) := by
    rw [formatDocument, hne]
  have hfix : cleanUp o (normalizeWhitespace (cleanUp o (normalizeWhitespace source))) =
      cleanUp o (normalizeWhitespace source) := by
    have hset := settled_normalizeWhitespace o source
    rw [cleanUp_eq (t := normalizeWhitespace source) (getLast?_rstrip _), normalizeWhitespace_settled hset,
      cleanUp_settled hset]
  rw [htext]
  unfold formatDocument
  rw [documentRules_cleanUp h o, hne, hfix]
  simp

/-- With rules the text is a layout of rules that are read back from it and laid out as they are. -/
theorem formatDocument_again_of_rules (h : Clean source) (hne : documentRules source ≠ []) (hgap : o.GapInRange) :
    formatDocument o (formatDocument o source).text = { formatDocument o source with changed := false } := by
  have hrest := restored_formatDocument h hne hgap
  have htext := text_formatDocument h hne hgap
  generalize hrs : (extract (lexemes .ebnf source)).map (Rule.cleaned o) = rs at hrest htext
  have hclean : ∀ r ∈ rs, r.Legible ∧ r.NeatBody := by
    intro r hr
    rw [← hrs] at hr
    obtain ⟨q, hq, rfl⟩ := List.mem_map.1 hr
    exact ⟨(h.legible hq).cleaned, (h.neatBody hq).cleaned⟩
  have hcleaned : rs.map (Rule.cleaned o) = rs := by
    rw [← hrs, List.map_map]
    exact List.map_congr_left fun r _ => Rule.cleaned_cleaned o r
  have hlen : rs.length = (documentRules source).length := by
    rw [← hrs, List.length_map, ← documentRules_bare, List.length_map]
  have hagain : (documentRules (formatDocument o source).text).length = rs.length := by
    have hbare := congrArg List.length (documentRules_bare (formatDocument o source).text)
    rw [List.length_map] at hbare
    rw [hbare, hrest.length_eq]
  have hpos : 0 < rs.length := by
    rw [hlen]
    exact List.length_pos_of_ne_nil hne
  have hne' : documentRules (formatDocument o source).text ≠ [] := by
    apply List.ne_nil_of_length_pos
    omega
  have hfix : cleanUp o (joinedRules o (documentRules (formatDocument o source).text)) =
      (formatDocument o source).text := by
    rw [← joinedRules_map_bare, documentRules_bare, joinedRules, joinedRules_restored hrest o, htext]
    exact (cleanUp_joined (fun r hr => (hclean r hr).1) (fun r hr => (hclean r hr).2)
      (List.ne_nil_of_length_pos hpos) o (ruleGap o)).trans (by rw [hcleaned])
  rw [formatDocument_rules hne' hgap, hfix, hagain, hlen]
  rw [formatDocument_rules hne hgap]
  simp

/-- Formatting a formatted clean document changes nothing. -/
theorem formatDocument_idempotent (source : Text) (o : LayoutOptions) (h : Clean source) :
    formatDocument o (formatDocument o source).text = { formatDocument o source with changed := false } := by
  by_cases hne : documentRules source = []
  · exact formatDocument_again_of_quiet ((quiet_iff h.closed_lexemes).2 hne) o
  · by_cases hgap : o.GapInRange
    · exact formatDocument_again_of_rules h hne hgap
    · rw [formatDocument_outOfRange hne hgap]
      exact formatDocument_outOfRange hne hgap

end Document

theorem formatDocument_idempotent_commentedRules :
    (formatDocument { width := 20 } commentedRules).changed = true ∧
      formatDocument { width := 20 } (formatDocument { width := 20 } commentedRules).text =
        { formatDocument { width := 20 } commentedRules with changed := false } :=
  ⟨by decide +kernel, formatDocument_idempotent commentedRules { width := 20 } clean_commentedRules⟩

end GrammarText
