import GrammarText.Proofs.Rule.Extraction

/-!
# Comments before rules

A rule keeps the comments in front of it, each with the whitespace right after it. `LeadingComment`
says what such an entry can be, `leadingComment_of_mem` that every entry kept from a text is of this
kind, and `extractFrom_leading` that entries of this kind, written in front of a rule, are kept as they
are.
-/

namespace GrammarText

/-- The tokens that follow a stretch of a text's tokens are those of a text. -/
theorem lexemes_suffix {d : Dialect} {s : Text} {ts us : List Token} (h : lexemes d s = ts ++ us) :
    ∃ s', us = lexemes d s' := by
  obtain ⟨rest, -, hus⟩ := lexemes_eq_append h
  exact ⟨rest, hus⟩

/-- An entry among the comments before a rule: a comment and whitespace. A line comment has the end of
its line behind it. -/
def LeadingComment (x : Text) : Prop :=
  ∃ c w, x = c ++ w ∧ Lexeme .ebnf .comment c ∧ (∀ y ∈ w, isSpace y = true) ∧
    (['/', '/'] <+: c → w.head? = some '\n')

theorem LeadingComment.head {x : Text} (h : LeadingComment x) : ∃ y r, x = y :: r ∧ (y = '(' ∨ y = '/') := by
  obtain ⟨c, w, rfl, hc, -, -⟩ := h
  cases hc with
  | starred => exact ⟨_, _, rfl, .inl rfl⟩
  | slashed | line => exact ⟨_, _, rfl, .inr rfl⟩

theorem kind_of_lexemes_cons {d : Dialect} {s : Text} {t : Token} {ts : List Token}
    (h : lexemes d s = t :: ts) (hs : ∀ x ∈ s.head?, isSpace x = false) : t.kind ≠ .whitespace := by
  intro hk
  obtain ⟨rest, hrest, -, hcl⟩ := lexemes_eq_cons h
  have hl := (hcl (by simp [Token.isClosed, hk])).1
  rw [hk] at hl
  generalize ht : t.text = x at hl
  cases hl with
  | @space c r hc _ =>
    rw [ht] at hrest
    simp [hs c (by simp [hrest])] at hc

theorem leadingBlank_lexemes {d : Dialect} {s : Text} (hs : ∀ x ∈ s.head?, isSpace x = false) :
    leadingBlank (lexemes d s) = [] := by
  cases hl : lexemes d s with
  | nil => rfl
  | cons t ts =>
    have := kind_of_lexemes_cons hl hs
    simp [leadingBlank, this]

/-- One entry in front of a text that begins with no space. -/
theorem extractFrom_leadingComment {x s : Text} (hx : LeadingComment x)
    (hs : ∀ y ∈ s.head?, isSpace y = false) (pending : List Text) :
    extractFrom pending (lexemes .ebnf (x ++ s)) = extractFrom (pending ++ [x]) (lexemes .ebnf s) := by
  obtain ⟨c, w, rfl, hc, hw, hline⟩ := hx
  have ha : Apart .ebnf .comment c (w ++ s) := by
    intro hp y hy
    obtain ⟨w', rfl⟩ := List.head?_eq_some_iff.1 (hline hp)
    simpa using hy.symm
  rw [List.append_assoc, lexemes_append hc ha, extractFrom_comment rfl]
  cases w with
  | nil => rw [List.nil_append, leadingBlank_lexemes hs]
  | cons y r =>
    rw [lexemes_gap (List.cons_ne_nil _ _) hw hs, extractFrom_whitespace rfl]
    rfl

/-- Entries in front of a text that begins with no space are kept as they are. -/
theorem extractFrom_leading {cs : List Text} {s : Text} (hcs : ∀ x ∈ cs, LeadingComment x)
    (hs : ∀ y ∈ s.head?, isSpace y = false) (pending : List Text) :
    extractFrom pending (lexemes .ebnf (cs.flatten ++ s)) = extractFrom (pending ++ cs) (lexemes .ebnf s) := by
  induction cs generalizing pending with
  | nil => simp
  | cons x cs ih =>
    have ih' := ih fun y hy => hcs y (List.mem_cons_of_mem _ hy)
    have hhead : ∀ y ∈ (cs.flatten ++ s).head?, isSpace y = false := by
      cases cs with
      | nil => simpa using hs
      | cons z cs =>
        obtain ⟨y, r, rfl, hy⟩ := (hcs z (by simp)).head
        rcases hy with rfl | rfl <;> simp <;> decide
    rw [List.flatten_cons, List.append_assoc, extractFrom_leadingComment (hcs x List.mem_cons_self) hhead, ih',
      List.append_assoc]
    rfl

/-- A comment that does not end the text, and the whitespace behind it: a line comment has the end of its
line there. -/
theorem leadingBlank_of_lexemes_cons {s : Text} {t : Token} {ts : List Token} (h : lexemes .ebnf s = t :: ts)
    (hk : t.kind = .comment) (hcl : t.isClosed = true) (hts : ts ≠ []) :
    Lexeme .ebnf .comment t.text ∧ (∀ y ∈ leadingBlank ts, isSpace y = true) ∧
      (['/', '/'] <+: t.text → (leadingBlank ts).head? = some '\n') := by
  obtain ⟨rest, -, hrest, hspec⟩ := lexemes_eq_cons h
  obtain ⟨hlex, hapart⟩ := hspec hcl
  rw [hk] at hlex hapart
  obtain ⟨u, us, hu⟩ := List.exists_cons_of_ne_nil hts
  rw [hu] at hrest
  obtain ⟨rest', hrest', -, hspec'⟩ := lexemes_eq_cons hrest.symm
  refine ⟨hlex, ?_, fun hp => ?_⟩
  · rw [hu, leadingBlank]
    split
    · rename_i hw
      have hl := (hspec' (by simp [Token.isClosed, beq_iff_eq.1 hw])).1
      rw [beq_iff_eq.1 hw] at hl
      generalize u.text = x at hl
      cases hl with
      | space hc h => simpa [hc] using h
    · simp
  · -- the line feed after a line comment begins the whitespace behind it
    have hne : rest ≠ [] := by
      rintro rfl
      simp at hrest
    obtain ⟨y, r, rfl⟩ := List.exists_cons_of_ne_nil hne
    obtain rfl : y = '\n' := hapart hp y rfl
    have hform : form .ebnf '\n' r = (.whitespace, (r.takeWhile isSpace).length + 1) := by
      rw [form_ordinary (.inr (by decide)), if_neg (by decide)]
    rw [lexemes_cons, hform] at hrest
    cases hrest
    simp [hu, leadingBlank]

/-- What is kept when the cursor stands at a comment that does not end the text. -/
theorem leadingComment_of_lexemes_cons {s : Text} {t : Token} {ts : List Token} (h : lexemes .ebnf s = t :: ts)
    (hk : t.kind = .comment) (hcl : t.isClosed = true) (hts : ts ≠ []) :
    LeadingComment (t.text ++ leadingBlank ts) :=
  ⟨t.text, leadingBlank ts, rfl, leadingBlank_of_lexemes_cons h hk hcl hts⟩

/-- The entries kept from a text whose tokens are closed are of the kind that reads back. -/
theorem leadingComment_of_mem {pending : List Text} {s : Text} {r : Rule} {e : BodyEnd}
    (hcl : ∀ t ∈ lexemes .ebnf s, t.isClosed = true) (hp : ∀ x ∈ pending, LeadingComment x)
    (h : (r, e) ∈ extractFrom pending (lexemes .ebnf s)) : ∀ x ∈ r.comments, LeadingComment x := by
  induction hn : (lexemes .ebnf s).length using Nat.strongRecOn generalizing pending s with
  | ind n ih =>
    cases hl : lexemes .ebnf s with
    | nil => simp [hl] at h
    | cons t ts =>
      have hlen : n = ts.length + 1 := by rw [← hn, hl, List.length_cons]
      -- whatever is searched next is the end of the text
      have hnext : ∀ {p : List Text} {vs : List Token}, vs <:+ ts → (∀ x ∈ p, LeadingComment x) →
          (r, e) ∈ extractFrom p vs → ∀ x ∈ r.comments, LeadingComment x := by
        intro p vs hvs hp hmem
        obtain ⟨us, hus⟩ := hvs.trans (List.suffix_cons t ts)
        obtain ⟨s', rfl⟩ := lexemes_suffix (hl.trans hus.symm)
        refine ih _ ?_ (fun u hu => hcl u ?_) hp hmem rfl
        · have := hvs.length_le
          omega
        · rw [hl, ← hus]
          exact List.mem_append_right _ hu
      rw [hl] at h
      rcases extractFrom_cases pending t ts with ⟨hk, heq⟩ | ⟨body, hk, ha, heq⟩ | ⟨-, -, heq⟩
      · rw [heq] at h
        refine hnext (List.suffix_refl ts) (fun x hx => ?_) h
        have hts : ts ≠ [] := by
          rintro rfl
          simp at h
        rcases List.mem_append.1 hx with hx | hx
        · exact hp x hx
        · obtain rfl := List.mem_singleton.1 hx
          exact leadingComment_of_lexemes_cons hl hk (hcl t (by simp [hl])) hts
      · rw [heq] at h
        rcases List.mem_cons.1 h with h | h
        · cases h
          exact hp
        · obtain ⟨-, mid, hmid⟩ := takeBody_spec body
          have hrest : (takeBody body).rest <:+ body := ⟨(takeBody body).body ++ mid, hmid.symm⟩
          exact hnext (hrest.trans (suffix_of_afterDefinition? ha)) (by simp) h
      · exact hnext (List.suffix_refl ts) hp (heq ▸ h)

end GrammarText
