import GrammarText.Proofs.Rule.Alternatives
import GrammarText.Proofs.Scan.Closing
import Mathlib.Data.List.Chain

/-!
# Scanning in parts

A text may be cut between any two of its tokens: each of the parts, scanned alone, has the tokens that it had in the
whole (`scan_parts`).

Behind the cut this is how the scanner runs. Before the cut a token sees only a beginning of what followed it. A
token that stands apart from a text stands apart from every beginning of it (`Apart.before`), and a token without its
end has nothing behind it that could be cut off.
-/

namespace GrammarText

section Prefix

variable {d : Dialect} {k : TokenKind} {t p s : Text} {x : Char}

theorem mem_head?_of_isPrefix (hp : p <+: s) (h : x ∈ p.head?) : x ∈ s.head? := by
  obtain ⟨r, rfl⟩ := hp
  exact List.mem_head?_append_of_mem_head? h

/-- The beginnings of a text that begins no comment begin none. -/
theorem commentForm?_of_isPrefix (hp : p <+: s) (h : commentForm? d s = none) : commentForm? d p = none := by
  simp only [commentForm?, List.isPrefixOf_iff_prefix] at h ⊢
  split at h
  · cases h
  rename_i hstarred
  split at h
  · cases h
  rename_i hslashed
  split at h
  · cases h
  rename_i hline
  rw [if_neg fun ho => hstarred ⟨ho.1, ho.2.trans hp⟩, if_neg fun ho => hslashed (ho.trans hp),
    if_neg fun ho => hline (ho.trans hp)]

theorem KeepsSign.before (h : KeepsSign d t s) (hp : p <+: s) : KeepsSign d t p := by
  have htp : t ++ p <+: t ++ s := (List.prefix_append_right_inj t).2 hp
  exact ⟨commentForm?_of_isPrefix htp h.1, fun op hop ho => h.2 op hop (ho.trans htp)⟩

/-- A token that stands apart from a text stands apart from its beginnings. -/
theorem Apart.before (h : Apart d k t s) (hp : p <+: s) : Apart d k t p := by
  cases k with
  | whitespace => exact fun x hx => h x (mem_head?_of_isPrefix hp hx)
  | comment => exact fun hline x hx => h hline x (mem_head?_of_isPrefix hp hx)
  | operator => exact KeepsSign.before h hp
  | identifier => exact ⟨h.1.before hp, fun hword x hx => h.2 hword x (mem_head?_of_isPrefix hp hx)⟩
  | literal | charClass | action => trivial

end Prefix

section Parts

variable {d : Dialect} {s : Text} {t u : Token} {ts us : List Token}

/-- The first tokens of a text are the tokens of what they spell. -/
theorem lexemes_spelling_of_append (h : lexemes d s = ts ++ us) : lexemes d (spelling ts) = ts := by
  induction ts generalizing s with
  | nil => exact lexemes_nil d
  | cons t ts ih =>
    obtain ⟨ahead, rfl, hts, hlexeme⟩ := lexemes_eq_cons h
    cases hcl : t.isClosed with
    | false =>
      obtain ⟨htext, hnil⟩ := eq_nil_of_not_isClosed h hcl
      obtain ⟨rfl, rfl⟩ := List.append_eq_nil_iff.1 hnil
      rw [← htext] at h
      rwa [show spelling [t] = t.text from List.append_nil _]
    | true =>
      obtain ⟨hl, ha⟩ := hlexeme hcl
      obtain ⟨rest, rfl, -⟩ := lexemes_eq_append hts.symm
      have hmem : t ∈ lexemes d (t.text ++ (spelling ts ++ rest)) := by
        rw [h]
        exact List.mem_cons_self
      change lexemes d (t.text ++ spelling ts) = t :: ts
      rw [lexemes_append hl (ha.before (List.prefix_append _ _)), ih hts.symm]
      exact congrArg (· :: ts) (bare_of_mem_lexemes hmem)

/-- A token of a text is the only token of its own text. -/
theorem lexemes_text (h : t ∈ lexemes d s) : lexemes d t.text = [t] := by
  obtain ⟨ts, us, hts⟩ := List.append_of_mem h
  obtain ⟨rest, -, hrest⟩ := lexemes_eq_append hts
  have ht : lexemes d rest = [t] ++ us := hrest.symm
  have halone := lexemes_spelling_of_append ht
  rwa [show spelling [t] = t.text from List.append_nil _] at halone

/-- Whether the token is an identifier of ASCII letters, digits and underscores that does not begin with a digit. The
other identifiers are characters that fit no form. -/
def Token.isWord (t : Token) : Bool :=
  t.kind == .identifier && t.text.head?.any isNameStart && t.text.all isNamePart

/-- Neighbours are not both whitespace, and not both words. -/
theorem not_mergeable_of_lexemes (h : lexemes d s = t :: u :: us) :
    ¬(t.kind = .whitespace ∧ u.kind = .whitespace) ∧ ¬(t.isWord = true ∧ u.isWord = true) := by
  obtain ⟨ahead, rfl, hus, ht⟩ := lexemes_eq_cons h
  obtain ⟨rest, rfl, -, hu⟩ := lexemes_eq_cons hus.symm
  constructor
  · rintro ⟨htk, huk⟩
    have hcl : ∀ v : Token, v.kind = .whitespace → v.isClosed = true := fun v hv => by simp [Token.isClosed, hv]
    obtain ⟨-, ha⟩ := ht (hcl t htk)
    obtain ⟨hl, -⟩ := hu (hcl u huk)
    rw [htk] at ha
    rw [huk] at hl
    cases htext : u.text with
    | nil => exact hl.ne_nil htext
    | cons c r =>
      rw [htext] at hl ha
      cases hl with
      | space hc => exact absurd (ha c rfl) (by simp [hc])
  · rintro ⟨htw, huw⟩
    simp only [Token.isWord, Bool.and_eq_true, beq_iff_eq] at htw huw
    obtain ⟨-, ha⟩ := ht (by simp [Token.isClosed, htw.1.1])
    rw [htw.1.1] at ha
    cases htext : u.text with
    | nil => simp [htext] at huw
    | cons c r =>
      have hpart : isNamePart c = true := by
        simp only [htext, List.all_cons, Bool.and_eq_true] at huw
        exact huw.2.1
      rw [htext] at ha
      exact absurd (ha.2 htw.1.2 c rfl) (by simp [hpart])

/-- A text may be cut between any two of its tokens: what the first tokens spell has these tokens, and the rest of the
text has the others. So each token is the only token of its own text. Neighbours are not both whitespace, and
not both words. -/
theorem scan_parts (d : Dialect) (source : Text) :
    (∀ k, ∃ rest, source = spelling ((scan d source).take k) ++ rest ∧
      (scan d (spelling ((scan d source).take k))).map Token.sign = ((scan d source).take k).map Token.sign ∧
      (scan d rest).map Token.sign = ((scan d source).drop k).map Token.sign) ∧
    (∀ t ∈ scan d source, (scan d t.text).map Token.sign = [t.sign]) ∧
    (scan d source).IsChain fun t u =>
      ¬(t.kind = .whitespace ∧ u.kind = .whitespace) ∧ ¬(t.isWord = true ∧ u.isWord = true) := by
  refine ⟨fun k => ?_, fun t ht => ?_, ?_⟩
  · have hcut : lexemes d source = ((scan d source).take k).map Token.bare ++ ((scan d source).drop k).map Token.bare := by
      rw [← List.map_append, List.take_append_drop, lexemes]
    obtain ⟨rest, hsource, hrest⟩ := lexemes_eq_append hcut
    have hfirst := lexemes_spelling_of_append hcut
    rw [spelling_map_bare] at hsource hfirst
    exact ⟨rest, hsource, map_sign_eq_iff.2 hfirst, map_sign_eq_iff.2 hrest.symm⟩
  · have hmem : t.bare ∈ lexemes d source := List.mem_map_of_mem ht
    have halone : (scan d t.text).map Token.bare = [t].map Token.bare := lexemes_text hmem
    exact map_sign_eq_iff.2 halone
  · rw [List.isChain_iff_forall_rel_of_append_cons_cons]
    intro t u before after hscan
    have hcut : lexemes d source = before.map Token.bare ++ t.bare :: u.bare :: after.map Token.bare := by
      rw [lexemes, hscan, List.map_append, List.map_cons, List.map_cons]
    obtain ⟨rest, -, hrest⟩ := lexemes_eq_append hcut
    exact (not_mergeable_of_lexemes hrest.symm :)

end Parts

end GrammarText
