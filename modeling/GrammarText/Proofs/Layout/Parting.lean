import GrammarText.Proofs.Layout.LineEnds
import GrammarText.Proofs.Layout.Preservation

/-!
# Where the width parts two documents

Trimming drops blanks, but no line feed. So two texts that agree up to blanks until the one goes on with a bar where the
other begins a line (`PartAtBar`) are different texts after the last pass (`PartAtBar.cleanUp_ne`). Two documents that
differ in the line ends of comments come to such a place with the first rule whose alternatives share a line in one of
them only (`partAtBar_renderRule`, `partAtBar_joinedRules`): they are formatted to the same text exactly if there is no
such rule (`formatDocument_evened_eq_iff`).
-/

namespace GrammarText

/-! ### Texts that part -/

/-- Texts that agree up to blanks, until the first goes on with a bar and the second with the next line. -/
inductive PartAtBar : Text → Text → Prop where
  | intro {p p' : Text} (h : SameTrimmed p p') (s t : Text) : PartAtBar (p ++ ' ' :: '|' :: s) (p' ++ '\n' :: t)

section PartAtBar

variable {o : LayoutOptions} {s t u v : Text}

theorem PartAtBar.append_left (h : SameTrimmed u v) (hst : PartAtBar s t) : PartAtBar (u ++ s) (v ++ t) := by
  obtain ⟨hp, s, t⟩ := hst
  rw [← List.append_assoc, ← List.append_assoc]
  exact .intro (h.append hp) s t

theorem PartAtBar.append_right (hst : PartAtBar s t) (u v : Text) : PartAtBar (s ++ u) (t ++ v) := by
  obtain ⟨hp, s, t⟩ := hst
  rw [List.append_assoc, List.append_assoc, List.cons_append, List.cons_append, List.cons_append]
  exact .intro hp (s ++ u) (t ++ v)

/-- In front of a line end trimming drops some blanks more, and no line feed. -/
theorem exists_trimBlanks_append (t : Text) : ∃ b, trimBlanks false t = trimBlanks true t ++ b ∧ '\n' ∉ b := by
  induction t with
  | nil => exact ⟨[], rfl, by simp⟩
  | cons c t ih =>
    obtain ⟨b, ht, hb⟩ := ih
    by_cases hnil : trimBlanks true t = []
    · obtain ⟨hblank, hc, -, htrue⟩ | ⟨hkeep, htrue⟩ := trimBlanks_cons true c t
      · -- all that is left in front of the line end is dropped
        obtain ⟨-, -, -, hfalse⟩ | ⟨-, hfalse⟩ := trimBlanks_cons false c t
        · exact ⟨b, by rw [hfalse, htrue, ht], hb⟩
        · exact ⟨c :: b, by rw [hfalse, htrue, ht, hnil]; rfl, by simp [hb, Ne.symm hc]⟩
      · have hkeep' : isBlank c = false ∨ c = '\n' := by simpa [hnil, endsLine] using hkeep
        refine ⟨b, ?_, hb⟩
        rw [htrue, trimBlanks_cons_keep (hkeep'.imp_right .inl), ht, List.cons_append]
    · -- what follows begins with the same character, so both drop this one or none does
      have hends : endsLine false (trimBlanks false t) = endsLine true (trimBlanks true t) := by
        obtain ⟨d, r, hd⟩ := List.exists_cons_of_ne_nil hnil
        rw [ht, hd]
        rfl
      refine ⟨b, ?_, hb⟩
      rw [trimBlanks, trimBlanks, hends, ht]
      split <;> rfl

/-- Whatever is written behind them, texts that part are different once they are trimmed. -/
theorem PartAtBar.trimBlanks_ne (h : PartAtBar s t) (u v : Text) : trimBlanks true s ++ u ≠ trimBlanks true t ++ v := by
  obtain @⟨p, p', hp, s, t⟩ := h
  obtain ⟨b, hb, hfeed⟩ := exists_trimBlanks_append p
  have hbar : trimBlanks true (' ' :: '|' :: s) = ' ' :: '|' :: trimBlanks true s := by
    have hkeep : trimBlanks true ('|' :: s) = '|' :: trimBlanks true s := trimBlanks_cons_keep (.inl (by decide))
    rw [trimBlanks_cons_keep (.inr (.inr (by rw [hkeep]; rfl))), hkeep]
  have hline : trimBlanks true ('\n' :: t) = '\n' :: trimBlanks true t := trimBlanks_cons_keep (.inr (.inl rfl))
  have hs : trimBlanks true (p ++ ' ' :: '|' :: s) = trimBlanks true p ++ (b ++ ' ' :: '|' :: trimBlanks true s) := by
    rw [trimBlanks_append, hbar, ← List.append_assoc, ← hb]
    rfl
  have ht : trimBlanks true (p' ++ '\n' :: t) = trimBlanks true p ++ '\n' :: trimBlanks true t := by
    rw [trimBlanks_append, hline, hp true]
    rfl
  intro heq
  rw [hs, ht, List.append_assoc, List.append_assoc _ _ v] at heq
  have htails := List.append_cancel_left heq
  cases b with
  | nil => exact absurd (List.cons.inj htails).1 (by decide)
  | cons c b => exact hfeed ((List.cons.inj htails).1 ▸ List.mem_cons_self)

/-- The last pass may write a line feed behind a text, and changes nothing else of what is trimmed. -/
theorem exists_cleanUp_append (ho : o.trimLines = true) (t : Text) : ∃ u, cleanUp o t = trimBlanks true t ++ u := by
  simp only [cleanUp, if_pos ho, joinLines_map_rstrip]
  split
  · exact ⟨['\n'], rfl⟩
  · exact ⟨[], (List.append_nil _).symm⟩

theorem PartAtBar.cleanUp_ne (ho : o.trimLines = true) (h : PartAtBar s t) : cleanUp o s ≠ cleanUp o t := by
  obtain ⟨u, hu⟩ := exists_cleanUp_append ho s
  obtain ⟨v, hv⟩ := exists_cleanUp_append ho t
  rw [hu, hv]
  exact h.trimBlanks_ne u v

end PartAtBar

/-! ### Bodies of several alternatives -/

section Body

variable {lines : List (List Text)}

/-- On one line a bar follows the first alternative. -/
theorem exists_oneLine_append (head : Text) (lines m : List (List Text)) (ms : List (List (List Text))) :
    ∃ s, oneLine head (barredWords (lines :: m :: ms)) = joinWords (head :: lines.flatten) ++ ' ' :: '|' :: s := by
  have hwords : head :: barredWords (lines :: m :: ms) ++ [[';']] =
      (head :: lines.flatten) ++ ['|'] :: (barredWords (m :: ms) ++ [[';']]) := by
    rw [barredWords, List.map_cons, List.map_cons, List.intercalate_cons_cons]
    simp [barredWords]
  have hrest : barredWords (m :: ms) ++ [[';']] ≠ [] := by simp
  refine ⟨' ' :: joinWords (barredWords (m :: ms) ++ [[';']]), ?_⟩
  rw [oneLine, hwords, joinWords_append (List.cons_ne_nil _ _) (List.cons_ne_nil _ _), joinWords_cons hrest]
  rfl

/-- An alternative of one line, or of none, is a line with what introduces it. -/
theorem alternativeLines_short (sign hanging : Text) (hshort : lines.length ≤ 1) (hl : ∀ l ∈ lines, l ≠ []) :
    alternativeLines sign hanging lines = [joinWords (sign :: lines.flatten)] := by
  match lines, hshort with
  | [], _ => rw [alternativeLines, List.flatten_nil, joinWords_singleton]
  | [l], _ =>
    rw [List.flatten_singleton, joinWords_cons (hl l List.mem_cons_self)]
    simp [alternativeLines, leadLines]

/-- In a block a line feed follows the first alternative. -/
theorem exists_block_append (head : Text) (hshort : lines.length ≤ 1) (hl : ∀ l ∈ lines, l ≠ []) (m : List (List Text))
    (ms : List (List (List Text))) (swallows : Bool) :
    ∃ t, block head (lines :: m :: ms) swallows = joinWords (head :: lines.flatten) ++ '\n' :: t := by
  obtain ⟨x, xs, hx⟩ : ∃ x xs,
      alternativeLines (spaces (head.length - 1) ++ ['|']) (spaces (head.length + 1)) m = x :: xs := by
    cases m <;> exact ⟨_, _, rfl⟩
  obtain ⟨rest, hrest⟩ : ∃ rest, blockLines head (lines :: m :: ms) =
      alternativeLines head (spaces (head.length + 1)) lines ++
        (alternativeLines (spaces (head.length - 1) ++ ['|']) (spaces (head.length + 1)) m ++ rest) :=
    ⟨_, by rw [blockLines, List.zipIdx_cons, List.flatMap_cons, List.zipIdx_cons, List.flatMap_cons]; rfl⟩
  have hlines : blockLines head (lines :: m :: ms) = joinWords (head :: lines.flatten) :: x :: (xs ++ rest) := by
    rw [hrest, alternativeLines_short head _ hshort hl, hx]
    rfl
  cases swallows with
  | true => exact ⟨_, by rw [block, hlines, if_pos rfl, List.cons_append, joinLines_cons _ (by simp)]⟩
  | false =>
    have hne : (x :: (xs ++ rest)).dropLast ++
        [(joinWords (head :: lines.flatten) :: x :: (xs ++ rest)).getLast?.getD [] ++ [' ', ';']] ≠ [] := by simp
    exact ⟨_, by rw [block, hlines, if_neg Bool.false_ne_true, List.dropLast_cons_cons, List.cons_append,
      joinLines_cons _ hne]⟩

end Body

/-! ### Rules -/

section Rules

variable {o : LayoutOptions} {name : Text} {pieces pieces' : List (List Token)} {r r' : Rule} {rules rules' : List Rule}

/-- Alternatives that share a line are several, and each is a line or none. -/
theorem short_of_sharesLine (h : sharesLine o name pieces = true) :
    1 < pieces.length ∧ ∀ p ∈ pieces, (layoutLines p).length ≤ 1 := by
  simp only [sharesLine, Bool.and_eq_true, decide_eq_true_eq, Bool.not_eq_true', Bool.or_eq_false_iff] at h
  obtain ⟨⟨hseveral, -, hshort⟩, -⟩ := h
  refine ⟨hseveral, fun p hp => ?_⟩
  have := List.any_eq_false.1 hshort (layoutLines p) (List.mem_map_of_mem hp)
  simpa using this

/-- Bodies part where the alternatives share a line in the first of them only. -/
theorem partAtBar_renderBody (h : pieces'.map (List.map Token.evened) = pieces.map (List.map Token.evened))
    (hshare : sharesLine o name pieces = true) (hshare' : sharesLine o name pieces' = false) :
    PartAtBar (renderBody o name pieces) (renderBody o name pieces') := by
  obtain ⟨hseveral, hshort⟩ := short_of_sharesLine hshare
  have hlength : pieces'.length = pieces.length := by simpa using congrArg List.length h
  rw [renderBody_several o name hseveral, if_pos hshare, renderBody_several o name (by rwa [hlength]), hshare',
    if_neg Bool.false_ne_true]
  have halike := forall₂_map_layoutLines h
  have hfilled := filled_layoutLines pieces'
  match pieces, pieces', hlength, hseveral with
  | p :: q :: ps, p' :: q' :: ps', _, _ =>
    simp only [List.map_cons] at halike hfilled ⊢
    cases halike with
    | cons hp _ =>
      obtain ⟨s, hs⟩ := exists_oneLine_append (ruleHead name) (layoutLines p) (layoutLines q) (ps.map layoutLines)
      obtain ⟨t, ht⟩ := exists_block_append (ruleHead name) (hp.length_eq ▸ hshort p List.mem_cons_self)
        (hfilled _ List.mem_cons_self) (layoutLines q') (ps'.map layoutLines)
        (((p' :: q' :: ps').getLast?.map endsWithLineComment).getD false)
      have hwords : List.Forall₂ SameTrimmed (layoutLines p).flatten (layoutLines p').flatten :=
        List.rel_flatten (hp.imp fun _ _ => LineAlike.words)
      rw [hs, ht]
      exact .intro (sameTrimmed_intercalate [' '] (.cons (.refl _) hwords)) s t

/-- So do rules. -/
theorem partAtBar_renderRule (h : r.SameEvened r') (hshare : r.sharesLine o = true) (hshare' : r'.sharesLine o = false) :
    PartAtBar (renderRule o r) (renderRule o r') := by
  rw [Rule.sharesLine, h.name] at hshare'
  rw [renderRule, renderRule, h.name]
  exact .append_left (sameTrimmed_flatten h.comments) (partAtBar_renderBody h.pieces hshare hshare')

theorem joinedRules_cons (o : LayoutOptions) (r : Rule) {rules : List Rule} (h : rules ≠ []) :
    joinedRules o (r :: rules) =
      renderRule o r ++ List.replicate (o.blankLines + 1).toNat '\n' ++ joinedRules o rules := by
  obtain ⟨q, rules, rfl⟩ := List.exists_cons_of_ne_nil h
  rfl

/-- Documents part in the first rule for which the decision differs. -/
theorem partAtBar_joinedRules (h : List.Forall₂ Rule.SameEvened rules rules')
    (hshare : rules'.map (Rule.sharesLine o) ≠ rules.map (Rule.sharesLine o)) :
    PartAtBar (joinedRules o rules) (joinedRules o rules') ∨ PartAtBar (joinedRules o rules') (joinedRules o rules) := by
  induction h with
  | nil => exact absurd rfl hshare
  | @cons r r' rules rules' hr h ih =>
    have hhead : ∀ q rules, ∃ t, joinedRules o (q :: rules) = renderRule o q ++ t := by
      intro q rules
      cases rules with
      | nil => exact ⟨[], (List.append_nil _).symm⟩
      | cons q' rules => exact ⟨_, by rw [joinedRules_cons o q (List.cons_ne_nil _ _), List.append_assoc]⟩
    obtain ⟨t, ht⟩ := hhead r rules
    obtain ⟨t', ht'⟩ := hhead r' rules'
    by_cases hfirst : r'.sharesLine o = r.sharesLine o
    · have hrest : rules'.map (Rule.sharesLine o) ≠ rules.map (Rule.sharesLine o) := by
        simpa [hfirst] using hshare
      have hne : rules ≠ [] := by
        rintro rfl
        cases h
        exact hrest rfl
      have hne' : rules' ≠ [] := by
        rintro rfl
        cases h
        exact hne rfl
      rw [joinedRules_cons o r hne, joinedRules_cons o r' hne']
      have hbefore := (sameTrimmed_renderRule hr hfirst).append (.refl (List.replicate (o.blankLines + 1).toNat '\n'))
      exact (ih hrest).imp (.append_left hbefore) (.append_left hbefore.symm)
    · rw [ht, ht']
      cases hs : r.sharesLine o with
      | true => exact .inl ((partAtBar_renderRule hr hs (by simpa [hs] using hfirst)).append_right t t')
      | false => exact .inr ((partAtBar_renderRule hr.symm (by simpa [hs] using hfirst) hs).append_right t' t)

end Rules

/-! ### Documents -/

section Document

variable {o : LayoutOptions} {source source' : Text}

/-- Documents whose tokens differ in the line ends of comments succeed together, if line ends are trimmed. Then they are
formatted to the same text exactly if the width puts the alternatives of the same rules on one line. If formatting fails,
the documents are left as they are. -/
theorem formatDocument_evened_eq_iff (ho : o.trimLines = true)
    (h : (scan .ebnf source').map Token.evened = (scan .ebnf source).map Token.evened) :
    (formatDocument o source').success = (formatDocument o source).success ∧
      ((formatDocument o source').text = (formatDocument o source).text ↔
        if (formatDocument o source).success then
          (documentRules source').map (Rule.sharesLine o) = (documentRules source).map (Rule.sharesLine o)
        else source' = source) := by
  have hrules := forall₂_documentRules h
  have hnil : documentRules source' = [] ↔ documentRules source = [] := by
    rw [← List.length_eq_zero_iff, ← List.length_eq_zero_iff, hrules.length_eq]
  by_cases hnone : documentRules source = []
  · have hnorm : trimBlanks true (normalizeWhitespace source') = trimBlanks true (normalizeWhitespace source) := by
      rw [trimBlanks_normalizeWhitespace, trimBlanks_normalizeWhitespace, trimBlanks_eq_of_evened h]
    simp [formatDocument, hnone, hnil.2 hnone, cleanUp_congr ho hnorm, Formatted.success]
  by_cases hgap : o.GapInRange
  · rw [formatDocument_rules hnone hgap, formatDocument_rules (mt hnil.1 hnone) hgap]
    refine ⟨rfl, ?_⟩
    simp only [Formatted.success, Option.isNone_none, if_true]
    constructor
    · intro htext
      by_contra hshare
      obtain hpart | hpart := partAtBar_joinedRules hrules hshare
      · exact hpart.cleanUp_ne ho htext.symm
      · exact hpart.cleanUp_ne ho htext
    · intro hshare
      exact (cleanUp_congr ho (sameTrimmed_joinedRules hrules hshare true)).symm
  · rw [formatDocument_outOfRange hnone hgap, formatDocument_outOfRange (mt hnil.1 hnone) hgap]
    exact ⟨rfl, by simp [Formatted.success]⟩

end Document

/-- Two rules, with comments before them, among other tokens and alone. -/
def evenComments : Text :=
  "// p\n(* q\n*)\na ::= b (* c\n*) | (* d\n*);\nb ::= (* e\n*) | 'x';".toList

/-- The same rules with blanks at the line ends of all comments. -/
def raggedComments : Text :=
  "// p  \n(* q \t\n*)\na ::= b (* c \n*) | (* d \n*);\nb ::= (* e  \n*) | 'x';".toList

theorem formatDocument_evened_eq_iff_raggedComments :
    evenComments ≠ raggedComments ∧ (formatDocument {} raggedComments).text = (formatDocument {} evenComments).text := by
  refine ⟨by decide +kernel, (formatDocument_evened_eq_iff rfl (by decide +kernel)).2.2 ?_⟩
  decide +kernel

/-- A rule of two alternatives that fits into 24 columns. -/
def fittingRule : Text :=
  "a ::= b | (* c\n d *) ;".toList

/-- The same rule with blanks in its comment, too many for 24 columns. -/
def paddedRule : Text :=
  "a ::= b | (* c       \n d *) ;".toList

/-- Blanks in front of a line end count in the width, though they are dropped afterwards: documents that differ in such
blanks are formatted to different texts, and the second pass over such a document changes the text of the first. -/
theorem paddedRule_differs :
    (∀ t ∈ scan .ebnf fittingRule ++ scan .ebnf paddedRule, t.isClosed = true) ∧
      (scan .ebnf paddedRule).map Token.evened = (scan .ebnf fittingRule).map Token.evened ∧
      (formatDocument { width := 24 } paddedRule).text ≠ (formatDocument { width := 24 } fittingRule).text ∧
      (formatDocument { width := 24 } (formatDocument { width := 24 } paddedRule).text).text ≠
        (formatDocument { width := 24 } paddedRule).text :=
  ⟨by decide +kernel, by decide +kernel, by decide +kernel, by decide +kernel⟩

end GrammarText
