import GrammarText.Proofs.Antlr.Comment
import GrammarText.Proofs.Antlr.Line
import GrammarText.Proofs.Layout.Trim
import Mathlib.Data.List.Forall2

/-!
# A converted document read back

The document that grammars are converted to consists of comments, empty lines and rules (`Holds`). Its rules are
found again in order (`says_of_holds`): the rules for phrases of all files, then the rules for tokens of all
files, each with its name, its body and its fragment mark (`documentRules_convert`).
-/

namespace GrammarText.Antlr

/-! ### Lines -/

/-- Lines of a document and the rules that they hold: every line is empty, a comment or a rule. -/
inductive Holds : List Text → List AntlrRule → Prop where
  | nil : Holds [] []
  | empty {ls : List Text} {rs : List AntlrRule} (h : Holds ls rs) : Holds ([] :: ls) rs
  | comment {t : Text} {ls : List Text} {rs : List AntlrRule} (ht : Enclosable t) (h : Holds ls rs) :
      Holds (blockComment t :: ls) rs
  | rule {r : AntlrRule} {ls : List Text} {rs : List AntlrRule} (h : Holds ls rs) : Holds (r.ebnf :: ls) (r :: rs)

section Lines

variable {ls ms : List Text} {rs qs : List AntlrRule}

theorem Holds.append (h : Holds ls rs) (hm : Holds ms qs) : Holds (ls ++ ms) (rs ++ qs) := by
  induction h with
  | nil => exact hm
  | empty _ ih => exact .empty ih
  | comment ht _ ih => exact .comment ht ih
  | rule _ ih => exact .rule ih

theorem holds_rules (rs : List AntlrRule) : Holds (rs.map AntlrRule.ebnf) rs := by
  induction rs with
  | nil => exact .nil
  | cons r rs ih => exact .rule ih

/-- Whitespace is passed over at the end of a line. -/
theorem extractFrom_newline (pending : List Text) (s : Text) :
    extractFrom pending (lexemes .ebnf ('\n' :: s)) = extractFrom pending (lexemes .ebnf s) :=
  extractFrom_gap (g := ['\n']) (by simp [isSpace]) pending s

theorem mem_leadingBlank_newline (s : Text) : '\n' ∈ leadingBlank (lexemes .ebnf ('\n' :: s)) := by
  obtain ⟨w, r, rfl, hw, hr⟩ := exists_run s
  have hall : ∀ x ∈ '\n' :: w, isSpace x = true := by simpa [isSpace] using hw
  have h := @lexemes_gap .ebnf r ('\n' :: w) (List.cons_ne_nil _ _) hall hr
  rw [List.cons_append] at h
  simp [h, leadingBlank]

/-- The rules of a document that consists of comments, empty lines and rules. -/
theorem says_of_holds (h : Holds ls rs) (hr : ∀ r ∈ rs, Convertible r ∧ ∃ s, IsRead (scan .antlr s) r)
    {pending : List Text} (hp : pending.getLast? ≠ some fragmentMark) :
    List.Forall₂ Says rs ((extractFrom pending (lexemes .ebnf (joinLines ls))).map (·.1)) := by
  induction h generalizing pending with
  | nil => simp [joinLines]
  | @empty ls rs h ih =>
    cases ls with
    | nil => exact ih hr hp
    | cons l ls =>
      rw [joinLines_cons _ (List.cons_ne_nil _ _), List.nil_append, extractFrom_newline]
      exact ih hr hp
  | @comment t ls rs ht h ih =>
    have hl := lexeme_blockComment ht
    have hnl : ¬['/', '/'] <+: blockComment t := by
      rintro ⟨z, hz⟩
      cases hz
    cases ls with
    | nil =>
      cases h
      have hlex : lexemes .ebnf (joinLines [blockComment t]) = [⟨.comment, blockComment t, {}⟩] := by
        rw [show joinLines [blockComment t] = blockComment t by simp [joinLines], lexemes_lexeme hl]
      rw [hlex, extractFrom_comment rfl, extractFrom_nil]
      exact .nil
    | cons l ls =>
      rw [joinLines_cons _ (List.cons_ne_nil _ _), lexemes_append hl fun hs => absurd hs hnl,
        extractFrom_comment rfl, extractFrom_newline]
      apply ih hr
      -- a comment before the end of a line is no fragment mark
      rw [List.getLast?_concat]
      intro he
      have hm : '\n' ∈ fragmentMark := by
        rw [← Option.some.inj he]
        exact List.mem_append_right _ (mem_leadingBlank_newline (joinLines (l :: ls)))
      revert hm
      decide
  | @rule r ls rs h ih =>
    obtain ⟨hc, s, hread⟩ := hr r List.mem_cons_self
    have hrest := fun q hq => hr q (List.mem_cons_of_mem _ hq)
    have hnil : ([] : List Text).getLast? ≠ some fragmentMark := by simp
    have hnext := ih hrest hnil
    cases ls with
    | nil =>
      obtain ⟨q, hq, heq⟩ := extractFrom_ebnf hread hc hp []
      have hone : joinLines [r.ebnf] = r.ebnf ++ [] := by simp [joinLines]
      rw [hone, heq, List.map_cons]
      exact .cons hq hnext
    | cons l ls =>
      obtain ⟨q, hq, heq⟩ := extractFrom_ebnf hread hc hp ('\n' :: joinLines (l :: ls))
      rw [joinLines_cons _ (List.cons_ne_nil _ _), heq, List.map_cons, extractFrom_newline]
      exact .cons hq hnext

end Lines

/-! ### Documents -/

section Document

variable {sources : List GrammarSource} {grammars : List ConvertedGrammar}

theorem enclosable_bar (n : Nat) : Enclosable (List.replicate n '=') := by
  intro hi
  have hm : '*' ∈ List.replicate n '=' := hi.subset (by simp)
  have := List.eq_of_mem_replicate hm
  revert this
  decide

theorem holds_banner {title : Text} (h : Enclosable title) : Holds (banner title) [] :=
  .comment (enclosable_bar _) (.comment h (.comment (enclosable_bar _) (.empty .nil)))

/-- The comment that names all files is one comment. -/
theorem filesComment_eq_blockComment (h : ∀ s ∈ sources, Enclosable s.path) :
    ∃ t, Enclosable t ∧ filesComment sources = blockComment t := by
  have hmany : ∀ l ∈ sources.map fun s => slashed s.path, Enclosable l := by
    intro l hl
    obtain ⟨s, hs, rfl⟩ := List.mem_map.1 hl
    exact enclosable_slashed (h s hs)
  unfold filesComment
  split
  · rename_i s
    exact ⟨_, Enclosable.append (by decide) (enclosable_slashed (h s (by simp))) (.inl (by decide)), rfl⟩
  · exact ⟨_, Enclosable.append (by decide)
      (enclosable_intercalate (by decide) (by decide) (by decide) (by decide) hmany) (.inl (by decide)), rfl⟩

theorem holds_filesComment (h : ∀ s ∈ sources, Enclosable s.path) : Holds [filesComment sources, []] [] := by
  obtain ⟨t, ht, heq⟩ := filesComment_eq_blockComment h
  rw [heq]
  exact .comment ht (.empty .nil)

/-- A part of the document: nothing if no rule passes its test, else a banner and the rules that do. -/
theorem sectionLines_cases (title : String) (ht : Enclosable (title.toList ++ " rules from: ".toList))
    (keep : AntlrRule → Bool) (h : ∀ g ∈ grammars, Enclosable g.path) {rules : List AntlrRule}
    (hrules : (grammars.flatMap fun g => g.rules.filter keep) = rules) :
    (rules = [] ∧ sectionLines title keep grammars = []) ∨
      (rules ≠ [] ∧ ∃ t, Enclosable t ∧
        sectionLines title keep grammars = banner t ++ (rules.map AntlrRule.ebnf ++ [[]])) := by
  have hentries : (grammars.flatMap fun g => (g.rules.filter keep).map fun r => (slashed g.path, r)).map (·.2) = rules := by
    rw [List.map_flatMap, ← hrules]
    simp [Function.comp_def]
  have hpaths : ∀ p ∈ (grammars.flatMap fun g => (g.rules.filter keep).map fun r => (slashed g.path, r)).map (·.1),
      Enclosable p := by
    intro p hp
    obtain ⟨e, he, rfl⟩ := List.mem_map.1 hp
    obtain ⟨g, hg, he⟩ := List.mem_flatMap.1 he
    obtain ⟨r, -, rfl⟩ := List.mem_map.1 he
    exact enclosable_slashed (h g hg)
  unfold sectionLines
  dsimp only
  generalize (grammars.flatMap fun g => (g.rules.filter keep).map fun r => (slashed g.path, r)) = entries at hpaths hentries
  subst hentries
  split
  · rename_i he
    exact .inl ⟨by rw [List.isEmpty_iff.1 he]; rfl, rfl⟩
  · rename_i he
    have hfiles : Enclosable (", ".toList.intercalate (entries.map (·.1)).eraseDups) :=
      enclosable_intercalate (by decide) (by decide) (by decide) (by decide)
        fun p hp => hpaths p (List.mem_eraseDups.1 hp)
    have htitle : Enclosable (title.toList ++ " rules from: ".toList ++
        ", ".toList.intercalate (entries.map (·.1)).eraseDups) := by
      refine ht.append hfiles (.inl ?_)
      rw [List.getLast?_append_of_ne_nil _ (by decide)]
      decide
    refine .inr ⟨by simpa [List.isEmpty_iff] using he, _, htitle, ?_⟩
    rw [List.append_assoc, List.map_map]
    rfl

/-- A part of the document holds the rules that pass its test. -/
theorem holds_sectionLines (title : String) (ht : Enclosable (title.toList ++ " rules from: ".toList))
    (keep : AntlrRule → Bool) (h : ∀ g ∈ grammars, Enclosable g.path) :
    Holds (sectionLines title keep grammars) (grammars.flatMap fun g => g.rules.filter keep) := by
  rcases sectionLines_cases title ht keep h rfl with ⟨hnil, heq⟩ | ⟨-, t, ht, heq⟩
  · rw [hnil, heq]
    exact .nil
  · rw [heq]
    simpa using (holds_banner ht).append ((holds_rules _).append (.empty .nil))

theorem holds_documentLines (hs : ∀ s ∈ sources, Enclosable s.path) (hg : ∀ g ∈ grammars, Enclosable g.path) :
    Holds (documentLines sources grammars)
      ((grammars.flatMap fun g => g.rules.filter fun r => !r.isLexer) ++
        grammars.flatMap fun g => g.rules.filter AntlrRule.isLexer) := by
  have hphrase := holds_sectionLines "Parser" (by decide) (fun r => !r.isLexer) hg
  have hlexer := holds_sectionLines "Lexer" (by decide) AntlrRule.isLexer hg
  have hnone : Holds (if grammars.all (·.rules.isEmpty) then [noRulesComment] else []) [] := by
    split
    · exact .comment (t := "No rules were found after stripping ANTLR-specific constructs.".toList) (by decide) .nil
    · exact .nil
  have := (((holds_filesComment hs).append hphrase).append hlexer).append hnone
  simpa [documentLines] using this

theorem says_of_bare {r : AntlrRule} {q : Rule} (h : Says r q.bare) : Says r q where
  name := h.name
  body := by
    rw [← h.body, Rule.bare]
    simp [spelling, significant, List.flatMap_map, List.filter_map, Function.comp_def]
  fragment := h.fragment

/-- The document that grammars are converted to holds their rules: first those for phrases and then those for
tokens, in the order of the sources, each with its name, its body and its fragment mark. -/
theorem documentRules_convert (sources : List GrammarSource) (hp : ∀ s ∈ sources, ¬['*', ')'] <:+: s.path)
    (hr : ∀ s ∈ sources, ∀ r ∈ (readGrammar s).rules, Convertible r) :
    List.Forall₂ Says ((convert sources).phraseRules ++ (convert sources).lexerRules)
      (documentRules (convert sources).text) := by
  have hgrammars : ∀ g ∈ sources.map readGrammar, Enclosable g.path := by
    intro g hg
    obtain ⟨s, hs, rfl⟩ := List.mem_map.1 hg
    exact hp s hs
  have hrules : ∀ r ∈ (convert sources).phraseRules ++ (convert sources).lexerRules,
      Convertible r ∧ ∃ s, IsRead (scan .antlr s) r := by
    intro r h
    have hmem : ∃ g ∈ sources.map readGrammar, r ∈ g.rules := by
      rcases List.mem_append.1 h with h | h
      all_goals
        obtain ⟨g, hg, h⟩ := List.mem_flatMap.1 h
        exact ⟨g, hg, (List.mem_filter.1 h).1⟩
    obtain ⟨g, hg, h⟩ := hmem
    obtain ⟨s, hs, rfl⟩ := List.mem_map.1 hg
    exact ⟨hr s hs r h, s.text, isRead_of_mem_readGrammar h⟩
  have hnil : ([] : List Text).getLast? ≠ some fragmentMark := by simp
  have hsays := says_of_holds (holds_documentLines hp hgrammars) hrules hnil
  have hbare : List.Forall₂ Says ((convert sources).phraseRules ++ (convert sources).lexerRules)
      ((documentRules (convert sources).text).map Rule.bare) := by
    rw [documentRules_bare]
    exact hsays
  rw [List.forall₂_map_right_iff] at hbare
  exact hbare.imp fun _ _ => says_of_bare

end Document

/-- A grammar for phrases and one for tokens. -/
def sumGrammars : List GrammarSource :=
  [⟨"a\\sums.g4".toList,
      "parser grammar Sums; sum : term ('+' term)* // left\n | ; term : x=NUMBER # one | [a] .. b ;".toList⟩,
    ⟨"tokens.g4".toList, "fragment DIGIT : [0-9] ; NUMBER : DIGIT+ ('..' DIGIT)? -> skip ;".toList⟩]

theorem documentRules_convert_sumGrammars :
    (documentRules (convert sumGrammars).text).length = 4 ∧
      List.Forall₂ Says ((convert sumGrammars).phraseRules ++ (convert sumGrammars).lexerRules)
        (documentRules (convert sumGrammars).text) :=
  ⟨by decide +kernel, documentRules_convert sumGrammars (by decide +kernel) (by decide +kernel)⟩

end GrammarText.Antlr
