import GrammarText.Proofs.Antlr.Document
import GrammarText.Proofs.Rule.Outline

/-!
# The paths in a converted document

The paths of the files stand in comments of the document, and what comments say plays no part in which rules are
found. So documents whose lines agree but for what comments say hold the same rules (`Alike.outline_joinLines`), and
the rules of a converted document do not depend on the paths (`grammar_convert_paths`). That takes two things: no path
ends the comment that it stands in, and the rules for phrases leave no token open that would go on into the comments
in front of the rules for tokens.
-/

namespace GrammarText.Antlr

/-! ### Lines that agree but for comments -/

/-- Lines of two documents that agree but for what comments say; where a comment comes behind other lines, their
tokens are closed. -/
inductive Alike : List Text → List Text → Prop where
  | refl (ls : List Text) : Alike ls ls
  | comment {t t' : Text} {ls ls' : List Text} (ht : Enclosable t) (ht' : Enclosable t') (h : Alike ls ls') :
      Alike (blockComment t :: ls) (blockComment t' :: ls')
  | lines {ms ls ls' : List Text} (hcl : ∀ t ∈ lexemes .ebnf (joinLines ms), t.isClosed = true) (h : Alike ls ls') :
      Alike (ms ++ ls) (ms ++ ls')

section Lines

variable {ms ls ls' : List Text} {t t' : Text}

theorem joinLines_append (hm : ms ≠ []) (hl : ls ≠ []) :
    joinLines (ms ++ ls) = joinLines ms ++ '\n' :: joinLines ls := by
  induction ms with
  | nil => exact absurd rfl hm
  | cons m ms ih =>
    rw [List.cons_append, joinLines_cons m (by simp [hl])]
    cases ms with
    | nil => simp [joinLines]
    | cons m' ms => rw [ih (by simp), joinLines_cons m (by simp), List.append_assoc, List.cons_append]

/-- A block comment is seen, but not what it says. -/
theorem outline_blockComment (h : Enclosable t) (s : Text) :
    outline (blockComment t ++ s) = ⟨.comment, [], {}⟩ :: outline s := by
  have hl := lexeme_blockComment h
  have hline : ¬['/', '/'] <+: blockComment t := by
    rintro ⟨z, hz⟩
    cases hz
  rw [outline, lexemes_append hl fun hs => absurd hs hline, dense_cons (by simp)]
  rfl

theorem outline_joinLines_comment (h : Enclosable t) (ls : List Text) :
    outline (joinLines (blockComment t :: ls)) = ⟨.comment, [], {}⟩ :: outline (joinLines ls) := by
  cases ls with
  | nil =>
    have hone : joinLines [blockComment t] = blockComment t ++ joinLines [] := by simp [joinLines]
    rw [hone, outline_blockComment h]
  | cons l ls => rw [joinLines_cons _ (List.cons_ne_nil _ _), outline_blockComment h, outline_newline]

theorem outline_joinLines_append (hcl : ∀ t ∈ lexemes .ebnf (joinLines ms), t.isClosed = true) (ls : List Text) :
    outline (joinLines (ms ++ ls)) = outline (joinLines ms) ++ outline (joinLines ls) := by
  have hnil : outline (joinLines []) = [] := by simp [outline, joinLines]
  by_cases hm : ms = []
  · rw [hm, List.nil_append, hnil, List.nil_append]
  by_cases hl : ls = []
  · rw [hl, List.append_nil, hnil, List.append_nil]
  rw [joinLines_append hm hl, outline_append_newline hcl]

/-- Lines that agree but for comments have the same outline. -/
theorem Alike.outline_joinLines (h : Alike ls ls') : outline (joinLines ls) = outline (joinLines ls') := by
  induction h with
  | refl => rfl
  | comment ht ht' _ ih => rw [outline_joinLines_comment ht, outline_joinLines_comment ht', ih]
  | lines hcl _ ih => rw [outline_joinLines_append hcl, outline_joinLines_append hcl, ih]

theorem Alike.empty (h : Alike ls ls') : Alike ([] :: ls) ([] :: ls') :=
  @Alike.lines [[]] ls ls' (by simp [joinLines]) h

theorem Alike.banner (ht : Enclosable t) (ht' : Enclosable t') (h : Alike ls ls') :
    Alike (banner t ++ ls) (Antlr.banner t' ++ ls') :=
  .comment (enclosable_bar _) (enclosable_bar _) (.comment ht ht' (.comment (enclosable_bar _) (enclosable_bar _) h.empty))

end Lines

/-! ### Documents of the same texts -/

section Document

variable {sources sources' : List GrammarSource} {grammars grammars' : List ConvertedGrammar} {ls ls' : List Text}
  {rules : List AntlrRule}

/-- Parts with the same rules agree but for their banners, if what follows their rules does. -/
theorem alike_sectionLines (title : String) (ht : Enclosable (title.toList ++ " rules from: ".toList))
    (keep : AntlrRule → Bool) (hp : ∀ g ∈ grammars, Enclosable g.path) (hp' : ∀ g ∈ grammars', Enclosable g.path)
    (hr : (grammars.flatMap fun g => g.rules.filter keep) = rules)
    (hr' : (grammars'.flatMap fun g => g.rules.filter keep) = rules)
    (hnext : rules ≠ [] → Alike (rules.map AntlrRule.ebnf ++ [] :: ls) (rules.map AntlrRule.ebnf ++ [] :: ls'))
    (h : Alike ls ls') : Alike (sectionLines title keep grammars ++ ls) (sectionLines title keep grammars' ++ ls') := by
  rcases sectionLines_cases title ht keep hp hr with ⟨rfl, heq⟩ | ⟨hne, t, ht, heq⟩
  · rcases sectionLines_cases title ht keep hp' hr' with ⟨-, heq'⟩ | ⟨hne, -⟩
    · rwa [heq, heq']
    · exact absurd rfl hne
  · rcases sectionLines_cases title ‹_› keep hp' hr' with ⟨hnil, -⟩ | ⟨-, t', ht', heq'⟩
    · exact absurd hnil hne
    · rw [heq, heq', List.append_assoc, List.append_assoc, List.append_assoc, List.append_assoc]
      exact (hnext hne).banner ht ht'

/-- The lines of documents that are made of the same statements agree but for comments. -/
theorem alike_documentLines (hp : ∀ s ∈ sources, Enclosable s.path) (hp' : ∀ s ∈ sources', Enclosable s.path)
    (hg : ∀ g ∈ grammars, Enclosable g.path) (hg' : ∀ g ∈ grammars', Enclosable g.path)
    (hrules : grammars.map ConvertedGrammar.rules = grammars'.map ConvertedGrammar.rules)
    (hopen : (grammars.flatMap fun g => g.rules.filter AntlrRule.isLexer) = [] ∨
      ∀ t ∈ lexemes .ebnf (joinLines ((grammars.flatMap fun g => g.rules.filter fun r => !r.isLexer).map AntlrRule.ebnf)),
        t.isClosed = true) :
    Alike (documentLines sources grammars) (documentLines sources' grammars') := by
  have hkeep : ∀ keep : AntlrRule → Bool, (grammars'.flatMap fun g => g.rules.filter keep) =
      grammars.flatMap fun g => g.rules.filter keep := by
    intro keep
    have hmap : ∀ gs : List ConvertedGrammar, (gs.flatMap fun g => g.rules.filter keep) =
        (gs.map ConvertedGrammar.rules).flatMap fun rs => rs.filter keep := fun gs => (List.flatMap_map ..).symm
    rw [hmap, hmap, hrules]
  have hnone : grammars'.all (·.rules.isEmpty) = grammars.all (·.rules.isEmpty) := by
    have hmap : ∀ gs : List ConvertedGrammar, gs.all (·.rules.isEmpty) =
        (gs.map ConvertedGrammar.rules).all (·.isEmpty) := by
      intro gs
      rw [List.all_map]
      rfl
    rw [hmap, hmap, hrules]
  obtain ⟨t, ht, hfiles⟩ := filesComment_eq_blockComment hp
  obtain ⟨t', ht', hfiles'⟩ := filesComment_eq_blockComment hp'
  have hlexer := alike_sectionLines "Lexer" (by decide) AntlrRule.isLexer hg hg' rfl (hkeep _) (fun _ => .refl _)
    (.refl (if grammars.all (·.rules.isEmpty) then [noRulesComment] else []))
  have hphrase := alike_sectionLines "Parser" (by decide) (fun r => !r.isLexer) hg hg' rfl (hkeep _) ?_ hlexer
  · rw [documentLines, documentLines, hfiles, hfiles', hnone, List.append_assoc, List.append_assoc, List.append_assoc,
      List.append_assoc]
    exact .comment ht ht' hphrase.empty
  · intro _
    rcases hopen with hnil | hcl
    · -- no part for tokens follows
      have hempty : ∀ gs : List ConvertedGrammar, (∀ g ∈ gs, Enclosable g.path) →
          (gs.flatMap fun g => g.rules.filter AntlrRule.isLexer) = [] → sectionLines "Lexer" AntlrRule.isLexer gs = [] := by
        intro gs hgs h
        rcases sectionLines_cases "Lexer" (by decide) AntlrRule.isLexer hgs h with ⟨-, heq⟩ | ⟨hne, -⟩
        · exact heq
        · exact absurd rfl hne
      rw [hempty grammars hg hnil, hempty grammars' hg' ((hkeep _).trans hnil)]
      exact .refl _
    · exact .lines hcl hlexer.empty

/-- The rules of a converted document do not depend on the paths of the files: documents of the same texts hold the
same rules, as far as names and significant tokens go. No path may end a comment, and if there are rules for
tokens, the rules for phrases in front of them may leave no token open. -/
theorem grammar_convert_paths (htexts : sources.map GrammarSource.text = sources'.map GrammarSource.text)
    (hp : ∀ s ∈ sources, Enclosable s.path) (hp' : ∀ s ∈ sources', Enclosable s.path)
    (hopen : (convert sources).lexerRules = [] ∨
      ∀ t ∈ scan .ebnf (joinLines ((convert sources).phraseRules.map AntlrRule.ebnf)), t.isClosed = true) :
    (documentRules (convert sources).text).map Rule.grammar = (documentRules (convert sources').text).map Rule.grammar := by
  have hgrammars : ∀ ss : List GrammarSource, (∀ s ∈ ss, Enclosable s.path) →
      ∀ g ∈ ss.map readGrammar, Enclosable g.path := by
    intro ss hss g hg
    obtain ⟨s, hs, rfl⟩ := List.mem_map.1 hg
    exact hss s hs
  have hrules : ∀ ss : List GrammarSource, (ss.map readGrammar).map ConvertedGrammar.rules =
      (ss.map GrammarSource.text).map fun t => (readStatements (scan .antlr t)).filterMap Statement.rule? := by
    intro ss
    rw [List.map_map, List.map_map]
    rfl
  have hclosed : (convert sources).lexerRules = [] ∨
      ∀ t ∈ lexemes .ebnf (joinLines ((convert sources).phraseRules.map AntlrRule.ebnf)), t.isClosed = true := by
    refine hopen.imp_right fun h t ht => ?_
    obtain ⟨u, hu, rfl⟩ := List.mem_map.1 ht
    exact h u hu
  apply grammar_of_outline
  apply Alike.outline_joinLines
  refine alike_documentLines hp hp' (hgrammars _ hp) (hgrammars _ hp') ?_ hclosed
  rw [hrules, hrules, htexts]

end Document

/-- The texts of `sumGrammars`, both in files of one path. -/
def pathlessGrammars : List GrammarSource :=
  sumGrammars.map fun s => ⟨"(* ; *".toList, s.text⟩

theorem grammar_convert_paths_sumGrammars :
    (convert sumGrammars).text ≠ (convert pathlessGrammars).text ∧
      (documentRules (convert sumGrammars).text).map Rule.grammar =
        (documentRules (convert pathlessGrammars).text).map Rule.grammar :=
  ⟨by decide +kernel, grammar_convert_paths (by decide +kernel) (by decide +kernel) (by decide +kernel)
    (.inr (by decide +kernel))⟩

/-- A path that ends a comment can add a rule. -/
theorem pathRule_added :
    ¬∀ s s' : List GrammarSource, s.map GrammarSource.text = s'.map GrammarSource.text →
      (documentRules (convert s).text).map Rule.grammar = (documentRules (convert s').text).map Rule.grammar := by
  intro h
  have hrules := h [⟨"*) x ::= y ; (*.g4".toList, "a : 'b' ;".toList⟩] [⟨"a.g4".toList, "a : 'b' ;".toList⟩] rfl
  have hlength := congrArg List.length hrules
  revert hlength
  decide +kernel

-- A literal that is left open goes on into the path of the rules for tokens.
example : (documentRules (convert [⟨"a.g4".toList, "a : 'x".toList⟩, ⟨"b'.g4".toList, "B : c ;".toList⟩]).text).length = 2 ∧
    (documentRules (convert [⟨"a.g4".toList, "a : 'x".toList⟩, ⟨"b.g4".toList, "B : c ;".toList⟩]).text).length = 1 := by
  decide +kernel

end GrammarText.Antlr
