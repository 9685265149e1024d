import GrammarText.Antlr.Statement
import GrammarText.Layout.Document

/-!
# From ANTLR to EBNF

Several ANTLR grammars become one EBNF document: a comment with the files, the rules for phrases of all
files, then the rules for tokens of all files, each part under a banner that names its files.
-/

namespace GrammarText.Antlr

/-- A text and the path of the file that holds it. -/
structure GrammarSource where
  path : Text
  text : Text
deriving DecidableEq, Repr

/-- What was read from one file. -/
structure ConvertedGrammar where
  path : Text
  kind : GrammarKind
  statements : List Statement

/-- The rules that a file holds. -/
def ConvertedGrammar.rules (g : ConvertedGrammar) : List AntlrRule :=
  g.statements.filterMap Statement.rule?

/-- The kind that the last header among the statements announces. -/
def announcedKind (ss : List Statement) : Option GrammarKind :=
  (ss.filterMap Statement.header?).getLast?

/-- Reads one grammar. -/
def readGrammar (source : GrammarSource) : ConvertedGrammar :=
  let ss := readStatements (scan .antlr source.text)
  ⟨source.path, inferKind (announcedKind ss) ((ss.filterMap Statement.rule?).map AntlrRule.name), ss⟩

/-- The comment before a fragment rule. -/
def fragmentMark : Text :=
  "(* fragment *) ".toList

/-- A rule in EBNF. -/
def AntlrRule.ebnf (r : AntlrRule) : Text :=
  let body := joinTokens r.body
  (if r.isFragment then fragmentMark else []) ++ ruleHead r.name ++
    (if body.isEmpty then [] else ' ' :: body) ++ [' ', ';']

/-- A path with slashes between its parts. -/
def slashed (path : Text) : Text :=
  path.map fun c => if c == '\\' then '/' else c

/-- A text inside a block comment. -/
def blockComment (t : Text) : Text :=
  "(* ".toList ++ t ++ " *)".toList

/-- The lines of a banner, an empty one last. -/
def banner (title : Text) : List Text :=
  let bar := blockComment (List.replicate title.length '=')
  [bar, blockComment title, bar, []]

/-- The comment that names all files. -/
def filesComment (sources : List GrammarSource) : Text :=
  match sources with
  | [source] => blockComment ("Source file: ".toList ++ slashed source.path)
  | _ =>
    blockComment ("Source files: ".toList ++ " , ".toList.intercalate (sources.map fun s => slashed s.path))

/-- The lines of one part: the rules that pass the test, under a banner. No rules, no lines. -/
def sectionLines (title : String) (keep : AntlrRule → Bool) (grammars : List ConvertedGrammar) :
    List Text :=
  let entries := grammars.flatMap fun g => (g.rules.filter keep).map fun r => (slashed g.path, r)
  if entries.isEmpty then []
  else
    let files := (entries.map (·.1)).eraseDups
    banner (title.toList ++ " rules from: ".toList ++ ", ".toList.intercalate files) ++
      entries.map (·.2.ebnf) ++ [[]]

/-- The comment in place of rules. -/
def noRulesComment : Text :=
  "(* No rules were found after stripping ANTLR-specific constructs. *)".toList

/-- The lines of the document. -/
def documentLines (sources : List GrammarSource) (grammars : List ConvertedGrammar) : List Text :=
  [filesComment sources, []] ++ sectionLines "Parser" (fun r => !r.isLexer) grammars ++
    sectionLines "Lexer" AntlrRule.isLexer grammars ++
    if grammars.all (·.rules.isEmpty) then [noRulesComment] else []

/-- An EBNF document and the grammars that it was made of. -/
structure Conversion where
  text : Text
  grammars : List ConvertedGrammar

namespace Conversion

/-- The rules for phrases, of all files. -/
def phraseRules (c : Conversion) : List AntlrRule :=
  c.grammars.flatMap fun g => g.rules.filter fun r => !r.isLexer

/-- The rules for tokens, of all files. -/
def lexerRules (c : Conversion) : List AntlrRule :=
  c.grammars.flatMap fun g => g.rules.filter AntlrRule.isLexer

end Conversion

/-- Converts grammars to one EBNF document. -/
def convert (sources : List GrammarSource) : Conversion :=
  let grammars := sources.map readGrammar
  ⟨joinLines (documentLines sources grammars), grammars⟩

/-- Converts grammars to one EBNF document, formatted to the given width. -/
def convertFormatted (sources : List GrammarSource) (width : Int) : Conversion :=
  let c := convert sources
  { c with text := (formatDocument { width := width } c.text).text }

end GrammarText.Antlr
