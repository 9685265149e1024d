/-!
# Usage and help

The texts that explain the command line, laid out for eighty columns.
-/

namespace GrammarText

/-- The texts that explain a command. -/
structure CommandHelp where
  /-- The name by which the command is called. -/
  program : String
  /-- The lines that show how it is called. -/
  usage : List String
  /-- The lines that explain it. -/
  details : List String

namespace CommandHelp

/-- The lines, each with a line feed. -/
def block (lines : List String) : String :=
  String.join (lines.map (· ++ "\n"))

/-- The whole help. -/
def text (h : CommandHelp) : String :=
  block h.usage ++ "\n" ++ block h.details

/-- The usage and what is wrong with it. -/
def complaint (h : CommandHelp) (message : String) : String :=
  block h.usage ++ s!"{h.program}: error: {message}\n"

/-- The help of the program. -/
def forProgram : CommandHelp where
  program := "g4ebnf"
  usage := [
    "usage: g4ebnf [-h] [--version] [--config CONFIG] [--verbose]",
    "              [--log-level \x7bdebug,info,warn,error\x7d]",
    "              \x7bconvert,format,check\x7d ..."]
  details := [
    "Convert ANTLR4 grammars to EBNF, then format and validate them",
    "",
    "positional arguments:",
    "  \x7bconvert,format,check\x7d",
    "                        Available commands",
    "    convert             Convert ANTLR4 grammars to EBNF",
    "    format              Reformat an EBNF grammar",
    "    check               Validate an EBNF grammar",
    "",
    "options:",
    "  -h, --help            show this help message and exit",
    "  --version             show program's version number and exit",
    "  --config CONFIG       Path to a g4ebnf.toml or .g4ebnfrc configuration file",
    "  --verbose             Print full tracebacks and detailed CLI errors (or set",
    "                        G4EBNF_VERBOSE=1)",
    "  --log-level \x7bdebug,info,warn,error\x7d",
    "                        Set logging level (or set G4EBNF_LOG_LEVEL)"]

/-- The help of the command that converts grammars. -/
def forConvert : CommandHelp where
  program := "g4ebnf convert"
  usage := [
    "usage: g4ebnf convert [-h] [--format] [--width WIDTH] [--output OUTPUT]",
    "                      GRAMMAR [GRAMMAR ...]"]
  details := [
    "Convert one or more ANTLR4 grammar files into a single EBNF document.",
    "",
    "positional arguments:",
    "  GRAMMAR               ANTLR4 grammar files (.g4)",
    "",
    "options:",
    "  -h, --help            show this help message and exit",
    "  --format, --prettify  Format the output EBNF for better readability",
    "  --width WIDTH         Line width for formatting (default: 100)",
    "  --output OUTPUT, -o OUTPUT",
    "                        Write output to file instead of stdout"]

/-- The help of the command that formats a grammar. -/
def forFormat : CommandHelp where
  program := "g4ebnf format"
  usage := [
    "usage: g4ebnf format [-h] [--width WIDTH] [--inplace] [--check]",
    "                     [--style \x7bstandard,compact,expanded\x7d]",
    "                     file"]
  details := [
    "Re-serialize every rule with normalized spacing and aligned alternatives.",
    "",
    "positional arguments:",
    "  file                  EBNF grammar file",
    "",
    "options:",
    "  -h, --help            show this help message and exit",
    "  --width WIDTH         Soft-wrap width (minimum 40)",
    "  --inplace, -i         Rewrite the file in place",
    "  --check               Exit with status 1 if the file is not already",
    "                        formatted",
    "  --style \x7bstandard,compact,expanded\x7d",
    "                        Formatting preset"]

/-- The help of the command that checks a grammar. -/
def forCheck : CommandHelp where
  program := "g4ebnf check"
  usage := [
    "usage: g4ebnf check [-h] [--start RULE] [--json] file"]
  details := [
    "Report duplicate, undefined, unreachable and left-recursive rules.",
    "",
    "positional arguments:",
    "  file          EBNF grammar file",
    "",
    "options:",
    "  -h, --help    show this help message and exit",
    "  --start RULE  Start rule for reachability",
    "  --json        Emit the report as JSON"]

end CommandHelp

end GrammarText
