/-!
# Log

Records of what the program does, for whoever wants to know.
-/

namespace GrammarText

/-- How much a record matters. -/
inductive LogLevel where
  | debug
  | info
  | warning
  | error
deriving DecidableEq, Repr

namespace LogLevel

/-- The levels in order. -/
def rank : LogLevel → Nat
  | debug => 0
  | info => 1
  | warning => 2
  | error => 3

/-- The name of the level in a record. -/
def label : LogLevel → String
  | debug => "DEBUG"
  | info => "INFO"
  | warning => "WARNING"
  | error => "ERROR"

/-- The names that a user can give to a level. -/
def names : List (String × LogLevel) :=
  [("debug", debug), ("info", info), ("warn", warning), ("warning", warning), ("error", error)]

/-- The level that a user names, in upper or lower case; any other name stands for warnings. -/
def ofName (s : String) : LogLevel :=
  (names.lookup s.toLower).getD warning

end LogLevel

/-- A record. -/
structure LogRecord where
  /-- The part of the program that made the record. -/
  source : String
  level : LogLevel
  text : String
deriving DecidableEq, Repr

/-- The line of a record. -/
def LogRecord.line (time : String) (r : LogRecord) : String :=
  s!"{time} - g4ebnf.{r.source} - {r.level.label} - {r.text}\n"

/-- The lines of the records that matter at least as much as `least`. -/
def logText (time : String) (least : LogLevel) (rs : List LogRecord) : String :=
  String.join ((rs.filter fun r => least.rank ≤ r.level.rank).map (LogRecord.line time))

end GrammarText
