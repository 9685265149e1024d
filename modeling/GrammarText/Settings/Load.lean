import GrammarText.Data.Json
import GrammarText.Data.Toml.Document
import GrammarText.Error.Located
import GrammarText.Files.Disk
import GrammarText.Settings.Basic

/-!
# Finding and loading settings

Settings stand in a file of their own, as TOML or as JSON, or in a section of a project file. Without an
explicit path the first of three names in the working folder counts; a project file counts only if its
section says something. `loadSettings` gives the settings or the reason why there are none.
-/

namespace GrammarText

/-- Why the data of a file cannot be had. -/
inductive DataError where
  | file (e : FileError)
  | encoding (e : Utf8Error)
  | json (e : JsonError)
  | toml (e : TomlError)
deriving DecidableEq, Repr

/-- The wording of the error. -/
def DataError.message : DataError → String
  | file e => e.message
  | encoding e => e.message
  | json e => e.message
  | toml e => e.message

/-- The text of the file that a path names. -/
def readText (d : Disk) (p : Path) : Except DataError Text :=
  match d.read p with
  | .error e => .error (.file e)
  | .ok bytes => (decodeUtf8 bytes).mapError .encoding

/-- The data of a JSON file. -/
def readJsonFile (d : Disk) (p : Path) : Except DataError Value :=
  match readText d p with
  | .error e => .error e
  | .ok t => (readJson (normalizeNewlines t)).mapError .json

/-- The data of a TOML file. -/
def readTomlFile (d : Disk) (p : Path) : Except DataError Value :=
  match readText d p with
  | .error e => .error e
  | .ok t => (readToml t).mapError .toml

/-- Why there are no settings, as far as the user can mend it. -/
inductive ConfigError where
  /-- The file that the user names does not exist. -/
  | missing (path : Path)
  /-- The data of a file cannot be had; `path` is what the user named, or the folder searched. -/
  | unreadable (e : DataError) (path : Path)
  /-- The file holds something other than a table. -/
  | notTable (path : Path)
  /-- Entries are at fault. -/
  | invalid (problems : List SettingProblem) (path : Path)
deriving DecidableEq, Repr

namespace ConfigError

/-- The path that goes with the error. -/
def path : ConfigError → Path
  | missing p | unreadable _ p | notTable p | invalid _ p => p

/-- The wording of the error. -/
def message : ConfigError → String
  | missing p => s!"Config file '{p.toString}' does not exist"
  | unreadable e _ => s!"Cannot read config file: {e.message}"
  | notTable _ => "Config file must hold a table of settings"
  | invalid problems _ => s!"Invalid configuration: {describeProblems problems}"

/-- The hint that goes with the error. -/
def hint : ConfigError → Option String
  | invalid _ _ => some "Supported keys are width, start_rule and join_short_rules"
  | _ => none

/-- The error with its place. -/
def toLocated (e : ConfigError) : LocatedError :=
  ⟨e.message, { path := some e.path.toString }, some LocatedError.configCode, e.hint⟩

end ConfigError

/-- Why there are no settings. -/
inductive LoadError where
  | config (e : ConfigError)
  /-- The data of a project file cannot be had while it is looked at. -/
  | data (e : DataError)
  /-- The disk refuses the very path. -/
  | refused (e : FileError)
  /-- The table of tools in a project file is a value of the given type. -/
  | notSection (typeName : String)
deriving DecidableEq, Repr

/-- The wording of the error. -/
def LoadError.message : LoadError → String
  | config e => e.message
  | data e => e.message
  | refused e => e.message
  | notSection typeName => s!"'{typeName}' object has no attribute 'get'"

/-- The name of a project file. -/
def projectFile : String := "pyproject.toml"

/-- The name of the section of the settings. -/
def sectionName : String := "g4ebnf"

/-- The names that a settings file may have, in the order of preference. -/
def configNames : List String :=
  ["g4ebnf.toml", ".g4ebnfrc", projectFile]

/-- The section of the settings in a project file. Whatever is empty counts as an empty table. -/
def projectSection (data : Value) : Except LoadError Value :=
  match (data.get? "tool").filter fun v => !v.isEmpty with
  | none => .ok (.table [])
  | some (.table tools) =>
    match (tools.lookup sectionName).filter fun v => !v.isEmpty with
    | none => .ok (.table [])
    | some v => .ok v
  | some v => .error (.notSection v.typeName)

/-- The part of a file's data that holds the settings. Outside project files it is the section, or all
data if there is no such section. -/
def settingsSection (p : Path) (data : Value) : Except LoadError Value :=
  match data with
  | .table _ =>
    if p.name = projectFile then projectSection data
    else .ok ((data.get? sectionName).getD data)
  | _ => .error (.config (.notTable p))

/-- Whether a file that exists counts as the settings file. -/
def isConfigFile (d : Disk) (p : Path) : Except LoadError Bool :=
  if p.name = projectFile then
    match readTomlFile d p with
    | .error e => .error (.data e)
    | .ok data => (settingsSection p data).map fun v => !v.isEmpty
  else .ok true

/-- Whether a path names a file or a folder. -/
def pathExists (d : Disk) (p : Path) : Except LoadError Bool :=
  (d.contains p).mapError .refused

/-- The first settings file among the paths. -/
def firstConfigFile (d : Disk) : List Path → Except LoadError (Option Path)
  | [] => .ok none
  | p :: ps => do
    if ← pathExists d p then
      if ← isConfigFile d p then return some p
    firstConfigFile d ps

/-- The settings file: the one that the user names, or the first one in the folder. -/
def locateConfig (d : Disk) (folder : Path) : Option Path → Except LoadError (Option Path)
  | some p => return if ← pathExists d p then some p else none
  | none => firstConfigFile d (configNames.map folder.child)

/-- The data of a settings file, whose suffix says what it is written in. -/
def readConfigFile (d : Disk) (p : Path) : Except DataError Value :=
  if p.suffix = ".toml" then readTomlFile d p else readJsonFile d p

/-- The settings of the file at a path. -/
def settingsOfFile (d : Disk) (searched p : Path) : Except LoadError Settings :=
  match readConfigFile d p with
  | .error e => .error (.config (.unreadable e searched))
  | .ok data =>
    match settingsSection p data with
    | .error e => .error e
    | .ok v => (Settings.validate v).mapError fun problems => .config (.invalid problems p)

/-- Loads the settings. The path, if one is given, is what the user named. -/
def loadSettings (d : Disk) (folder : Path) (named : Option Path) : Except LoadError Settings :=
  let searched := named.getD folder
  match named with
  | some p =>
    match pathExists d p with
    | .error e => .error e
    | .ok false => .error (.config (.missing p))
    | .ok true => settingsOfFile d searched p
  | none =>
    match locateConfig d folder none with
    | .error (.data e) => .error (.config (.unreadable e searched))
    | .error (.refused e) => .error (.config (.unreadable (.file e) searched))
    | .error e => .error e
    | .ok none => .ok {}
    | .ok (some p) => settingsOfFile d searched p

end GrammarText
