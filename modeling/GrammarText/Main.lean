import GrammarText.Command.Run
import Std.Time.Format

/-!
# The command line

The program around `run`: it looks at the places on the disk that a request names, lets `run` decide, and
prints and writes what `run` answers. Whatever the disk holds elsewhere makes no difference to a request.
-/

namespace GrammarText

/-- The paths that a request reads. -/
def Request.inputs : Request → List String
  | .convert r => r.files
  | .format r => [r.file]
  | .check r => [r.file]

/-- The path that a request writes besides those that it reads. -/
def Request.output? : Request → Option String
  | .convert r => r.output
  | _ => none

/-- The paths that a command line reads: settings files and grammars. -/
def inputPaths (o : GlobalOptions) (r : Request) : List Path :=
  configNames.map (Path.child ⟨.working, []⟩) ++ (o.config.toList ++ r.inputs).map Path.ofString

/-- The places that following the names visits, each as the names that lead to it. -/
def visited (done : List String) : List String → List (List String)
  | [] => [done]
  | n :: ns => done :: visited (if n = ".." then done.dropLast else done ++ [n]) ns

/-- The written form of the names that lead from the top folder. -/
def placeText (names : List String) : String :=
  "/" ++ String.intercalate "/" names

/-- Copies the folder that stands at the names, if there is one, without what it holds. Only a folder
has a name for itself. -/
def surveyFolder (top : DiskEntry) (names : List String) : IO DiskEntry :=
  try
    let _ ← IO.FS.realPath (placeText names ++ "/.")
    return top.putFolder names
  catch _ => return top

/-- Copies the folder or the file that stands at the names, if there is one. -/
def survey (top : DiskEntry) (names : List String) : IO DiskEntry :=
  try
    let bytes ← IO.FS.readBinFile (placeText names)
    return top.put bytes.toList names
  catch _ => surveyFolder top names

/-- The part of the disk that a command line can touch. The file to be written is not read. -/
def surveyDisk (o : GlobalOptions) (r : Request) : IO Disk := do
  let here ← IO.currentDir
  let empty : Disk := ⟨.folder [], (Path.ofString here.toString).parts⟩
  let onTheWay (p : Path) := visited (empty.origin p) p.parts
  let read := (inputPaths o r).flatMap onTheWay
  let written := ((r.output?.map Path.ofString).map onTheWay).getD []
  let bare := (DiskEntry.folder []).putFolder empty.working
  let top ← (read ++ written.dropLast).eraseDups.foldlM survey bare
  return { empty with top := ← written.getLast?.toList.foldlM surveyFolder top }

/-- The environment variables that the program heeds. -/
def heededVariables : IO (List (String × String)) := do
  let names := ["G4EBNF_VERBOSE", "G4EBNF_DEBUG", "G4EBNF_LOG_LEVEL"]
  let found ← names.mapM fun n => return (← IO.getEnv n).map fun v => (n, v)
  return found.filterMap id

/-- Finds the surroundings of the program as far as the words of the command line need them. -/
def findEnvironment (arguments : List String) : IO Environment := do
  let disk ←
    match readCommandLine arguments with
    | .ok (o, some r) => surveyDisk o r
    | _ => pure ⟨.folder [], []⟩
  let now ← Std.Time.PlainDateTime.now
  return ⟨disk, ← heededVariables, now.format "uuuu-MM-dd HH:mm:ss,SSS"⟩

/-- Writes the files that differ. -/
def writeChanges (before after : Disk) : IO Unit :=
  (Disk.changes before after).forM fun f => IO.FS.writeBinFile (placeText f.1) ⟨f.2.toArray⟩

/-- Runs the words of a command line and gives the exit status. -/
def runHere (arguments : List String) : IO UInt32 := do
  let env ← findEnvironment arguments
  let outcome := run env arguments
  writeChanges env.disk outcome.disk
  IO.print outcome.out
  IO.eprint outcome.err
  match outcome.ending with
  | .finished status | .halted status => return status.toUInt32
  | .broken f =>
    IO.eprintln f.message
    return 1

end GrammarText

/-- The program. -/
def main (arguments : List String) : IO UInt32 :=
  GrammarText.runHere arguments
