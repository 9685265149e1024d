import GrammarText.Files.Path
import GrammarText.Text.Quoted
import GrammarText.Text.Utf8

/-!
# Files and folders

A disk is a tree of folders and files with a working folder in it. Reading and writing follow a path name
by name, and fail at the first name that cannot be followed.
-/

namespace GrammarText

/-- A file or a folder. -/
inductive DiskEntry where
  | file (bytes : List UInt8)
  | folder (entries : List (String × DiskEntry))

namespace DiskEntry

/-- The entry of a folder. -/
def child? (name : String) : DiskEntry → Option DiskEntry
  | folder entries => entries.lookup name
  | file _ => none

/-- What stands at the end of the names. -/
def at? : List String → DiskEntry → Option DiskEntry
  | [], e => some e
  | n :: ns, e => (e.child? n).bind (at? ns)

/-- The entries with the one of the given name replaced, or added at the end. -/
def setChild (name : String) (e : DiskEntry) : List (String × DiskEntry) → List (String × DiskEntry)
  | [] => [(name, e)]
  | (n, d) :: es => if n = name then (n, e) :: es else (n, d) :: setChild name e es

/-- The tree with a file at the end of the names; folders that do not exist are made on the way. -/
def put (bytes : List UInt8) : List String → DiskEntry → DiskEntry
  | [], _ => file bytes
  | n :: ns, folder es => folder (setChild n (put bytes ns ((es.lookup n).getD (folder []))) es)
  | n :: ns, file _ => folder [(n, put bytes ns (folder []))]

/-- The tree with a folder at the end of the names, if nothing is there. -/
def putFolder : List String → DiskEntry → DiskEntry
  | [], e => e
  | n :: ns, folder es => folder (setChild n (putFolder ns ((es.lookup n).getD (folder []))) es)
  | _ :: _, file b => file b

mutual

/-- All files with the names that lead to them; `names` lead to the entry. -/
def files (names : List String) : DiskEntry → List (List String × List UInt8)
  | file bytes => [(names, bytes)]
  | folder es => filesOf names es

/-- All files below the entries of a folder. -/
def filesOf (names : List String) : List (String × DiskEntry) → List (List String × List UInt8)
  | [] => []
  | (n, e) :: es => e.files (names ++ [n]) ++ filesOf names es

end

end DiskEntry

/-- Why a path cannot be followed, read or written. -/
inductive FileFault where
  | missing
  | notFolder
  | isFolder
  | nameTooLong
  | nullCharacter
deriving DecidableEq, Repr

/-- A fault at a path, as it was written. -/
structure FileError where
  fault : FileFault
  path : String
deriving DecidableEq, Repr

/-- The wording of the error. -/
def FileError.message (e : FileError) : String :=
  match e.fault with
  | .missing => s!"[Errno 2] No such file or directory: {quotedString e.path}"
  | .notFolder => s!"[Errno 20] Not a directory: {quotedString e.path}"
  | .isFolder => s!"[Errno 21] Is a directory: {quotedString e.path}"
  | .nameTooLong => s!"[Errno 36] File name too long: {quotedString e.path}"
  | .nullCharacter => "embedded null byte"

/-- The name of the kind of error. -/
def FileFault.kindName : FileFault → String
  | missing => "FileNotFoundError"
  | notFolder => "NotADirectoryError"
  | isFolder => "IsADirectoryError"
  | nameTooLong => "OSError"
  | nullCharacter => "ValueError"

/-- All files and folders. -/
structure Disk where
  /-- The top folder. -/
  top : DiskEntry
  /-- The names that lead to the working folder. -/
  working : List String

namespace Disk

/-- The greatest number of bytes of a name. -/
def maxNameBytes : Nat := 255

/-- The greatest number of bytes of a path. -/
def maxPathBytes : Nat := 4095

/-- Follows names from the place to which `done` lead; the result leads to the end. -/
def follow (d : Disk) (done : List String) : List String → Except FileFault (List String)
  | [] => if (DiskEntry.at? done d.top).isSome then .ok done else .error .missing
  | n :: ns =>
    match DiskEntry.at? done d.top with
    | none => .error .missing
    | some (.file _) => .error .notFolder
    | some (.folder _) =>
      if n.utf8ByteSize > maxNameBytes then .error .nameTooLong
      else if n = ".." then follow d done.dropLast ns
      else follow d (done ++ [n]) ns

/-- The names that lead to where a path begins. -/
def origin (d : Disk) (p : Path) : List String :=
  match p.start with
  | .working => d.working
  | _ => []

/-- A path that no file can have. -/
def refused? (p : Path) : Option FileFault :=
  let s := p.toString
  if s.contains '\x00' then some .nullCharacter
  else if s.utf8ByteSize > maxPathBytes then some .nameTooLong
  else none

/-- The names that lead to what a path names. -/
def resolve (d : Disk) (p : Path) : Except FileFault (List String) :=
  match refused? p with
  | some f => .error f
  | none => d.follow (d.origin p) p.parts

/-- Whether a path names a file or a folder. -/
def contains (d : Disk) (p : Path) : Except FileError Bool :=
  match d.resolve p with
  | .ok _ => .ok true
  | .error .nameTooLong => .error ⟨.nameTooLong, p.toString⟩
  | .error _ => .ok false

/-- The bytes of the file that a path names. -/
def read (d : Disk) (p : Path) : Except FileError (List UInt8) :=
  match d.resolve p with
  | .error f => .error ⟨f, p.toString⟩
  | .ok names =>
    match DiskEntry.at? names d.top with
    | some (.file bytes) => .ok bytes
    | some (.folder _) => .error ⟨.isFolder, p.toString⟩
    | none => .error ⟨.missing, p.toString⟩

/-- The names that lead to the file that writing to a path makes or replaces. -/
def target (d : Disk) (p : Path) : Except FileFault (List String) :=
  match refused? p with
  | some f => .error f
  | none =>
    match p.parts.getLast? with
    | none => .error .isFolder
    | some ".." => (d.follow (d.origin p) p.parts).bind fun _ => .error .isFolder
    | some n => do
      let folder ← d.follow (d.origin p) p.parts.dropLast
      match DiskEntry.at? folder d.top with
      | some (.folder es) =>
        if n.utf8ByteSize > maxNameBytes then .error .nameTooLong
        else
          match es.lookup n with
          | some (.folder _) => .error .isFolder
          | _ => .ok (folder ++ [n])
      | _ => .error .notFolder

/-- The disk with the bytes in the file that a path names. -/
def write (d : Disk) (p : Path) (bytes : List UInt8) : Except FileError Disk :=
  match d.target p with
  | .error f => .error ⟨f, p.toString⟩
  | .ok names => .ok { d with top := d.top.put bytes names }

/-- The files that `new` has and `old` has not, or has with other bytes. -/
def changes (old new : Disk) : List (List String × List UInt8) :=
  (new.top.files []).filter fun f =>
    match DiskEntry.at? f.1 old.top with
    | some (.file bytes) => bytes != f.2
    | _ => true

end Disk

end GrammarText
