import GrammarText.Text.CodePoints

/-!
# Paths

A path is a sequence of names, from the top folder or from the working folder. Empty names and names for
the folder itself are dropped, names for the folder above are kept.
-/

namespace GrammarText

/-- Where a path begins. -/
inductive PathStart where
  /-- At the working folder. -/
  | working
  /-- At the top folder. -/
  | top
  /-- At the top folder, written with two slashes, which are kept. -/
  | doubleTop
deriving DecidableEq, Repr

/-- The slashes of the written form. -/
def PathStart.slashes : PathStart → String
  | working => ""
  | top => "/"
  | doubleTop => "//"

/-- A path to a file or a folder. -/
structure Path where
  start : PathStart := .working
  parts : List String
deriving DecidableEq, Repr

namespace Path

/-- A part that names something other than the folder itself. -/
def isPart (t : Text) : Bool :=
  !t.isEmpty && t != ['.']

/-- Where a path with the given number of slashes in front begins. -/
def startOf : Nat → PathStart
  | 0 => .working
  | 2 => .doubleTop
  | _ => .top

/-- The path that a text writes. -/
def ofString (s : String) : Path :=
  let (slashes, rest) := s.toList.span (· == '/')
  ⟨startOf slashes.length, ((rest.splitOn '/').filter isPart).map String.ofList⟩

/-- The written form; the folder where it begins is written as a point. -/
def toString (p : Path) : String :=
  let s := p.start.slashes ++ String.intercalate "/" p.parts
  if s.isEmpty then "." else s

/-- The path of an entry of the folder. -/
def child (p : Path) (name : String) : Path :=
  { p with parts := p.parts ++ [name] }

/-- The last name. -/
def name (p : Path) : String :=
  p.parts.getLast?.getD ""

/-- The last name from its last point on. A point at either end of the name makes no suffix. -/
def suffix (p : Path) : String :=
  let cs := p.name.toList
  let last := (cs.reverse.takeWhile (· != '.')).reverse
  if !last.isEmpty && last.length + 1 < cs.length then String.ofList ('.' :: last) else ""

end Path

/-- The parts of a path from the top folder, with each name for the folder above settled by dropping
the name before it. -/
def settleParts (parts : List String) : List String :=
  parts.foldl (fun done p => if p = ".." then done.dropLast else done ++ [p]) []

/-- The number of names at the front that two paths share. -/
def sharedParts : List String → List String → Nat
  | a :: as, b :: bs => if a = b then sharedParts as bs + 1 else 0
  | _, _ => 0

/-- The written form of the path from the folder `base` to what `p` names, `base` being the working
folder. -/
def Path.relativeTo (p : Path) (base : List String) : String :=
  let target := settleParts (match p.start with | .working => base ++ p.parts | _ => p.parts)
  let shared := sharedParts base target
  let parts := List.replicate (base.length - shared) ".." ++ target.drop shared
  if parts.isEmpty then "." else String.intercalate "/" parts

end GrammarText
