import GrammarText.Data.Toml.Basic
import GrammarText.Data.Value

/-!
# TOML: tables under construction

A document builds its table in pieces: sections declare tables, dotted keys make them on the way, and a
value that is written out is complete. A table remembers how it came to be, since that decides which
statements may still add to it.
-/

namespace GrammarText.Toml

/-- How a table came to be. -/
inductive Origin where
  /-- It was only passed on the way to another table, so that a section may still declare it. -/
  | passed
  /-- Dotted keys of the section with this number made it; they may add to it until the section ends. -/
  | dotted (section_ : Nat)
  /-- A section declared it. -/
  | declared
deriving DecidableEq, Repr

/-- An entry of a table under construction. -/
inductive Node where
  /-- A value that is written out. -/
  | value (v : Value)
  | table (origin : Origin) (entries : List (String × Node))
  /-- A list of tables that sections declare one by one: the earlier ones, last first, and the entries of
  the last one. -/
  | tables (earlier : List Value) (entries : List (String × Node))

/-- The entries of a table under construction, in the order of their first appearance. -/
abbrev Entries := List (String × Node)

mutual

/-- The value that a node has come to. -/
def Node.toValue : Node → Value
  | .value v => v
  | .table _ entries => .table (entryValues entries)
  | .tables earlier entries => .list (earlier.reverse ++ [.table (entryValues entries)])

/-- The values of the entries. -/
def entryValues : Entries → List (String × Value)
  | [] => []
  | (k, n) :: es => (k, n.toValue) :: entryValues es

end

/-- What keeps a statement from adding to a table. -/
inductive Obstacle where
  /-- A table on the path is not open to the statement; `left` parts of the path come behind it. -/
  | closed (left : Nat)
  /-- A value on the path holds others and is written out. -/
  | complete
  /-- A value on the path holds no others. -/
  | scalar
  /-- The place is taken, by a written-out value that holds others or by anything else. -/
  | taken (complete : Bool)

/-- The obstacle that a written-out value makes. -/
def Obstacle.ofValue : Value → Obstacle
  | .list _ | .table _ => complete
  | _ => scalar

/-- Changes the entries at the end of a path, and makes the tables on the way that do not exist. `enter`
says how a table on the path counts afterwards, or that it may not be passed. -/
def change (enter : Origin → Option Origin) (f : Entries → Except Obstacle Entries) :
    Key → Entries → Except Obstacle Entries
  | [], es => f es
  | k :: path, es =>
    match (es.lookup k).getD (.table .passed []) with
    | .table origin inner =>
      match enter origin with
      | none => .error (.closed path.length)
      | some origin => do return setEntry k (.table origin (← change enter f path inner)) es
    | .tables earlier inner =>
      match enter .declared with
      | none => .error (.closed path.length)
      | some _ => do return setEntry k (.tables earlier (← change enter f path inner)) es
    | .value v => .error (.ofValue v)

/-- A table stays as it is when a section's name passes it. -/
def pass (origin : Origin) : Option Origin :=
  some origin

/-- A section may declare a table that was only passed before. -/
def declare : Origin → Option Origin
  | .passed => some .declared
  | _ => none

/-- A dotted key may extend a table that was only passed before, or that keys of its own section made. -/
def extend (section_ : Nat) (origin : Origin) : Option Origin :=
  if origin = .passed ∨ origin = .dotted section_ then some (.dotted section_) else none

/-- Adds an entry that must not exist. -/
def insertNew (k : String) (v : Value) (es : Entries) : Except Obstacle Entries :=
  match es.lookup k with
  | none => .ok (es ++ [(k, .value v)])
  | some (.value v) => .error (.taken (match v with | .list _ | .table _ => true | _ => false))
  | some _ => .error (.taken false)

/-- Adds an empty table to a list of tables, which begins with it if there is none. -/
def appendTable (k : String) (es : Entries) : Except Obstacle Entries :=
  match es.lookup k with
  | none => .ok (es ++ [(k, .tables [] [])])
  | some (.tables earlier inner) =>
    .ok (setEntry k (.tables (.table (entryValues inner) :: earlier) []) es)
  | some (.table _ _) => .error .scalar
  | some (.value v) => .error (.ofValue v)

/-- Declares the table of a section. -/
def declareTable (k : Key) (es : Entries) : Except TomlFault Entries :=
  match change pass (change declare .ok (k.drop (k.length - 1))) k.dropLast es with
  | .ok es => .ok es
  | .error .scalar => .error .overwritten
  | .error _ => .error (.declaredTwice k)

/-- Declares a further table of a list. -/
def declareListItem (k : Key) (es : Entries) : Except TomlFault Entries :=
  match change pass (fun es => (k.getLast?.map (appendTable · es)).getD (.ok es)) k.dropLast es with
  | .ok es => .ok es
  | .error .complete => .error (.immutable k)
  | .error _ => .error .overwritten

/-- Adds an entry to the table of a section. -/
def assign (section_ : Nat) (header k : Key) (v : Value) (es : Entries) : Except TomlFault Entries :=
  let parent := k.dropLast
  let add (es : Entries) := (k.getLast?.map (insertNew · v es)).getD (.ok es)
  match change pass (change (extend section_) add parent) header es with
  | .ok es => .ok es
  | .error (.closed left) => .error (.redefined (header ++ parent.take (parent.length - left)))
  | .error .complete => .error (.immutable (header ++ parent))
  | .error _ => .error .overwritten

/-- Adds an entry to a table that is written out. -/
def assignInline (k : Key) (v : Value) (es : Entries) : Except TomlFault Entries :=
  let add (es : Entries) := (k.getLast?.map (insertNew · v es)).getD (.ok es)
  match change pass add k.dropLast es with
  | .ok es => .ok es
  | .error .complete | .error (.taken true) => .error (.immutable k)
  | .error (.taken false) => .error (.duplicateInline (k.getLast?.getD ""))
  | .error _ => .error .overwritten

end GrammarText.Toml
