/-!
TOML documents as far as settings need them: strings, truth values, arrays and tables; numbers and
dates only have to be well formed. A document is a list of statements, each a header or an
assignment, and `Document.ofStatements?` puts them together. A table may be implied by the header
of a table inside it, made by a dotted key, or opened by a header of its own; only an implied one
may still be opened, and dotted keys reach into no opened one.
-/
namespace SchemaCompiler

inductive Toml where
  | string (value : String)
  | boolean (value : Bool)
  /-- A number or a date. -/
  | scalar
  | array (items : List Toml)
  /-- Fields in the order of the document. -/
  | table (fields : List (String × Toml))

namespace Toml

/-- How a table came to be. -/
inductive Origin where
  /-- A header names a table inside it. -/
  | implied
  /-- A dotted key names a field inside it. -/
  | dotted
  /-- A header names the table itself. -/
  | opened
  deriving DecidableEq

/-- A document under construction. -/
inductive Node where
  /-- Complete: nothing can be added. -/
  | closed (value : Toml)
  | table (origin : Origin) (fields : List (String × Node))
  /-- Tables that share a header; the last one is under construction. -/
  | series (earlier : List Node) (last : Node)

inductive Statement where
  /-- Opens a table. -/
  | header (path : List String)
  /-- Starts the next table of a series. -/
  | seriesHeader (path : List String)
  | assign (path : List String) (value : Toml)

namespace Node

/-- Changes the field of a name, or adds it, or fails as the change does. -/
def alter (name : String) (change : Option Node → Option Node) :
    List (String × Node) → Option (List (String × Node))
  | [] => do return [(name, ← change none)]
  | (n, node) :: rest =>
    if n = name then do return (n, ← change (some node)) :: rest
    else do return (n, node) :: (← alter name change rest)

/-- Changes a field of a table; of a series, a field of its last table. -/
def onField (name : String) (change : Option Node → Option Node) : Node → Option Node
  | .closed _ => none
  | .series earlier last => do return .series earlier (← last.onField name change)
  | .table origin fields => do return .table origin (← alter name change fields)

/-- Changes what a path of header keys leads to; missing tables on the way are implied. -/
def reach (change : Node → Option Node) : List String → Node → Option Node
  | [], node => change node
  | name :: path, node =>
    node.onField name fun child => reach change path (child.getD (.table .implied []))

def hasOrigin (origin : Origin) : Node → Bool
  | .table o _ => o == origin
  | _ => false

/-- Adds an assignment. Every key but the last leads through a table, made if it is missing, that
no header may have opened; the table that takes the value has to be made by dotted keys itself.
Neither is asked of the table that the assignment stands in (`own`). -/
def assign (value : Toml) : List String → Bool → Node → Option Node
  | [], _, _ => none
  | [name], own, node =>
    if own || node.hasOrigin .dotted then
      node.onField name fun
        | none => some (.closed value)
        | some _ => none
    else none
  | name :: path, own, node =>
    if own || !node.hasOrigin .opened then
      node.onField name fun child => assign value path false (child.getD (.table .dotted []))
    else none

/-- Opens a table under a name: it must be missing or only implied. -/
def openTable : Option Node → Option Node
  | none => some (.table .opened [])
  | some (.table .implied fields) => some (.table .opened fields)
  | some _ => none

/-- Starts the next table of the series under a name. -/
def extendSeries : Option Node → Option Node
  | none => some (.series [] (.table .opened []))
  | some (.series earlier last) => some (.series (earlier ++ [last]) (.table .opened []))
  | some _ => none

mutual

/-- The finished value. -/
def close : Node → Toml
  | .closed value => value
  | .table _ fields => .table (closeFields fields)
  | .series earlier last => .array (closeAll earlier ++ [last.close])

def closeAll : List Node → List Toml
  | [] => []
  | node :: rest => node.close :: closeAll rest

def closeFields : List (String × Node) → List (String × Toml)
  | [] => []
  | (name, node) :: rest => (name, node.close) :: closeFields rest

end

end Node

/-- A document under construction, and the table that assignments go to. -/
structure Document where
  root : Node := .table .opened []
  current : List String := []

namespace Document

/-- Changes the field that a header names and makes it the one that assignments go to. -/
def enter (document : Document) (path : List String) (change : Option Node → Option Node) :
    Option Document := do
  let name ← path.getLast?
  let root ← Node.reach (Node.onField name change) path.dropLast document.root
  return ⟨root, path⟩

/-- Adds a statement. -/
def add (document : Document) : Statement → Option Document
  | .header path => document.enter path Node.openTable
  | .seriesHeader path => document.enter path Node.extendSeries
  | .assign path value => do
    let root ← Node.reach (Node.assign value path true) document.current document.root
    return { document with root }

/-- Puts statements together, if they do not contradict each other. -/
def ofStatements? (statements : List Statement) : Option Document :=
  statements.foldlM add {}

end Document

/-- The table that assignments in braces make. -/
def inlineTable? (assignments : List (List String × Toml)) : Option Toml := do
  let node ← assignments.foldlM
    (fun (node : Node) entry => node.assign entry.2 entry.1 true) (.table .opened [])
  return node.close

end Toml
end SchemaCompiler
