import SchemaCompiler.Index

/-!
Index plans: the indexes of one table with their columns by name. A plan drawn from declared
indexes fails at the first index that refers to an unknown field. A plan from anywhere is well
formed for a table when every entry has a name and a column and no name is used twice.
-/
namespace SchemaCompiler

structure PlanEntry where
  name : String
  columns : List String
  options : Options

namespace PlanEntry

def isUnique (entry : PlanEntry) : Bool := entry.options.isUnique

/-- An entry needs a name and a column. -/
def check (table : String) (entry : PlanEntry) : Except MigrationError Unit :=
  if entry.name = "" then .error (.invalidIndex table "" "index name is empty")
  else if entry.columns.isEmpty then
    .error (.invalidIndex table entry.name "index has no columns")
  else .ok ()

end PlanEntry

/-- The index plan of one table. -/
abbrev Plan := List PlanEntry

namespace Plan

/-- Checks the entries in order; `seen` holds the names of those before. -/
def checkFrom (table : String) (seen : List String) : Plan → Except MigrationError Unit
  | [] => .ok ()
  | entry :: rest => do
    entry.check table
    if entry.name ∈ seen then .error (.duplicateIndex table entry.name)
    else checkFrom table (entry.name :: seen) rest

/-- Refuses a plan at its first entry that is malformed or repeats a name. -/
def check (table : String) (plan : Plan) : Except MigrationError Unit := checkFrom table [] plan

/-- The first column that refers to a field which is not among the given ones. -/
def unknownField? (fields : List String) (index : Index) : Option String :=
  index.columns.findSome? fun
    | .field name => if name ∈ fields then none else some name
    | .column _ => none

/-- The plan entry of one declared index. -/
def entryOf (table : String) (fields : List String) (name : String) (index : Index) :
    Except BuildError PlanEntry :=
  match unknownField? fields index with
  | some column => .error (.unknownIndexColumn table name column)
  | none => .ok ⟨name, index.columnNames, index.options⟩

/-- Draws up the plan of a table's declared indexes, in declaration order. -/
def ofIndexes (table : String) (fields : List String) (indexes : OrderedMap String Index) :
    Except BuildError Plan :=
  indexes.entries.mapM fun declared => entryOf table fields declared.1 declared.2

end Plan
end SchemaCompiler
