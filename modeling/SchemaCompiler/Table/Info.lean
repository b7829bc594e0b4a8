import SchemaCompiler.Table.Operation

/-!
What a table says of itself: its names, fields and key, how many hooks each phase has, and which
methods it offers. It is a snapshot, taken through one handle; hooks and methods that are attached
to another handle of the table do not show.
-/
namespace SchemaCompiler

structure TableInfo where
  name : String
  physicalName : String
  fields : List String
  primaryKey : Option (List String)
  /-- The number of hooks of each phase, in the order of the phases. -/
  hookCounts : List Nat
  methods : List String
  deriving DecidableEq

/-- Takes a snapshot of a table. -/
def Handle.info {κ ε : Type} (handle : Handle) (world : World κ ε) : TableInfo where
  name := handle.name
  physicalName := handle.definition.physicalName
  fields := handle.definition.fieldNames
  primaryKey := handle.definition.primaryKey
  hookCounts := Phase.all.map fun phase => ((world.decoration handle).hooks phase).length
  methods := (world.decoration handle).methods.keys

/-- The snapshot as a value. -/
def TableInfo.toJson (info : TableInfo) : Json :=
  let names (list : List String) : Json := .array (list.map .string)
  .ofFields [
    ("name", info.name),
    ("physical_name", info.physicalName),
    ("fields", names info.fields),
    ("primary_key", (info.primaryKey.map names).getD .null),
    ("hooks", .array (info.hookCounts.map .ofNat)),
    ("methods", names info.methods)]

/-- How a handle on a table shows itself. -/
def TableDefinition.inspectHandle (definition : TableDefinition) : String :=
  Inspection.openRecord "TableHandle" [
    ("name", Inspection.quoted definition.name),
    ("physical_name", Inspection.quoted definition.physicalName)]

/-- How a table with so many rows shows itself. -/
def TableDefinition.inspectTable (definition : TableDefinition) (rows : Nat) : String :=
  Inspection.openRecord "MemoryTable" [
    ("name", Inspection.quoted definition.name),
    ("physical_name", Inspection.quoted definition.physicalName),
    ("fields", Inspection.strings definition.fieldNames),
    ("rows", toString rows)]

end SchemaCompiler
