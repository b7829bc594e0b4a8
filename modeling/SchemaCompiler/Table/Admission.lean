import SchemaCompiler.Definition

/-!
What a row has to satisfy before it is written. An insertion fills in defaults after its columns
are checked and before anything else is, so a default counts towards required fields and is
validated like a given value. The checks run in a fixed order and the first that fails is the one
reported: columns, required fields, validators in column order, the shape of the id.
-/
namespace SchemaCompiler.TableDefinition

/-- Every column has to be `id` or a stored field. -/
def checkColumns (definition : TableDefinition) (values : Row) : Except RowError Unit :=
  match values.keys.find? fun column => !(column == idColumn || definition.stores column) with
  | some column => .error (.unknownColumn definition.name column)
  | none => .ok ()

/-- Gives each stored field that the row lacks its default, in field order. A null is a value and
keeps the default away. -/
def withDefaults (definition : TableDefinition) (row : Row) : Row :=
  definition.plainFields.foldl
    (fun row field =>
      match field.default? with
      | some value => if row.contains field.name then row else row.insert field.name value
      | none => row)
    row

/-- Every required field has to have a value other than null. -/
def checkRequired (definition : TableDefinition) (row : Row) : Except RowError Unit :=
  match definition.plainFields.find? fun field =>
      field.isRequired && (row.valueAt field.name).isNull with
  | some field => .error (.validation definition.name field.name "required" "value is required")
  | none => .ok ()

/-- Puts one value to the validators of its column. -/
def validateValue (definition : TableDefinition) (isRow : RowLookup) (column : String)
    (value : Json) : Except RowError Unit :=
  match (definition.field? column).bind FieldDefinition.plain? with
  | none => .ok ()
  | some field => field.validators.forM fun validator =>
    match validator.check isRow value with
    | .ok () => .ok ()
    | .error reason => .error (.validation definition.name column validator.name reason)

/-- Puts every value to the validators of its column. -/
def validate (definition : TableDefinition) (isRow : RowLookup) (row : Row) :
    Except RowError Unit :=
  row.entries.forM fun entry => definition.validateValue isRow entry.1 entry.2

/-- The id a row brings: none if it is missing or null. It has to be an unsigned integer with one
after it. -/
def broughtId (definition : TableDefinition) (row : Row) : Except RowError (Option UInt64) :=
  match row.valueAt idColumn with
  | .null => .ok none
  | value =>
    match value.asUInt64? with
    | some id =>
      if id.toNat + 1 < UInt64.size then .ok (some id)
      else .error (.invalidId definition.name value.compact)
    | none => .error (.invalidId definition.name value.compact)

/-- Checks a row for insertion. Gives it with its defaults, and the id it brings. -/
def admitInsertion (definition : TableDefinition) (isRow : RowLookup) (values : Row) :
    Except RowError (Row × Option UInt64) := do
  definition.checkColumns values
  let row := definition.withDefaults values
  definition.checkRequired row
  definition.validate isRow row
  let id ← definition.broughtId row
  return (row, id)

/-- Checks the values of an update, which may not name the id column. Required fields are no
concern here. -/
def admitUpdate (definition : TableDefinition) (isRow : RowLookup) (values : Row) :
    Except RowError Unit := do
  if values.contains idColumn then throw (.keyUpdate definition.name)
  definition.checkColumns values
  definition.validate isRow values

/-- A stored row as it is shown: each virtual field set to its getter's value, which sees the
stored row alone. -/
def withVirtuals (definition : TableDefinition) (stored : Row) : Row :=
  definition.fields.foldl
    (fun row field =>
      match field with
      | .virtual name getter => row.insert name (getter stored)
      | _ => row)
    stored

/-- The row method of a name. -/
def method? (definition : TableDefinition) (name : String) : Option RowMethod :=
  definition.fields.findSome? fun
    | .method n call => if n = name then some call else none
    | _ => none

end SchemaCompiler.TableDefinition
