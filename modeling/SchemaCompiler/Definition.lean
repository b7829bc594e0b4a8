import SchemaCompiler.Field

/-!
What the relational layer is asked to define: a table's fields with their validators resolved, its
names, its key and its options. A definition has to be consistent in itself
(`TableDefinition.fault?`) and, to open a table that is there already, must lay it out the same way
(`TableDefinition.difference?`). Callables and validators take no part in the comparison.
-/
namespace SchemaCompiler

/-- Computes the value of a virtual field from a stored row. -/
abbrev Getter := Row → Json

/-- A method of a row, called with arguments. -/
abbrev RowMethod := Row → List Json → Except CallbackError Json

/-- A stored column. -/
structure PlainField where
  name : String
  /-- The first one is the type tag. -/
  typeArgs : List String := []
  options : Options := .empty
  validators : List Validator := []

namespace PlainField

/-- The type of a field that declares none. -/
def defaultType : String := "string"

def type (field : PlainField) : String := field.typeArgs.head?.getD defaultType

/-- Whether rows must hold a value other than null. -/
def isRequired (field : PlainField) : Bool := field.options.flag? "required" == some true

/-- The value that stands in for a missing one. -/
def default? (field : PlainField) : Option Json := field.options.get? "default"

end PlainField

inductive FieldDefinition where
  | plain (field : PlainField)
  | virtual (name : String) (getter : Getter)
  | method (name : String) (call : RowMethod)

namespace FieldDefinition

def name : FieldDefinition → String
  | plain field => field.name
  | virtual name _ => name
  | method name _ => name

def plain? : FieldDefinition → Option PlainField
  | plain field => some field
  | _ => none

def isStored : FieldDefinition → Bool
  | plain _ => true
  | _ => false

/-- Whether two fields have the same kind and name and, if stored, the same type arguments and
options. -/
def sameShape : FieldDefinition → FieldDefinition → Bool
  | plain a, plain b => a.name == b.name && a.typeArgs == b.typeArgs && a.options.same b.options
  | virtual a _, virtual b _ => a == b
  | method a _, method b _ => a == b
  | _, _ => false

/-- The tables whose rows the field's validators look at. -/
def references : FieldDefinition → List TableRef
  | plain field => field.validators.filterMap fun
    | .rowOf table => some table
    | .test .. => none
  | _ => []

def inspect : FieldDefinition → String
  | plain field =>
    Inspection.tuple "Plain" [Inspection.record "PlainField" [
      ("name", Inspection.quoted field.name),
      ("type_args", Inspection.strings field.typeArgs),
      ("options", Field.inspectOptions field.options),
      ("validators", Inspection.strings (field.validators.map Validator.name))]]
  | virtual name _ =>
    Inspection.record "Virtual" [("name", Inspection.quoted name),
      ("getter", Inspection.openRecord "VirtualGetter" [])]
  | method name _ =>
    Inspection.record "Method" [("name", Inspection.quoted name),
      ("method", Inspection.openRecord "RowMethod" [])]

end FieldDefinition

/-- What is wrong with a definition on its own. -/
inductive DefinitionFault where
  | duplicateField (name : String)
  | keyNotStored (column : String)
  deriving DecidableEq

def DefinitionFault.message : DefinitionFault → String
  | duplicateField name => "duplicate field `" ++ name ++ "`"
  | keyNotStored column => "primary key column `" ++ column ++ "` is not a stored field"

/-- Where the layouts of two definitions first differ. Of two parts the first belongs to the older
definition; a field is named as in the newer one. -/
inductive LayoutDifference where
  | physicalName (old new : String)
  | primaryKey (old new : Option (List String))
  | fieldCount (old new : Nat)
  | fieldShape (name : String)
  | options
  deriving DecidableEq

def LayoutDifference.message : LayoutDifference → String
  | physicalName old new => "stored as `" ++ old ++ "`, not `" ++ new ++ "`"
  | primaryKey old new =>
    let text (key : Option (List String)) := Inspection.option (key.map Inspection.strings)
    "primary key " ++ text old ++ " differs from " ++ text new
  | fieldCount old new => "has " ++ toString old ++ " fields, not " ++ toString new
  | fieldShape name => "field `" ++ name ++ "` changed"
  | options => "table options changed"

structure TableDefinition where
  /-- The logical name, under which the table is looked up. -/
  name : String
  fields : List FieldDefinition := []
  /-- The name it is stored under, if not the logical one. -/
  physicalOverride : Option String := none
  /-- The key columns, if not the layer's own key. -/
  primaryKey : Option (List String) := none
  /-- Options the layer passes through. -/
  options : Options := .empty

namespace TableDefinition

def physicalName (definition : TableDefinition) : String :=
  definition.physicalOverride.getD definition.name

def fieldNames (definition : TableDefinition) : List String :=
  definition.fields.map FieldDefinition.name

/-- The first field of a name. -/
def field? (definition : TableDefinition) (name : String) : Option FieldDefinition :=
  definition.fields.find? fun field => field.name == name

/-- The stored columns in field order. -/
def plainFields (definition : TableDefinition) : List PlainField :=
  definition.fields.filterMap FieldDefinition.plain?

/-- Whether a name belongs to a stored column. -/
def stores (definition : TableDefinition) (name : String) : Bool :=
  (definition.field? name).any FieldDefinition.isStored

/-- The first name in a list that occurs a second time, at its second place. -/
def firstRepeated? : List String → List String → Option String
  | _, [] => none
  | seen, name :: rest =>
    if name ∈ seen then some name else firstRepeated? (name :: seen) rest

/-- What is wrong with the definition on its own: a repeated field, or else a key column that is
not stored. -/
def fault? (definition : TableDefinition) : Option DefinitionFault :=
  match firstRepeated? [] definition.fieldNames with
  | some name => some (.duplicateField name)
  | none =>
    let missing := (definition.primaryKey.getD []).find? fun column => !definition.stores column
    missing.map .keyNotStored

/-- Where a new definition first departs from the one a table was opened with. -/
def difference? (old new : TableDefinition) : Option LayoutDifference :=
  if old.physicalName ≠ new.physicalName then
    some (.physicalName old.physicalName new.physicalName)
  else if old.primaryKey ≠ new.primaryKey then some (.primaryKey old.primaryKey new.primaryKey)
  else if old.fields.length ≠ new.fields.length then
    some (.fieldCount old.fields.length new.fields.length)
  else
    match (old.fields.zip new.fields).find? fun pair => !pair.1.sameShape pair.2 with
    | some (_, field) => some (.fieldShape field.name)
    | none => if old.options.same new.options then none else some .options

end TableDefinition
end SchemaCompiler
