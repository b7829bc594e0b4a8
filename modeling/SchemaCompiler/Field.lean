import SchemaCompiler.Validator

/-!
Stored fields as a description declares them. A field does not know its own name until a
description's members are classified, which stamps the member name in.
-/
namespace SchemaCompiler

/-- The type tag that marks a field as the layer's own surrogate key. -/
def idType : String := "id"

/-- The column that holds a row's id. -/
def idColumn : String := "id"

structure Field where
  name : Option String := none
  /-- The first one is the type tag. -/
  typeArgs : List String := []
  options : Options := .empty
  requirements : List Requirement := []

namespace Field

/-- A field with a type tag. -/
def ofType (type : String) : Field := { typeArgs := [type] }

/-- A field whose type is left to the layer. -/
def untyped : Field := {}

def arg (field : Field) (text : String) : Field :=
  { field with typeArgs := field.typeArgs ++ [text] }

def option (field : Field) (key : String) (value : Json) : Field :=
  { field with options := field.options.insert key value }

def required (field : Field) : Field := field.option "required" (.bool true)

def unique (field : Field) : Field := field.option "unique" (.bool true)

def notNull (field : Field) : Field := field.option "notnull" (.bool true)

def defaultsTo (field : Field) (value : Json) : Field := field.option "default" value

def length (field : Field) (size : UInt32) : Field := field.option "length" (.ofNat size.toNat)

def label (field : Field) (text : String) : Field := field.option "label" (.string text)

def requires (field : Field) (requirement : Requirement) : Field :=
  { field with requirements := field.requirements ++ [requirement] }

/-- Writes the name of the declaring member into the field. -/
def stamp (field : Field) (name : String) : Field := { field with name := some name }

/-- The type tag, if one was declared. -/
def type? (field : Field) : Option String := field.typeArgs.head?

def hasIdType (field : Field) : Bool := field.type? == some idType

def hasDeferred (field : Field) : Bool := field.requirements.any Requirement.isDeferred

def inspectOptions (options : Options) : String :=
  Inspection.map (options.entries.map fun entry =>
    (Inspection.quoted entry.1, Inspection.json entry.2))

def inspect (field : Field) : String :=
  Inspection.record "Field" [
    ("name", Inspection.option (field.name.map Inspection.quoted)),
    ("type_args", Inspection.strings field.typeArgs),
    ("options", inspectOptions field.options),
    ("requires", Inspection.list (field.requirements.map Requirement.inspect))]

end Field
end SchemaCompiler
