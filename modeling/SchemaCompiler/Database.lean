import SchemaCompiler.Hook
import SchemaCompiler.Table.Storage

/-!
The relational layer, kept in memory. A database knows its tables by logical name, in the order
they were first defined. Defining a table that is there opens it again, if the layout is the same:
the name gets a fresh handle, without hooks and methods, over the same rows. Rows are therefore
filed under the logical name and decorations under the handle.
-/
namespace SchemaCompiler

structure Database (κ : Type) where
  /-- The current handle of each table. -/
  tables : OrderedMap String Handle := .empty
  /-- The rows of each table. -/
  storages : OrderedMap String Storage := .empty
  /-- Hooks and methods by handle serial. -/
  decorations : OrderedMap Nat (Decoration κ) := .empty
  /-- Every handle made so far; the serial of the next one is their number. -/
  opened : List Handle := []
  /-- How often a table was to be defined, successfully or not. -/
  defineCount : Nat := 0
  /-- How often a field source was to be built, successfully or not. -/
  fieldSourceCount : Nat := 0

namespace Database

variable {κ : Type}

instance : Inhabited (Database κ) := ⟨{}⟩

/-- The rows of a table. -/
def storage (db : Database κ) (table : String) : Storage := (db.storages.get? table).getD {}

def setStorage (db : Database κ) (table : String) (storage : Storage) : Database κ :=
  { db with storages := db.storages.insert table storage }

/-- What is attached to a handle; a fresh handle has nothing. -/
def decoration (db : Database κ) (serial : Nat) : Decoration κ :=
  (db.decorations.get? serial).getD {}

def decorate (db : Database κ) (serial : Nat) (change : Decoration κ → Decoration κ) :
    Database κ :=
  { db with decorations := db.decorations.insert serial (change (db.decoration serial)) }

/-- Finds tables for validators that look rows up. -/
def lookup (db : Database κ) : TableLookup := fun name => (db.tables.get? name).map Handle.ref

/-- What the layer has against a definition, if anything: a fault of its own, or a layout that
differs from the table it would open. -/
def refusal? (db : Database κ) (definition : TableDefinition) : Option LayerError :=
  match definition.fault? with
  | some fault => some (.rejected definition.name fault.message)
  | none => do
    let existing ← db.tables.get? definition.name
    let difference ← existing.definition.difference? definition
    return .incompatible definition.name difference.message

/-- Makes a fresh handle the current one of its table. -/
def openHandle (db : Database κ) (name : String) (definition : TableDefinition) :
    Handle × Database κ :=
  let handle : Handle := ⟨⟨name, db.opened.length⟩, definition⟩
  (handle, { db with
    tables := db.tables.insert definition.name handle
    opened := db.opened ++ [handle] })

/-- Defines a table of the database with the given name, or opens it if it is there. -/
def defineTable (db : Database κ) (name : String) (definition : TableDefinition) :
    Except LayerError Handle × Database κ :=
  let db := { db with defineCount := db.defineCount + 1 }
  match db.refusal? definition with
  | some refusal => (.error refusal, db)
  | none =>
    let (handle, db) := db.openHandle name definition
    (.ok handle, db)

end Database

/-- Builds the fields of a source that is no table: they only have to be consistent. -/
def TableDefinition.fieldSource (definition : TableDefinition) :
    Except LayerError (List FieldDefinition) :=
  match definition.fault? with
  | some fault => .error (.rejected definition.name fault.message)
  | none => .ok definition.fields

end SchemaCompiler
