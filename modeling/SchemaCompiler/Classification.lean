import SchemaCompiler.Description

/-!
Sorting a description's members. Members with reserved names are skipped. A member named after a
phase has to be a hook, and a hook has to be named after a phase; every other kind has one place
to go. Stored fields have their requirements resolved on the way and take the member's name.
-/
namespace SchemaCompiler

structure Classification (κ : Type) where
  /-- Stored fields, virtual fields and row methods in declaration order. -/
  fields : List FieldDefinition := []
  hooks : OrderedMap Phase (Hook κ) := .empty
  tableMethods : OrderedMap String κ := .empty
  indexes : OrderedMap String Index := .empty
  options : Options := .empty
  onDefine : Option κ := none
  /-- Whether a stored field is named `id`. -/
  hasIdName : Bool := false
  /-- Whether a stored field has the `id` type tag. -/
  hasIdType : Bool := false

namespace Classification

variable {κ : Type}

/-- Whether nothing but fields was declared. -/
def isFieldsOnly (c : Classification κ) : Bool :=
  c.hooks.isEmpty && c.tableMethods.isEmpty && c.indexes.isEmpty && c.options.isEmpty &&
    c.onDefine.isNone

def fieldNames (c : Classification κ) : List String := c.fields.map FieldDefinition.name

/-- Puts a stored field in its place once its requirements are resolved. -/
def addField (table : String) (lookup : TableLookup) (c : Classification κ) (name : String)
    (field : Field) : Except BuildError (Classification κ) :=
  match Requirement.resolveAll lookup field.requirements with
  | .error source => .error (.validator table name source)
  | .ok validators =>
    .ok { c with
      fields := c.fields ++
        [.plain { name, typeArgs := field.typeArgs, options := field.options, validators }]
      hasIdName := c.hasIdName || name == idColumn
      hasIdType := c.hasIdType || field.hasIdType }

/-- Puts a member that is not named after a phase in its place. -/
def addMember (table : String) (lookup : TableLookup) (c : Classification κ) (name : String) :
    Member κ → Except BuildError (Classification κ)
  | .field field => c.addField table lookup name field
  | .virtual getter => .ok { c with fields := c.fields ++ [.virtual name getter] }
  | .method call => .ok { c with fields := c.fields ++ [.method name call] }
  | .tableMethod callback =>
    if name = onDefineName then .ok { c with onDefine := some callback }
    else .ok { c with tableMethods := c.tableMethods.insert name callback }
  | .index index => .ok { c with indexes := c.indexes.insert name index }
  | .option value => .ok { c with options := c.options.insert name value }
  | .hook _ => .error (.schema (.invalidMember table name
      "hooks must be declared under a lifecycle phase name"))

/-- Puts one declared member in its place. -/
def add (table : String) (lookup : TableLookup) (c : Classification κ)
    (declared : String × Member κ) : Except BuildError (Classification κ) :=
  let (name, member) := declared
  if isReservedName name then .ok c
  else
    match Phase.ofName? name, member with
    | some phase, .hook hook => .ok { c with hooks := c.hooks.insert phase hook }
    | some _, other => .error (.schema (.invalidHook table name other.kind))
    | none, member => c.addMember table lookup name member

end Classification

/-- Sorts the members of a description in declaration order, for the table of a name. Stops at the
first member that cannot be placed. -/
def Description.classify {κ : Type} (description : Description κ) (table : String)
    (lookup : TableLookup) : Except BuildError (Classification κ) :=
  description.members.entries.foldlM (Classification.add table lookup) {}

end SchemaCompiler
