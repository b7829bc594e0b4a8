import SchemaCompiler.Definition

/-!
How a table gets its key and its stored name. Two options of a description are meant for the
compiler and taken out before the rest goes to the layer: `primarykey` and `rname`. An explicit
key always stands; otherwise a key on `id` is made up when that is asked for, the table has a
stored field of that name, and no field is the layer's own key already.
-/
namespace SchemaCompiler

/-- The option that holds the key columns. -/
def primaryKeyOption : String := "primarykey"

/-- The option that holds the stored name. -/
def storedNameOption : String := "rname"

/-- The key of a table. -/
def choosePrimaryKey (hasIdName hasIdType autoKey : Bool) (explicit : Option (List String)) :
    Option (List String) :=
  match explicit with
  | some key => some key
  | none => if autoKey && hasIdName && !hasIdType then some [idColumn] else none

/-- The stored name of a table whose group may have a prefix. -/
def prefixedName (tablePrefix : Option String) (name : String) : String :=
  tablePrefix.getD "" ++ name

/-- The stored name, if it is not the logical one: a prefix wins over an explicit name, and an
empty prefix is none. -/
def chooseStoredName (tablePrefix : Option String) (name : String) (explicit : Option String) :
    Option String :=
  match tablePrefix with
  | some text => if text = "" then explicit else some (prefixedName (some text) name)
  | none => explicit

namespace Options

/-- One column of a key option. -/
def keyColumn (table : String) : Json → Except BuildError String
  | .string name => .ok name
  | other => .error (.invalidOption table primaryKeyOption
      ("expected a column name, found `" ++ other.compact ++ "`"))

/-- Reads a key option: nothing, one column, or a list of at least one. -/
def readPrimaryKey (table : String) : Option Json → Except BuildError (Option (List String))
  | none | some .null => .ok none
  | some (.string name) => .ok (some [name])
  | some (.array (first :: rest)) => return some (← (first :: rest).mapM (keyColumn table))
  | some other => .error (.invalidOption table primaryKeyOption
      ("expected a list of column names, found `" ++ other.compact ++ "`"))

/-- Reads a name option: nothing or a name. -/
def readStoredName (table : String) : Option Json → Except BuildError (Option String)
  | none | some .null => .ok none
  | some (.string name) => .ok (some name)
  | some other => .error (.invalidOption table storedNameOption
      ("expected a table name, found `" ++ other.compact ++ "`"))

/-- Takes the key columns out of the options. -/
def takePrimaryKey (table : String) (options : Options) :
    Except BuildError (Option (List String) × Options) :=
  return (← readPrimaryKey table (options.get? primaryKeyOption), options.erase primaryKeyOption)

/-- Takes the stored name out of the options. -/
def takeStoredName (table : String) (options : Options) :
    Except BuildError (Option String × Options) :=
  return (← readStoredName table (options.get? storedNameOption), options.erase storedNameOption)

end Options
end SchemaCompiler
