import SchemaCompiler.Field

/-!
Indexes as a description declares them: plain data, unique unless said otherwise. A column is
either taken literally or refers to a field, which has to exist once a plan is drawn up.
-/
namespace SchemaCompiler

/-- A column of an index. -/
inductive ColumnRef where
  /-- Used as given. -/
  | column (name : String)
  /-- Has to name a field of the table. -/
  | field (name : String)
  deriving DecidableEq

def ColumnRef.name : ColumnRef → String
  | column name | field name => name

/-- The option that holds the uniqueness flag. -/
def uniqueOption : String := "unique"

/-- An index is unique unless its options hold another truth value. -/
def Options.isUnique (options : Options) : Bool := (options.flag? uniqueOption).getD true

structure Index where
  columns : List ColumnRef
  options : Options

namespace Index

/-- A unique index over columns. -/
def on (columns : List ColumnRef) : Index :=
  ⟨columns, OrderedMap.empty.insert uniqueOption (.bool true)⟩

def option (index : Index) (key : String) (value : Json) : Index :=
  { index with options := index.options.insert key value }

def unique (index : Index) (flag : Bool) : Index := index.option uniqueOption (.bool flag)

def isUnique (index : Index) : Bool := index.options.isUnique

def columnNames (index : Index) : List String := index.columns.map ColumnRef.name

def inspect (index : Index) : String :=
  Inspection.record "Index" [
    ("columns", Inspection.list (index.columns.map fun
      | .column name => Inspection.tuple "Column" [Inspection.quoted name]
      | .field name => Inspection.tuple "Field" [Inspection.quoted name])),
    ("options", Field.inspectOptions index.options)]

end Index
end SchemaCompiler
