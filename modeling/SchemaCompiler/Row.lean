import SchemaCompiler.Json
import SchemaCompiler.OrderedMap

/-!
A row is named values in column order. Setting a column that is there keeps its place, and merging
another row sets that row's columns one after the other, so columns of the other row win and new
ones go last.
-/
namespace SchemaCompiler

/-- Named values in column order. -/
abbrev Row := OrderedMap String Json

/-- Keyword options in the order they were given. -/
abbrev Options := OrderedMap String Json

namespace Row

/-- The value of a column, null if the row does not have it. -/
def valueAt (row : Row) (column : String) : Json := (row.get? column).getD .null

/-- The columns of both rows; where both have one, the other row's value. -/
def merge (row other : Row) : Row := row.insertAll other.entries

/-- Equality of rows: the same columns with equal values, in whatever order. -/
def same (a b : Row) : Bool := a.sameEntries Json.same b

/-- The row as an array of column and value pairs. -/
def toJson (row : Row) : Json :=
  .array (row.entries.map fun entry => .array [.string entry.1, entry.2])

/-- Whether every named column has the given value. -/
def matchesAll (row wanted : Row) : Bool :=
  wanted.entries.all fun column =>
    match row.get? column.1 with
    | some value => value.same column.2
    | none => false

end Row

namespace Options

/-- An option that is a truth value. -/
def flag? (options : Options) (name : String) : Option Bool :=
  (options.get? name).bind Json.asBool?

/-- Equality of options: the same names with equal values, in whatever order. -/
def same (a b : Options) : Bool := a.sameEntries Json.same b

theorem same_refl (options : Options) : options.same options = true :=
  options.sameEntries_refl Json.same_refl

end Options
end SchemaCompiler
