import SchemaCompiler.Table.Info

/-!
Expressions: the bodies of scripted getters, row methods and callbacks. An expression is evaluated
where a row, arguments and a table may each be at hand or not. What is missing counts as null, with
one exception: an expression on the table stands for its alternative when no table is at hand.
-/
namespace SchemaCompiler.Session

/-- What an expression asks of the table at hand. -/
inductive TablePart where
  | name
  /-- The number of rows. -/
  | size
  | info

inductive Expression where
  /-- A column of the row. -/
  | column (name : String)
  /-- An argument by position. -/
  | argument (position : Nat)
  | list (items : List Expression)
  /-- The texts of the parts joined; a string is its own text. -/
  | concat (parts : List Expression)
  /-- The whole row. -/
  | row
  | table (part : TablePart) (otherwise : Json)
  | constant (value : Json)

instance : Inhabited Expression := ⟨.constant .null⟩

/-- A table as expressions see it. -/
structure TableView where
  info : TableInfo
  size : Nat

/-- What is at hand where an expression is evaluated. -/
structure Scope where
  row : Option Row := none
  args : List Json := []
  table : Option TableView := none

namespace TableView

def part (view : TableView) : TablePart → Json
  | .name => view.info.name
  | .size => .ofNat view.size
  | .info => view.info.toJson

end TableView

namespace Expression

/-- The text of a value as part of a longer text. -/
def textOf : Json → String
  | .string s => s
  | value => value.compact

mutual

def eval (scope : Scope) : Expression → Json
  | column name => (scope.row.map (Row.valueAt · name)).getD .null
  | argument position => scope.args[position]?.getD .null
  | list items => .array (evalAll scope items)
  | concat parts => .string (String.join ((evalAll scope parts).map textOf))
  | row => (scope.row.map Row.toJson).getD .null
  | table part otherwise => (scope.table.map (TableView.part · part)).getD otherwise
  | constant value => value

def evalAll (scope : Scope) : List Expression → List Json
  | [] => []
  | item :: rest => eval scope item :: evalAll scope rest

end

/-- The getter that evaluates an expression on the row. -/
def getter (body : Expression) : Getter := fun row => body.eval { row := some row }

/-- The row method that evaluates an expression on the row and its arguments, unless it is told to
fail. -/
def rowMethod (body : Expression) (failure : Option String) : RowMethod := fun row args =>
  match failure with
  | some message => .error ⟨message⟩
  | none => .ok (body.eval { row := some row, args })

end Expression
end SchemaCompiler.Session
