import SchemaCompiler.Error
import SchemaCompiler.Inspection
import SchemaCompiler.Row

/-!
Validators judge single values. Most are tests on the value alone; one kind asks whether the value
is the id of a row of some table, and so depends on the rows stored when it is asked. A field
lists requirements rather than validators: a requirement may have to wait until the database is
known, and resolving it then can fail.
-/
namespace SchemaCompiler

/-- Which of a database's table handles is meant. -/
structure HandleId where
  database : String
  serial : Nat
  deriving DecidableEq

/-- A table as a validator keeps hold of it: through one handle, under its logical name. -/
structure TableRef where
  handle : HandleId
  table : String
  deriving DecidableEq

/-- Tells whether an id keys a stored row of a table. -/
abbrev RowLookup := TableRef → UInt64 → Bool

inductive Validator where
  /-- A test on the value alone, with its reason when it refuses. -/
  | test (name : String) (check : Json → Except String Unit)
  /-- Accepts the ids of a table's rows. -/
  | rowOf (table : TableRef)

namespace Validator

def name : Validator → String
  | test name _ => name
  | rowOf _ => "in_db"

/-- Judges a value, given the rows that are stored now. -/
def check (isRow : RowLookup) : Validator → Json → Except String Unit
  | test _ check, value => check value
  | rowOf table, value =>
    if value.asUInt64?.any (isRow table) then .ok ()
    else .error (value.compact ++ " is not a row of " ++ table.table)

/-- Whether the verdict depends on the value alone. -/
def isPure : Validator → Bool
  | test .. => true
  | rowOf _ => false

/-- Accepts the listed values. -/
def oneOf (name : String) (values : List Json) : Validator :=
  test name fun value =>
    if values.any value.same then .ok () else .error (value.compact ++ " is not allowed")

/-- Refuses null. -/
def notNull : Validator :=
  test "not_null" fun value => if value.isNull then .error "is null" else .ok ()

theorem check_of_isPure {validator : Validator} (pure : validator.isPure = true)
    (now later : RowLookup) (value : Json) :
    validator.check now value = validator.check later value := by
  cases validator with
  | test => rfl
  | rowOf => simp [isPure] at pure

end Validator

/-- Finds the open handle of a logical table name. -/
abbrev TableLookup := String → Option TableRef

/-- One demand of a field on its values. -/
inductive Requirement where
  | ready (validator : Validator)
  /-- A validator that is made once the database's tables can be looked up. -/
  | deferred (make : TableLookup → Except ValidatorError Validator)

namespace Requirement

def isDeferred : Requirement → Bool
  | ready _ => false
  | deferred _ => true

def resolve (lookup : TableLookup) : Requirement → Except ValidatorError Validator
  | ready validator => .ok validator
  | deferred make => make lookup

/-- Resolves requirements in order and stops at the first that cannot be. -/
def resolveAll (lookup : TableLookup) (requirements : List Requirement) :
    Except ValidatorError (List Validator) :=
  requirements.mapM (resolve lookup)

/-- The values must be ids of rows of the table that has the name by then. -/
def rowOf (table : String) : Requirement :=
  deferred fun lookup =>
    match lookup table with
    | some found => .ok (.rowOf found)
    | none => .error ⟨"table `" ++ table ++ "` is not defined"⟩

/-- Can never be resolved. -/
def unresolvable (reason : String) : Requirement := deferred fun _ => .error ⟨reason⟩

def inspect : Requirement → String
  | ready validator => Inspection.tuple "Ready" [Inspection.quoted validator.name]
  | deferred _ => Inspection.tuple "Deferred" [Inspection.openRecord "DeferredValidator" []]

end Requirement
end SchemaCompiler
