import SchemaCompiler.Index.Plan

/-!
What has to change so that the stored indexes of a table become the planned ones. Each plan entry
is judged on its own against the stored index of its name: equal ones stay, different ones are
dropped and created again, missing ones are created. Stored indexes outside the plan are dropped
too unless unknown ones are kept.
-/
namespace SchemaCompiler

/-- An index as it is stored for a table. -/
structure StoredIndex where
  name : String
  /-- The physical name of the table. -/
  table : String
  columns : List String
  options : Options

namespace StoredIndex

/-- The stored form of a plan entry. -/
def ofEntry (table : String) (entry : PlanEntry) : StoredIndex :=
  ⟨entry.name, table, entry.columns, entry.options⟩

/-- Whether a stored index is already what a plan entry asks for. -/
def fulfils (index : StoredIndex) (entry : PlanEntry) : Bool :=
  index.columns == entry.columns && index.options.same entry.options

end StoredIndex

/-- What becomes of a plan entry. -/
inductive EntryFate where
  | kept
  | replaced
  | added
  deriving DecidableEq

structure IndexDiff where
  /-- The physical name of the table. -/
  table : String
  create : Plan := []
  drop : List String := []
  unchanged : List String := []

namespace IndexDiff

/-- The stored indexes by name; of a repeated name the last one counts. -/
def byName (existing : List StoredIndex) : OrderedMap String StoredIndex :=
  .ofList (existing.map fun index => (index.name, index))

/-- Judges a plan entry against the stored indexes. -/
def fateOf (existing : List StoredIndex) (entry : PlanEntry) : EntryFate :=
  match (byName existing).get? entry.name with
  | some index => if index.fulfils entry then .kept else .replaced
  | none => .added

/-- The names of stored indexes that the plan does not mention, in stored order. -/
def unplanned (existing : List StoredIndex) (plan : Plan) : List String :=
  (existing.map StoredIndex.name).filter fun name => name ∉ plan.map PlanEntry.name

/-- The difference between a table's stored indexes and its plan. -/
def between (keepUnknown : Bool) (table : String) (existing : List StoredIndex) (plan : Plan) :
    IndexDiff where
  table
  create := plan.filter fun entry => fateOf existing entry ≠ .kept
  drop := (plan.filter fun entry => fateOf existing entry = .replaced).map PlanEntry.name ++
    if keepUnknown then [] else unplanned existing plan
  unchanged := (plan.filter fun entry => fateOf existing entry = .kept).map PlanEntry.name

def isEmpty (diff : IndexDiff) : Bool := diff.create.isEmpty && diff.drop.isEmpty

/-- How many indexes come and go, in words. -/
def summary (diff : IndexDiff) : String :=
  let part (verb : String) (count : Nat) : List String :=
    if count = 0 then [] else [verb ++ " " ++ toString count ++ " indexes"]
  match part "Create" diff.create.length ++ part "Drop" diff.drop.length with
  | [] => "No changes"
  | parts => ", ".intercalate parts

end IndexDiff
end SchemaCompiler
