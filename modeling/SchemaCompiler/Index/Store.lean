import SchemaCompiler.Index.Diff

/-!
Stored indexes, filed by the physical name of their table, and the migrator that reconciles them
with a plan. A diff is carried out one step at a time, drops before creations; a step that fails
ends the run and leaves the earlier steps done.
-/
namespace SchemaCompiler

/-- The stored indexes of every table, by physical name and in creation order. -/
structure IndexStore where
  tables : OrderedMap String (List StoredIndex) := .empty

/-- One change of a table's stored indexes. -/
inductive IndexStep where
  | drop (name : String)
  | create (entry : PlanEntry)

/-- The steps that carry out a diff. -/
def IndexDiff.steps (diff : IndexDiff) : List IndexStep :=
  diff.drop.map .drop ++ diff.create.map .create

namespace IndexStore

/-- The stored indexes of a table. -/
def indexes (store : IndexStore) (table : String) : List StoredIndex :=
  (store.tables.get? table).getD []

def indexNames (store : IndexStore) (table : String) : List String :=
  (store.indexes table).map StoredIndex.name

/-- Stores a new index; its name has to be free on its table. -/
def create (store : IndexStore) (index : StoredIndex) : Except MigrationError IndexStore :=
  if index.name ∈ store.indexNames index.table then
    .error (.store ("index `" ++ index.name ++ "` already exists on `" ++ index.table ++ "`"))
  else .ok ⟨store.tables.insert index.table (store.indexes index.table ++ [index])⟩

/-- Removes a stored index. A table that had its last index removed is still known. -/
def drop (store : IndexStore) (table name : String) : Except MigrationError IndexStore :=
  match store.tables.get? table with
  | none => .error (.store ("no indexes on `" ++ table ++ "`"))
  | some indexes =>
    if name ∈ indexes.map StoredIndex.name then
      .ok ⟨store.tables.insert table (indexes.filter fun index => index.name ≠ name)⟩
    else .error (.store ("index `" ++ name ++ "` does not exist on `" ++ table ++ "`"))

/-- Carries out one step on a table. -/
def perform (table : String) (store : IndexStore) : IndexStep → Except MigrationError IndexStore
  | .drop name => store.drop table name
  | .create entry => store.create (.ofEntry table entry)

/-- Carries out steps until one fails, and gives the store as it is then. -/
def run (table : String) (store : IndexStore) :
    List IndexStep → Except MigrationError Unit × IndexStore
  | [] => (.ok (), store)
  | step :: rest =>
    match store.perform table step with
    | .ok store => store.run table rest
    | .error e => (.error e, store)

/-- Carries out a diff. -/
def apply (store : IndexStore) (diff : IndexDiff) : Except MigrationError Unit × IndexStore :=
  store.run diff.table diff.steps

end IndexStore

/-- Reconciles the indexes of a store with plans. -/
structure StoreMigrator where
  store : IndexStore := {}
  /-- Whether stored indexes outside a plan stay. -/
  keepUnknown : Bool := false

namespace StoreMigrator

/-- The changes a plan asks for; a malformed plan asks for none. -/
def plan (migrator : StoreMigrator) (table : String) (plan : Plan) :
    Except MigrationError IndexDiff := do
  plan.check table
  return .between migrator.keepUnknown table (migrator.store.indexes table) plan

/-- Brings the stored indexes of a table in line with a plan. -/
def migrate (migrator : StoreMigrator) (table : String) (plan : Plan) :
    Except MigrationError Unit × StoreMigrator :=
  match migrator.plan table plan with
  | .error e => (.error e, migrator)
  | .ok diff =>
    if diff.isEmpty then (.ok (), migrator)
    else
      let (result, store) := migrator.store.apply diff
      (result, { migrator with store })

end StoreMigrator
end SchemaCompiler
