import SchemaCompiler.Build.Compile
import SchemaCompiler.Config

/-!
Groups of tables that are built together, and the builder. The tables of a group are compiled in
the order they were added, and the first failure ends the build with the tables before it in
place. Once all are compiled the group's own callback runs, with the metadata of the tables that
have some. A builder keeps one signature cache for everything it builds.
-/
namespace SchemaCompiler

/-- Tables that share settings and callbacks. -/
structure Group (κ : Type) where
  name : String
  /-- Descriptions by logical name. -/
  tables : OrderedMap String (Description κ) := .empty
  config : GroupConfig := {}
  /-- Runs at every phase of every table. -/
  onAction : Option κ := none
  onDefineTable : Option κ := none
  onDefineModel : Option κ := none

/-- Which tables a builder migrates the indexes of. -/
inductive MigrateIndexes where
  | all (flag : Bool)
  | satisfying (accepts : String → Bool)

namespace MigrateIndexes

def tables (names : List String) : MigrateIndexes := satisfying fun table => table ∈ names

/-- The tables whose name starts with a text. -/
def startingWith (text : String) : MigrateIndexes :=
  satisfying fun table => text.toList.isPrefixOf table.toList

def ofSetting : MigrateSetting → MigrateIndexes
  | .flag value => all value
  | .tables names => tables names

def appliesTo (choice : MigrateIndexes) (table : String) : Bool :=
  match choice with
  | all flag => flag
  | satisfying accepts => accepts table

def inspect : MigrateIndexes → String
  | all flag => Inspection.tuple "All" [Inspection.bool flag]
  | satisfying _ => Inspection.tuple "Predicate" [".."]

theorem appliesTo_ofSetting (setting : MigrateSetting) (table : String) :
    (ofSetting setting).appliesTo table = setting.appliesTo table := by
  cases setting <;> rfl

end MigrateIndexes

structure Builder (κ : Type) where
  database : String
  migrate : MigrateIndexes := .all false
  migrator : Option (IndexMigrator κ) := none
  /-- The number of the builder's signature cache. -/
  cache : Nat

/-- Whether metadata counts as given. -/
def Json.isTruthy : Json → Bool
  | .null => false
  | .bool b => b
  | .number (.int n) => n ≠ 0
  | .number (.float x) => !x.isZero
  | .string s => s ≠ ""
  | .array items => !items.isEmpty
  | .object fields => !fields.isEmpty

variable {κ ε : Type}

namespace Group

/-- The options under which a builder compiles a table of the group. -/
def compileOptions (group : Group κ) (builder : Builder κ) (table : String) :
    CompileOptions κ where
  name := some table
  tablePrefix := group.config.tablePrefix
  autoKey := group.config.autoKey
  commonHook := group.onAction
  onDefineTable := group.onDefineTable
  migrateIndexes := builder.migrate.appliesTo table
  migrator := builder.migrator

/-- The metadata of the tables that have some, by logical name. -/
def extras (group : Group κ) : OrderedMap String Json :=
  .ofList (group.tables.entries.filterMap fun table =>
    (table.2.extra?.filter Json.isTruthy).map fun value => (table.1, value))

def inspectConfig (config : GroupConfig) : String :=
  Inspection.record "GroupConfig" [
    ("prefix", Inspection.option (config.rawPrefix.map Inspection.quoted)),
    ("auto_pk", Inspection.bool config.autoKey)]

def inspect (group : Group κ) : String :=
  Inspection.record "ModelGroup" [
    ("name", Inspection.quoted group.name),
    ("tables", Inspection.strings group.tables.keys),
    ("config", inspectConfig group.config),
    ("on_action", Inspection.bool group.onAction.isSome),
    ("on_define_table", Inspection.bool group.onDefineTable.isSome),
    ("on_define_model", Inspection.bool group.onDefineModel.isSome)]

end Group

namespace Builder

/-- Compiles tables one after the other and adds them to those that are done. These stay open
while the later ones are compiled. -/
def compileAll (callbacks : Callbacks κ ε) (builder : Builder κ) (group : Group κ)
    (done : OrderedMap String Handle) :
    List (String × Description κ) → Action κ ε BuildError (OrderedMap String Handle)
  | [] => return done
  | (name, description) :: rest => do
    let handle ← holding done.values <| compile callbacks builder.database builder.cache
      (group.compileOptions builder name) description
    compileAll callbacks builder group (done.insert name handle) rest

/-- Runs the group's callback, if it has one. -/
def runOnDefineModel (callbacks : Callbacks κ ε) (builder : Builder κ) (group : Group κ) :
    Action κ ε BuildError Unit :=
  match group.onDefineModel with
  | none => return
  | some callback =>
    (callbacks.onDefineModel callback builder.database group.extras).adapt
      (.callback group.name .onDefineModel)

/-- Builds a group and gives its tables by logical name. -/
def build (callbacks : Callbacks κ ε) (builder : Builder κ) (group : Group κ) :
    Action κ ε BuildError (OrderedMap String Handle) := do
  let tables ← builder.compileAll callbacks group .empty group.tables.entries
  holding tables.values (builder.runOnDefineModel callbacks group)
  return tables

/-- Builds groups one after the other up to the first failure and adds their tables to those that
are done: a repeated name keeps its place and takes the later table. The tables that are done stay
open while a group is built, but not one whose place a later table took. -/
def buildInto (callbacks : Callbacks κ ε) (builder : Builder κ)
    (done : OrderedMap String Handle) :
    List (Group κ) → Action κ ε BuildError (OrderedMap String Handle)
  | [] => return done
  | group :: rest => do
    let tables ← holding done.values (builder.build callbacks group)
    buildInto callbacks builder (done.insertAll tables.entries) rest

/-- Builds several groups. -/
def buildAll (callbacks : Callbacks κ ε) (builder : Builder κ) (groups : List (Group κ)) :
    Action κ ε BuildError (OrderedMap String Handle) :=
  builder.buildInto callbacks .empty groups

end Builder
end SchemaCompiler
