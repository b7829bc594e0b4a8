import SchemaCompiler.Build.Policy
import SchemaCompiler.Table.Operation

/-!
Compiling a description into a table. First everything that can be decided is decided: members are
classified, mixin fields appended, the key and the stored name chosen and, if indexes are to be
migrated, the index plan drawn up. None of this touches a table. What remains is a definition and
a list of finishing steps (`Blueprint`): the description's own hooks, the common hook at every
phase, the table methods, the two callbacks, and the index migration. The layer is asked for the
table once, and the steps are taken in order until one fails.
-/
namespace SchemaCompiler

/-- Who reconciles a table's indexes. -/
inductive IndexMigrator (κ : Type) where
  /-- The index store of a number. -/
  | store (number : Nat)
  | custom (callback : κ)

/-- Settings for the compilation of one table. -/
structure CompileOptions (κ : Type) where
  /-- The logical name, if not the description's. -/
  name : Option String := none
  tablePrefix : Option String := none
  /-- Whether keys on `id` are made up. -/
  autoKey : Bool := false
  /-- A callback to be attached at every phase. -/
  commonHook : Option κ := none
  onDefineTable : Option κ := none
  migrateIndexes : Bool := false
  migrator : Option (IndexMigrator κ) := none

/-- What is done to a table once it is defined. -/
inductive FinishingStep (κ : Type) where
  | attach (phase : Phase) (hook : Hook κ)
  /-- Attaches a callback that is told the table and the phase. -/
  | attachCommon (phase : Phase) (callback : κ)
  | register (name : String) (method : κ)
  /-- Runs the callback that the description declares. -/
  | onDefine (callback : κ)
  /-- Runs the callback of the group. -/
  | onDefineTable (callback : κ)
  | migrate (migrator : IndexMigrator κ) (plan : Plan)

/-- Everything about a table that is decided before the layer is asked for it. -/
structure Blueprint (κ : Type) where
  definition : TableDefinition
  steps : List (FinishingStep κ)

variable {κ ε : Type}

namespace CompileOptions

def inspect (options : CompileOptions κ) : String :=
  Inspection.record "CompileOptions" [
    ("name", Inspection.option (options.name.map Inspection.quoted)),
    ("prefix", Inspection.option (options.tablePrefix.map Inspection.quoted)),
    ("auto_pk", Inspection.bool options.autoKey),
    ("common_hook", Inspection.bool options.commonHook.isSome),
    ("on_define_table", Inspection.bool options.onDefineTable.isSome),
    ("migrate_indexes", Inspection.bool options.migrateIndexes),
    ("index_migrator", Inspection.bool options.migrator.isSome)]

/-- The migration that the options ask for, with the plan of the table's own indexes. Indexes are
not looked at when no migration is asked for. -/
def migration (options : CompileOptions κ) (table : String) (fields : List String)
    (indexes : OrderedMap String Index) : Except BuildError (Option (IndexMigrator κ × Plan)) :=
  if options.migrateIndexes then
    match options.migrator with
    | none => .error (.missingIndexMigrator table)
    | some migrator => do
      let plan ← Plan.ofIndexes table fields indexes
      return some (migrator, plan)
  else .ok none

/-- The finishing steps of a table. -/
def steps (options : CompileOptions κ) (c : Classification κ)
    (migration : Option (IndexMigrator κ × Plan)) : List (FinishingStep κ) :=
  c.hooks.entries.map (fun hook => .attach hook.1 hook.2) ++
  options.commonHook.toList.flatMap (fun callback => Phase.all.map (.attachCommon · callback)) ++
  c.tableMethods.entries.map (fun method => .register method.1 method.2) ++
  c.onDefine.toList.map .onDefine ++
  options.onDefineTable.toList.map .onDefineTable ++
  migration.toList.map (fun task => .migrate task.1 task.2)

/-- Draws up the blueprint of a table from its classified members and its mixins' fields. -/
def blueprint (options : CompileOptions κ) (name : String) (c : Classification κ)
    (mixinFields : List FieldDefinition) : Except BuildError (Blueprint κ) := do
  let fields := c.fields ++ mixinFields
  let (explicitKey, rest) ← c.options.takePrimaryKey name
  let primaryKey := choosePrimaryKey c.hasIdName c.hasIdType options.autoKey explicitKey
  let (explicitName, rest) ← rest.takeStoredName name
  let physicalOverride := chooseStoredName options.tablePrefix name explicitName
  let migration ← options.migration name (fields.map FieldDefinition.name) c.indexes
  return {
    definition := { name, fields, physicalOverride, primaryKey, options := rest }
    steps := options.steps c migration }

end CompileOptions

/-- Resolves mixins with the cache of a number. -/
def resolveIn {α : Type} (database : String) (cache : Nat) (task : TableLookup → Resolve α) :
    Action κ ε BuildError α := fun world =>
  let db := world.database database
  let (result, state) := task db.lookup ⟨world.cache cache, db.fieldSourceCount⟩
  (result, (world.setDatabase database { db with fieldSourceCount := state.fieldSources }).setCache
    cache state.cache)

/-- Asks the layer for a table. -/
def defineTable (database : String) (definition : TableDefinition) :
    Action κ ε LayerError Handle := fun world =>
  let (result, db) := (world.database database).defineTable database definition
  (result, world.setDatabase database db)

/-- Asks the layer for the fields of a source that is no table. -/
def fieldSource (database : String) (definition : TableDefinition) :
    Action κ ε LayerError (List FieldDefinition) := fun world =>
  let db := world.database database
  (definition.fieldSource,
    world.setDatabase database { db with fieldSourceCount := db.fieldSourceCount + 1 })

/-- Reconciles the indexes of a handle's table with a plan. -/
def IndexMigrator.migrate (callbacks : Callbacks κ ε) (migrator : IndexMigrator κ)
    (handle : Handle) (plan : Plan) : Action κ ε MigrationError Unit :=
  match migrator with
  | .custom callback => callbacks.migrate callback handle plan
  | .store number => fun world =>
    let (result, migrator) := (world.store number).migrate handle.definition.physicalName plan
    (result, world.setStore number migrator)

/-- Takes one finishing step. -/
def FinishingStep.perform (callbacks : Callbacks κ ε) (description : String) (handle : Handle) :
    FinishingStep κ → Action κ ε BuildError Unit
  | .attach phase hook => handle.attach phase hook
  | .attachCommon phase callback => do
    let hook ← handle.bind callback phase
    handle.attach phase hook
  | .register name method => handle.register name method
  | .onDefine callback => do
    let _ ← (callbacks.tableMethod callback handle []).adapt (.callback handle.name .onDefine)
  | .onDefineTable callback =>
    (callbacks.onDefineTable callback description handle).adapt
      (.callback handle.name .onDefineTable)
  | .migrate migrator plan =>
    (migrator.migrate callbacks handle plan).adapt (.migration handle.name)

/-- Compiles a description into a table of a database, with the signature cache of a number. -/
def compile (callbacks : Callbacks κ ε) (database : String) (cache : Nat)
    (options : CompileOptions κ) (description : Description κ) : Action κ ε BuildError Handle := do
  let name := options.name.getD description.name
  let c ← Action.ofExcept (description.classify name ((← get).database database).lookup)
  let mixinFields ← resolveIn database cache fun lookup =>
    resolveMixins database lookup description.mixins
  let blueprint ← Action.ofExcept (options.blueprint name c mixinFields)
  let handle ← (defineTable database blueprint.definition).adapt .layer
  holding [handle] (blueprint.steps.forM (FinishingStep.perform callbacks description.name handle))
  return handle

end SchemaCompiler
