import SchemaCompiler.Config.Reading
import SchemaCompiler.Session.State

/-!
Making what steps specify out of what the session has: descriptions out of members and mixins,
options with their callbacks, definitions with their requirements resolved, groups and builders.
A specification that names something missing makes nothing. Each making of a callback gives it a
call count of its own.
-/
namespace SchemaCompiler.Session

variable {e : Type}

/-! ## Names -/

/-- The number of the cache of a name; a name that is new gets a number. -/
def cacheNumber (name : String) : Work e Nat := do
  match (← Work.state).caches.get? name with
  | some number => return number
  | none =>
    let number ← Work.freshNumber
    Work.update fun state => { state with caches := state.caches.insert name number }
    return number

/-- The number of the store of a name; a name that is new gets a number. -/
def storeNumber (name : String) : Work e Nat := do
  match (← Work.state).stores.get? name with
  | some number => return number
  | none =>
    let number ← Work.freshNumber
    Work.update fun state => { state with stores := state.stores.insert name number }
    return number

/-- The description of an id. -/
def descriptionOf (id : String) : Work Fault (Description Callback) := do
  Work.require ((← Work.state).descriptions.get? id) (.description id)

/-- The configuration of an id. -/
def configOf (id : String) : Work Fault Config := do
  Work.require ((← Work.state).configs.get? id) (.config id)

/-- The hook at a place of a list that was saved. -/
def HookRef.find (ref : HookRef) : Work Fault (Hook Callback) := do
  Work.require (((← Work.state).hooks.get? ref.id).bind (·[ref.position]?)) .hook

/-- The handle that a target means, where `self` is the table at hand. -/
def Target.find? (target : Target) (self : Option Handle) (world : Scene) : Option Handle :=
  if target.handle = "" then (world.database target.database).tables.get? target.table
  else if target.handle = "self" then self.or (world.kept.get? target.handle)
  else world.kept.get? target.handle

/-- Keeps a handle under a name, if there is one. -/
def keepAs (name : Option String) (handle : Handle) : Work e Unit :=
  match name with
  | some name => modify fun world => { world with kept := world.kept.insert name handle }
  | none => return

/-! ## Specifications -/

def MigratorSpec.make : MigratorSpec Script → Work e (IndexMigrator Callback)
  | .store id => return .store (← storeNumber id)
  | .script body fault => return .custom (← Callback.make body (.migrator fault))

/-- A member as it is declared under a name. -/
def MemberSpec.make (name : String) : MemberSpec Script → Work e (String × Member Callback)
  | .field declared => return (name, .field declared)
  | .virtual getter => return (name, .virtual getter)
  | .method call => return (name, .method call)
  | .hook script => return (name, .hook (← Hook.make (.call (← Callback.make script))))
  | .tableMethod script => return (name, .tableMethod (← Callback.make script (.method name)))
  | .onDefine script => return (onDefineName, .tableMethod (← Callback.make script .onDefine))
  | .index declared => return (name, .index declared)
  | .extra value => return (extraName, .option value)
  | .option value => return (name, .option value)

def DescriptionSpec.make (spec : DescriptionSpec Script) :
    Work Fault (Description Callback) := do
  let mixins ← spec.mixins.mapM descriptionOf
  let members ← spec.members.mapM fun member => member.2.make member.1
  return ⟨← Work.freshNumber, spec.name, .ofList members, mixins⟩

def OptionsSpec.make (spec : OptionsSpec Script) : Work e (CompileOptions Callback) :=
  return {
    name := spec.name
    tablePrefix := spec.tablePrefix.or (spec.group.bind GroupConfig.tablePrefix)
    autoKey := spec.autoKey.getD (spec.group.any GroupConfig.autoKey)
    commonHook := ← Callback.makeOption spec.commonHook
    onDefineTable := ← Callback.makeOption spec.onDefineTable
    migrateIndexes := spec.migrateIndexes
    migrator := ← spec.migrator.mapM MigratorSpec.make }

/-- A field with its requirements resolved for a database. -/
def FieldSpec.make (lookup : TableLookup) : FieldSpec → Except ValidatorError FieldDefinition
  | .plain name typeArgs options requirements => do
    let validators ← Requirement.resolveAll lookup requirements
    return .plain { name, typeArgs, options, validators }
  | .virtual name getter => .ok (.virtual name getter)
  | .method name call => .ok (.method name call)

/-- A definition with its fields resolved in order. -/
def DefinitionSpec.make (spec : DefinitionSpec) (database : String) :
    Work Fault TableDefinition := do
  let lookup := ((← get).database database).lookup
  let fields ← (Action.ofExcept (spec.fields.mapM (FieldSpec.make lookup))).adapt .validator
  return {
    name := spec.name
    fields
    physicalOverride := spec.physicalOverride
    primaryKey := spec.primaryKey
    options := spec.options }

/-- The settings that a source has. -/
def ConfigSource.read (env : Environment) : ConfigSource → Except SchemaError Config
  | .text content => Config.read env content
  | .file path => .error (.unreadable path)

def GroupEntry.make (entry : GroupEntry) : Work Fault (String × Description Callback) := do
  let description ← descriptionOf entry.description
  return (entry.name.getD description.name, description)

def GroupSpec.make (spec : GroupSpec Script) : Work Fault (Group Callback) := do
  let configured ← spec.config.mapM configOf
  let config := (configured.map (·.group spec.name)).getD {}
  let tables ← spec.tables.mapM GroupEntry.make
  return {
    name := spec.name
    tables := .ofList tables
    config := spec.settings.getD config
    onAction := ← Callback.makeOption spec.onAction
    onDefineTable := ← Callback.makeOption spec.onDefineTable
    onDefineModel := ← Callback.makeOption spec.onDefineModel }

def BuilderSpec.make (spec : BuilderSpec Script) : Work Fault (Builder Callback) := do
  let configured ← spec.config.mapM configOf
  let migrate := (configured.map fun config => .ofSetting config.indexes.migrate).getD (.all false)
  return {
    database := spec.database
    migrate := spec.migrate.getD migrate
    migrator := ← spec.migrator.mapM MigratorSpec.make
    cache := ← Work.freshNumber }

end SchemaCompiler.Session
