import SchemaCompiler.Build.Group
import SchemaCompiler.Session.Expression

/-!
The steps of a session and the scripts that stand in for callbacks. Steps name what they work on:
databases, caches and stores come into being when they are first named, everything else has to
have been filed under its name by an earlier step. A script runs steps of its own when it is
called, so steps are defined over a type of scripts and scripts are tied to them afterwards.
-/
namespace SchemaCompiler.Session

/-- How a scripted migrator fails once its script has run. -/
inductive MigratorFault where
  | store (reason : String)
  | invalidIndex (index reason : String)

inductive MigratorSpec (σ : Type) where
  | store (id : String)
  | script (script : σ) (fault : Option MigratorFault)

/-- A member to be declared. -/
inductive MemberSpec (σ : Type) where
  | field (field : Field)
  | virtual (getter : Getter)
  | method (call : RowMethod)
  | hook (script : σ)
  | tableMethod (script : σ)
  /-- The table's own post-definition callback, whatever name it is listed under. -/
  | onDefine (script : σ)
  | index (index : Index)
  /-- The metadata for the group, whatever name it is listed under. -/
  | extra (value : Json)
  | option (value : Json)

structure DescriptionSpec (σ : Type) where
  id : String
  name : String
  members : List (String × MemberSpec σ)
  /-- The ids of the mixins. -/
  mixins : List String

/-- Settings for a compilation: those of a group first, then single ones over them. -/
structure OptionsSpec (σ : Type) where
  group : Option GroupConfig := none
  name : Option String := none
  tablePrefix : Option String := none
  autoKey : Option Bool := none
  commonHook : Option σ := none
  onDefineTable : Option σ := none
  migrator : Option (MigratorSpec σ) := none
  migrateIndexes : Bool := false

/-- A field to be defined, with requirements that have yet to be resolved. -/
inductive FieldSpec where
  | plain (name : String) (typeArgs : List String) (options : Options)
    (requirements : List Requirement)
  | virtual (name : String) (getter : Getter)
  | method (name : String) (call : RowMethod)

structure DefinitionSpec where
  name : String
  fields : List FieldSpec
  physicalOverride : Option String
  primaryKey : Option (List String)
  options : Options

/-- Where the settings of a configuration come from. -/
inductive ConfigSource where
  | text (text : String)
  /-- A file. Sessions have none, so reading it fails. -/
  | file (path : String)

/-- A table of a group: a description, under its own name or another one. -/
structure GroupEntry where
  name : Option String
  description : String

structure GroupSpec (σ : Type) where
  id : String
  name : String
  /-- The id of the configuration that has the group's settings. -/
  config : Option String
  /-- Settings that replace those of the configuration. -/
  settings : Option GroupConfig
  tables : List GroupEntry
  onAction : Option σ
  onDefineTable : Option σ
  onDefineModel : Option σ

structure BuilderSpec (σ : Type) where
  id : String
  database : String
  /-- The id of the configuration that has the index settings. -/
  config : Option String
  /-- A choice that replaces that of the configuration. -/
  migrate : Option MigrateIndexes
  migrator : Option (MigratorSpec σ)

/-- A hook of a list that was saved. -/
structure HookRef where
  id : String
  position : Nat

/-- Which table is meant: the one of a handle, or the current one of a name. -/
structure Target where
  /-- A kept handle; `self` means the table at hand. No handle is meant if it is empty. -/
  handle : String
  table : String
  database : String

inductive HookSource (σ : Type) where
  | script (script : σ) (observe : Bool)
  | saved (hook : HookRef)

/-- Steps that work on one table. -/
inductive TableStep (σ : Type) where
  | info
  | definition
  | inspect
  | size
  | insert (values : Row)
  | update (ids : List UInt64) (values : Row)
  | delete (ids : List UInt64)
  | read (row : UInt64)
  | select (wanted : Row)
  | callRowMethod (row : UInt64) (name : String) (args : List Json)
  | call (name : String) (args : List Json)
  | register (name : String) (script : σ)
  | addHook (phase : Option Phase) (source : HookSource σ)
  /-- Saves the hooks of a phase under a name. -/
  | saveHooks (phase : Option Phase) (id : String)
  /-- Binds a common hook for one phase and attaches it to another. -/
  | bind (phase : Option Phase) (common : String) (boundPhase : Option Phase)
  | plan (store : String) (plan : Plan)
  | migrate (store : String) (plan : Plan)

/-- Steps that work on one index store. -/
inductive StoreStep where
  /-- Puts a new store in the place of the one that has the name. -/
  | renew (keepUnknown : Bool)
  | indexes (table : String)
  | create (index : StoredIndex)
  | drop (table index : String)
  | apply (diff : IndexDiff)

/-- Steps that work on one signature cache. -/
inductive CacheStep where
  | stats
  | clear
  | evict (database : String)
  | contains (description database : String)
  | resolve (description database : String)

inductive Step (σ : Type) where
  | describe (spec : DescriptionSpec σ)
  | inspectMembers (description : String)
  | inspectOptions (options : OptionsSpec σ)
  | classify (description : String) (table : Option String) (database : String)
  | compile (description : String) (options : OptionsSpec σ) (database cache : String)
    (saveAs : Option String)
  | onCache (cache : String) (step : CacheStep)
  | define (definition : DefinitionSpec) (database : String) (saveAs : Option String)
  | fieldSource (definition : DefinitionSpec) (database : String)
  /-- Compares the shapes of two fields both ways. -/
  | compareShapes (a b : FieldSpec) (database : String)
  | databaseInfo (database : String)
  | lookup (database table : String)
  | keepHandle (target : Target) (saveAs : String)
  | dropHandle (name : String)
  | onTable (target : Target) (step : TableStep σ)
  | saveCommon (id : String) (script : σ)
  | callHook (hook : HookRef) (args : HookArgs)
  | sameHook (a b : HookRef)
  | configure (id : String) (source : ConfigSource) (environments : List String)
  | group (spec : GroupSpec σ)
  | builder (spec : BuilderSpec σ)
  | build (builder : String) (groups : List String) (saveAs : Option String)
  | onStore (store : String) (step : StoreStep)
  | unknown (name : String)

/-- What a callback does when it is called. -/
structure Script where
  label : Json := .null
  /-- How many calls it is active for; later ones do nothing. -/
  times : Option Nat := none
  /-- The names of the phases it is active at. -/
  phases : Option (List String) := none
  /-- The tables it is active for. -/
  tables : Option (List String) := none
  /-- Steps to run, each under the name it goes by in the log. -/
  steps : List (String × Step Script) := []
  /-- Fails with this reason after its steps. -/
  failure : Option String := none
  /-- Asks for the operation to be cancelled; only hooks can. -/
  aborts : Bool := false
  result : Expression := .constant .null
  /-- Names of tables whose presence the log tells. -/
  probes : List String := []

instance : Inhabited Script := ⟨{}⟩

end SchemaCompiler.Session
