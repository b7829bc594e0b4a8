import SchemaCompiler.Error
import SchemaCompiler.OrderedMap

/-!
Build settings: groups with a prefix and a key policy, which tables get their indexes migrated,
how to log, and overrides for environments. Applying an environment uses it up, so a second
application finds nothing. An override of a group changes only what it mentions, one of the index
settings replaces them, and one of the debug settings changes only the fields it sets.
-/
namespace SchemaCompiler

/-- Settings shared by the tables of a group. -/
structure GroupConfig where
  /-- The prefix as it was given. -/
  rawPrefix : Option String := none
  /-- Whether keys on `id` are made up. -/
  autoKey : Bool := false
  deriving DecidableEq

/-- The prefix of stored names; an empty one is none. -/
def GroupConfig.tablePrefix (config : GroupConfig) : Option String :=
  config.rawPrefix.filter (· ≠ "")

/-- Which tables get their indexes migrated. -/
inductive MigrateSetting where
  /-- All or none. -/
  | flag (value : Bool)
  /-- The listed ones. -/
  | tables (names : List String)
  deriving DecidableEq

def MigrateSetting.appliesTo (setting : MigrateSetting) (table : String) : Bool :=
  match setting with
  | flag value => value
  | tables names => table ∈ names

structure IndexConfig where
  migrate : MigrateSetting := .flag false
  deriving DecidableEq

structure DebugConfig where
  logLevel : Option String := none
  logFormat : Option String := none
  deriving DecidableEq

/-- Changes to the settings of one group. -/
structure GroupOverride where
  rawPrefix : Option String := none
  autoKey : Option Bool := none
  deriving DecidableEq

/-- Changes to a configuration. -/
structure EnvironmentOverride where
  groups : OrderedMap String GroupOverride := .empty
  indexes : Option IndexConfig := none
  debug : Option DebugConfig := none

structure Config where
  groups : OrderedMap String GroupConfig := .empty
  indexes : IndexConfig := {}
  debug : DebugConfig := {}
  environments : OrderedMap String EnvironmentOverride := .empty

/-- Changes what an override mentions. -/
def GroupOverride.apply (change : GroupOverride) (config : GroupConfig) : GroupConfig where
  rawPrefix := change.rawPrefix.or config.rawPrefix
  autoKey := change.autoKey.getD config.autoKey

/-- The fields that the later settings set, and the earlier ones otherwise. -/
def DebugConfig.overriddenBy (config later : DebugConfig) : DebugConfig where
  logLevel := later.logLevel.or config.logLevel
  logFormat := later.logFormat.or config.logFormat

namespace Config

/-- The settings of a group; one that is not configured has the defaults. -/
def group (config : Config) (name : String) : GroupConfig := (config.groups.get? name).getD {}

/-- The settings of a group that has to be configured. -/
def requireGroup (config : Config) (name : String) : Except SchemaError GroupConfig :=
  match config.groups.get? name with
  | some group => .ok group
  | none => .error (.configuration ("unknown group `" ++ name ++ "`"))

/-- Applies an override; a group it mentions first starts from the defaults. -/
def override (config : Config) (change : EnvironmentOverride) : Config where
  groups := change.groups.entries.foldl
    (fun groups entry =>
      groups.insert entry.1 (entry.2.apply ((groups.get? entry.1).getD {})))
    config.groups
  indexes := change.indexes.getD config.indexes
  debug := match change.debug with
    | some debug => config.debug.overriddenBy debug
    | none => config.debug
  environments := config.environments

/-- Applies the environment of a name, if there is one, and uses it up. -/
def withEnvironment (config : Config) (name : String) : Config :=
  match config.environments.get? name with
  | none => config
  | some change =>
    { config with environments := config.environments.erase name }.override change

/-- Applies environments one after the other. -/
def withEnvironments (config : Config) (names : List String) : Config :=
  names.foldl withEnvironment config

end Config
end SchemaCompiler
