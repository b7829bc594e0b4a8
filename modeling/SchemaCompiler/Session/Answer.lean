import SchemaCompiler.Session.Script

/-!
What callbacks, steps and the log have to say. A callback is a script with the role it was given;
the log has an entry for each call and for the answer of each step that a script ran. A step either
replies or names its fault.
-/
namespace SchemaCompiler.Session

/-- What a script was declared as, as far as its calls depend on it. -/
inductive Role where
  | plain
  /-- A table method of a name. -/
  | method (name : String)
  /-- The table's own post-definition callback. -/
  | onDefine
  /-- An index migrator, and how it fails once the script has run. -/
  | migrator (fault : Option MigratorFault)

structure Callback where
  /-- Tells scripts apart for the counting of calls. -/
  slot : Nat
  script : Script
  role : Role := .plain

/-- The occasion of a call. -/
inductive Occasion where
  | hook (args : HookArgs)
  | common (table : String) (phase : Phase) (args : HookArgs)
  | tableMethod (method table : String) (args : List Json)
  | onDefine (info : TableInfo)
  | onDefineTable (description : String) (info : TableInfo)
  /-- For each name that the script probes, whether the database has a table of that name. -/
  | onDefineModel (extras : OrderedMap String Json) (defined : List Bool)
  | migrate (table physicalName : String) (plan : Plan)

namespace Occasion

/-- The phase that a call is told. -/
def phase? : Occasion → Option Phase
  | common _ phase _ => some phase
  | _ => none

/-- The table that a call is told. -/
def table? : Occasion → Option String
  | common table _ _ => some table
  | tableMethod _ table _ => some table
  | onDefine info => some info.name
  | onDefineTable _ info => some info.name
  | migrate table _ _ => some table
  | hook _ | onDefineModel .. => none

end Occasion

/-- Whether a script is active in a call, given how often it was called before. A limit on phases
or tables excludes the calls that are told none. -/
def Script.isActive (script : Script) (earlier : Nat) (occasion : Occasion) : Bool :=
  script.times.all (earlier < ·) &&
  script.phases.all (fun names => occasion.phase?.any (·.name ∈ names)) &&
  script.tables.all fun names => occasion.table?.any (· ∈ names)

/-- Something a step names that is not there. -/
inductive Missing where
  | description (id : String)
  | config (id : String)
  | group (id : String)
  | builder
  | hook
  | common
  | phase
  | table (target : Target)

def Missing.message : Missing → String
  | description id => "description " ++ id
  | config id => "config " ++ id
  | group id => "group " ++ id
  | builder => "builder"
  | hook => "hook"
  | common => "common"
  | phase => "phase"
  | table target => "table " ++ target.handle ++ target.table

inductive Fault where
  | schema (source : SchemaError)
  | layer (source : LayerError)
  | migration (source : MigrationError)
  | row (source : RowError)
  | build (source : BuildError)
  | callback (source : CallbackError)
  | validator (source : ValidatorError)
  | missing (what : Missing)
  | unknownStep (name : String)

inductive Reply where
  | done
  | flag (value : Bool)
  | flags (values : List Bool)
  | count (value : Nat)
  | value (value : Json)
  | text (text : Option String)
  | names (names : List String)
  | description (description : Description Callback)
  | members (members : List (String × Member Callback))
  | classification (classification : Classification Callback)
  | table (info : Option TableInfo)
  | signature (signature : Signature) (identity : Nat)
  | cache (cache : SignatureCache)
  | fields (fields : List FieldDefinition)
  | database (database : Database Callback)
  | definition (definition : TableDefinition)
  /-- A table and its number of rows, to be inspected. -/
  | inspection (definition : TableDefinition) (size : Nat)
  | size (value : Nat)
  | id (id : Option UInt64)
  | row (row : Option Row)
  | rows (rows : List Row)
  | diff (diff : IndexDiff)
  | flow (flow : HookFlow)
  | config (config : Config)
  | group (group : Group Callback)
  | built (tables : List (String × TableInfo)) (cache : SignatureCache)
  | indexes (indexes : List StoredIndex)

inductive LogEntry where
  | called (label : Json) (occasion : Occasion)
  /-- A step that a script ran, and its outcome. -/
  | nested (step : String) (outcome : Except Fault Reply)

end SchemaCompiler.Session
