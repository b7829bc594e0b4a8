import SchemaCompiler.Session.Answer

/-!
What a session keeps beside the world: what was filed under names, how often each script was
called, and the log. Caches and stores are numbered, and a name stands for a number, so that a
store that was put in the place of another does not disturb those who still use the old one.
-/
namespace SchemaCompiler.Session

structure State where
  descriptions : OrderedMap String (Description Callback) := .empty
  hooks : OrderedMap String (List (Hook Callback)) := .empty
  commons : OrderedMap String Callback := .empty
  groups : OrderedMap String (Group Callback) := .empty
  builders : OrderedMap String (Builder Callback) := .empty
  configs : OrderedMap String Config := .empty
  caches : OrderedMap String Nat := .empty
  stores : OrderedMap String Nat := .empty
  /-- The caches of builders that are at work, innermost first. -/
  building : List Nat := []
  /-- How often each script was called. -/
  calls : OrderedMap Nat Nat := .empty
  /-- The next number for a description, a script, a cache or a store. -/
  nextNumber : Nat := 0
  log : List LogEntry := []

/-- The world of a session. -/
abbrev Scene := World Callback State

/-- A piece of a session's work, which may end in an error `e`. -/
abbrev Work (e : Type) := Action Callback State e

/-- The work of one step. -/
abbrev Perform := Option Handle → Step Script → Work Fault Reply

namespace Work

variable {e : Type}

/-- Changes what the session keeps. -/
def update (change : State → State) : Work e Unit :=
  modify fun world => { world with application := change world.application }

/-- What the session keeps. -/
def state : Work e State := return (← get).application

/-- A number that was not used before. -/
def freshNumber : Work e Nat := do
  let number := (← state).nextNumber
  update fun state => { state with nextNumber := number + 1 }
  return number

/-- Something that has to be there. -/
def require {α : Type} (found : Option α) (what : Missing) : Work Fault α :=
  match found with
  | some value => return value
  | none => throw (.missing what)

/-- Tells two outcomes of some work apart instead of failing. -/
def outcome {e' α : Type} (work : Work e α) : Work e' (Except e α) := fun world =>
  let (result, after) := work world
  (.ok result, after)

/-- Adds an entry to the log. -/
def record (entry : LogEntry) : Work e Unit :=
  update fun state => { state with log := state.log ++ [entry] }

end Work

/-- Gives a script its role as a callback that counts its calls from now on. -/
def Callback.make {e : Type} (script : Script) (role : Role := .plain) : Work e Callback :=
  return ⟨← Work.freshNumber, script, role⟩

/-- The callback of a script that may be missing. -/
def Callback.makeOption {e : Type} (script : Option Script) : Work e (Option Callback) :=
  script.mapM (Callback.make · .plain)

/-- The table of a handle as expressions see it. -/
def viewOf (handle : Handle) (world : Scene) : TableView := ⟨handle.info world, handle.size world⟩

namespace Callback

/-- Counts a call and tells how many there were before it. -/
def countCall {e : Type} (callback : Callback) : Work e Nat := do
  let earlier := ((← Work.state).calls.get? callback.slot).getD 0
  Work.update fun state => { state with calls := state.calls.insert callback.slot (earlier + 1) }
  return earlier

/-- Runs steps one after the other and logs their outcomes; none stops the others. -/
def runSteps (perform : Perform) (self : Option Handle) :
    List (String × Step Script) → Work CallbackError Unit
  | [] => return
  | (name, step) :: rest => do
    Work.record (.nested name (← (perform self step).outcome))
    runSteps perform self rest

/-- Logs a call of a callback and, if its script is active, runs the script. Tells whether it was
active; then it did not fail. -/
def run (perform : Perform) (callback : Callback) (occasion : Occasion) (self : Option Handle) :
    Work CallbackError Bool := do
  let earlier ← callback.countCall
  let script := callback.script
  Work.record (.called script.label occasion)
  if script.isActive earlier occasion then
    runSteps perform self script.steps
    match script.failure with
    | some message => throw ⟨message⟩
    | none => return true
  else return false

/-- Calls a callback as a hook. -/
def runHook (perform : Perform) (callback : Callback) (occasion : Occasion)
    (self : Option Handle) : Work CallbackError HookFlow := do
  let active ← callback.run perform occasion self
  return if active && callback.script.aborts then .abort else .proceed

/-- Calls a callback as a table method. -/
def runMethod (perform : Perform) (callback : Callback) (handle : Handle) (args : List Json) :
    Work CallbackError Json := do
  let info := handle.info (← get)
  let occasion : Occasion := match callback.role with
    | .method name => .tableMethod name handle.name args
    | _ => .onDefine info
  if ← callback.run perform occasion (some handle) then
    return callback.script.result.eval { args, table := some (viewOf handle (← get)) }
  else return .null

/-- Calls a callback as an index migrator. -/
def runMigrator (perform : Perform) (callback : Callback) (handle : Handle) (plan : Plan) :
    Work MigrationError Unit := do
  let occasion := Occasion.migrate handle.name handle.definition.physicalName plan
  let _ ← (callback.run perform occasion (some handle)).adapt fun refusal =>
    MigrationError.other refusal.message
  match callback.role with
  | .migrator (some (.store reason)) => throw (.store reason)
  | .migrator (some (.invalidIndex index reason)) =>
    throw (.invalidIndex handle.name index reason)
  | _ => return

end Callback

/-- What calls of callbacks do, when the steps of scripts are performed in the given way. -/
def callbacksOver (perform : Perform) : Callbacks Callback State where
  hook callback args := callback.runHook perform (.hook args) none
  common callback handle phase args :=
    callback.runHook perform (.common handle.name phase args) (some handle)
  tableMethod callback handle args := callback.runMethod perform handle args
  onDefineTable callback description handle := do
    let info := handle.info (← get)
    let _ ← callback.run perform (.onDefineTable description info) (some handle)
  onDefineModel callback database extras := do
    let tables := ((← get).database database).tables
    let defined := callback.script.probes.map tables.contains
    let _ ← callback.run perform (.onDefineModel extras defined) none
  migrate callback handle plan := callback.runMigrator perform handle plan

end SchemaCompiler.Session
