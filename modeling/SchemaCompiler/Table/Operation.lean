import SchemaCompiler.Table.Admission
import SchemaCompiler.World

/-!
Operations on the rows of a table, through one of its handles. Each of insertion, update and
deletion checks first, then calls the before hooks, writes in a single step, and calls the after
hooks. The first before hook that aborts or fails ends the operation without a write; an after
hook that fails is reported although the write is done, and its abort means nothing. Hooks may
work on the same table, so the write looks at the rows as they are by then.
-/
namespace SchemaCompiler.Handle

variable {κ ε e : Type}

/-! ## Hooks and methods -/

/-- The hooks of a phase in the order of attachment. -/
def hooks (handle : Handle) (phase : Phase) : Action κ ε e (List (Hook κ)) :=
  return ((← get).decoration handle).hooks phase

/-- Adds a hook to a phase, after those it has. -/
def attach (handle : Handle) (phase : Phase) (hook : Hook κ) : Action κ ε e Unit :=
  modify fun world => world.decorate handle fun decoration => decoration.attach phase hook

/-- Files a table method under a name. -/
def register (handle : Handle) (name : String) (method : κ) : Action κ ε e Unit :=
  modify fun world => world.decorate handle fun decoration => decoration.register name method

/-- Makes a hook that tells a common callback the handle and the phase. -/
def bind (handle : Handle) (callback : κ) (phase : Phase) : Action κ ε e (Hook κ) :=
  Hook.make (.bound callback handle phase)

/-- Calls a table method. -/
def call (callbacks : Callbacks κ ε) (handle : Handle) (name : String) (args : List Json) :
    Action κ ε CallbackError Json := do
  match ((← get).decoration handle).methods.get? name with
  | none => throw ⟨"table `" ++ handle.name ++ "` has no method `" ++ name ++ "`"⟩
  | some method => holding [handle] (callbacks.tableMethod method handle args)

/-- Calls hooks until one aborts or fails, and tells whether one aborted. -/
def runBefore (callbacks : Callbacks κ ε) (args : HookArgs) :
    List (Hook κ) → Action κ ε RowError Bool
  | [] => return false
  | hook :: rest => do
    match ← (hook.call callbacks args).adapt RowError.callback with
    | .abort => return true
    | .proceed => runBefore callbacks args rest

/-- Calls hooks until one fails. -/
def runAfter (callbacks : Callbacks κ ε) (args : HookArgs) :
    List (Hook κ) → Action κ ε RowError Unit
  | [] => return
  | hook :: rest => do
    let _ ← (hook.call callbacks args).adapt RowError.callback
    runAfter callbacks args rest

/-! ## Writing -/

/-- Stores a row that was admitted, under the id it brings or the next one. -/
def write (handle : Handle) (brought : Option UInt64) (row : Row) :
    Action κ ε RowError (UInt64 × Row) := do
  let world ← get
  match (world.storage handle).insert brought row with
  | .error id => throw (.duplicateKey handle.name id)
  | .ok (id, row, storage) =>
    set (world.setStorage handle storage)
    return (id, row)

/-- Inserts a row and gives its id, or nothing if a before hook aborted. -/
def insert (callbacks : Callbacks κ ε) (handle : Handle) (values : Row) :
    Action κ ε RowError (Option UInt64) :=
  holding [handle] do
    let (row, brought) ← Action.ofExcept (handle.definition.admitInsertion (← get).isRow values)
    if ← runBefore callbacks (.insert row) (← handle.hooks .beforeInsert) then return none
    let (id, row) ← handle.write brought row
    runAfter callbacks (.inserted row id) (← handle.hooks .afterInsert)
    return some id

/-- Updates the rows that have one of the ids and gives how many ids that were. Ids that key no
row are passed over. -/
def update (callbacks : Callbacks κ ε) (handle : Handle) (ids : List UInt64) (values : Row) :
    Action κ ε RowError Nat :=
  holding [handle] do
    let world ← get
    Action.ofExcept (handle.definition.admitUpdate world.isRow values)
    let ids := (world.storage handle).existing ids
    if ids.isEmpty then return 0
    let args := HookArgs.update ids values
    if ← runBefore callbacks args (← handle.hooks .beforeUpdate) then return 0
    modify fun world => world.setStorage handle ((world.storage handle).update ids values)
    runAfter callbacks args (← handle.hooks .afterUpdate)
    return ids.length

/-- Removes the rows that have one of the ids and gives how many ids that were. -/
def delete (callbacks : Callbacks κ ε) (handle : Handle) (ids : List UInt64) :
    Action κ ε RowError Nat :=
  holding [handle] do
    let ids := ((← get).storage handle).existing ids
    if ids.isEmpty then return 0
    let args := HookArgs.delete ids
    if ← runBefore callbacks args (← handle.hooks .beforeDelete) then return 0
    modify fun world => world.setStorage handle ((world.storage handle).delete ids)
    runAfter callbacks args (← handle.hooks .afterDelete)
    return ids.length

/-! ## Reading -/

/-- How many rows the table has. -/
def size (handle : Handle) (world : World κ ε) : Nat := (world.storage handle).rows.size

/-- The row of an id with its virtual fields. -/
def get? (handle : Handle) (world : World κ ε) (id : UInt64) : Option Row :=
  ((world.storage handle).rows.get? id).map handle.definition.withVirtuals

/-- The rows, with their virtual fields, that a filter accepts, in insertion order. -/
def select (handle : Handle) (world : World κ ε) (filter : Row → Bool) : List Row :=
  ((world.storage handle).rows.values.map handle.definition.withVirtuals).filter filter

/-- Calls a row method on a stored row with its virtual fields. -/
def callRowMethod (handle : Handle) (world : World κ ε) (id : UInt64) (name : String)
    (args : List Json) : Except RowError Json :=
  match handle.definition.method? name with
  | none => .error (.unknownMethod handle.name name)
  | some method =>
    match handle.get? world id with
    | none => .error (.rowNotFound handle.name id)
    | some row => (method row args).mapError .callback

end SchemaCompiler.Handle
