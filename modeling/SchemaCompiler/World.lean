import SchemaCompiler.Index.Store
import SchemaCompiler.Signature

/-!
Everything that operations can see and change: databases, signature caches, index stores, the
handles that are held open, and a state `ε` that belongs to the application. An action runs in the
world, may fail, and what it did before failing stays done. Callbacks are values of a type `κ`; a
`Callbacks` record says what each kind of call does, and may do anything an action may, including
operations on the table it was called for. Statements about operations therefore hold for every
`Callbacks` record, or say what they ask of it.
-/
namespace SchemaCompiler

structure World (κ ε : Type) where
  databases : OrderedMap String (Database κ) := .empty
  caches : OrderedMap Nat SignatureCache := .empty
  stores : OrderedMap Nat StoreMigrator := .empty
  /-- Handles the application keeps under names. -/
  kept : OrderedMap String Handle := .empty
  /-- Compiled signatures the application keeps, each with the number of its cache. -/
  keptSignatures : List (Nat × Signature) := []
  /-- Handles that running operations work on, innermost first. -/
  inUse : List Handle := []
  /-- How many hooks were made. -/
  hooksMade : Nat := 0
  application : ε

/-- A computation in the world that may fail with an `e`. -/
abbrev Action (κ ε e : Type) := ExceptT e (StateM (World κ ε))

namespace World

variable {κ ε : Type}

/-- The database of a name; one that was not used before is empty. -/
def database (world : World κ ε) (name : String) : Database κ :=
  (world.databases.get? name).getD {}

def setDatabase (world : World κ ε) (name : String) (db : Database κ) : World κ ε :=
  { world with databases := world.databases.insert name db }

/-- The cache of a number; one that was not used before is empty. -/
def cache (world : World κ ε) (number : Nat) : SignatureCache :=
  (world.caches.get? number).getD {}

def setCache (world : World κ ε) (number : Nat) (cache : SignatureCache) : World κ ε :=
  { world with caches := world.caches.insert number cache }

/-- The store of a number; one that was not used before is empty. -/
def store (world : World κ ε) (number : Nat) : StoreMigrator :=
  (world.stores.get? number).getD {}

def setStore (world : World κ ε) (number : Nat) (store : StoreMigrator) : World κ ε :=
  { world with stores := world.stores.insert number store }

/-- The rows of a handle's table. -/
def storage (world : World κ ε) (handle : Handle) : Storage :=
  (world.database handle.database).storage handle.name

def setStorage (world : World κ ε) (handle : Handle) (storage : Storage) : World κ ε :=
  world.setDatabase handle.database
    ((world.database handle.database).setStorage handle.name storage)

/-- What is attached to a handle. -/
def decoration (world : World κ ε) (handle : Handle) : Decoration κ :=
  (world.database handle.database).decoration handle.id.serial

def decorate (world : World κ ε) (handle : Handle) (change : Decoration κ → Decoration κ) :
    World κ ε :=
  world.setDatabase handle.database
    ((world.database handle.database).decorate handle.id.serial change)

/-- Tells validators which rows are stored. -/
def isRow (world : World κ ε) : RowLookup := fun table id =>
  ((world.database table.handle.database).storage table.table).rows.contains id

/-! ## Which handles are open

A handle is open while its database lists it, the application keeps it, or a running operation
works on it, and also while a validator of an open handle, or of a signature that is cached or
kept, looks rows up through it. -/

/-- The handles that are open on their own account. -/
def roots (world : World κ ε) : List Handle :=
  world.inUse ++ world.kept.values ++
    world.databases.values.flatMap fun db => db.tables.values

/-- The signatures that are cached or kept. -/
def signatures (world : World κ ε) : List Signature :=
  (world.caches.values.flatMap fun cache => cache.entries.values) ++
    world.keptSignatures.map Prod.snd

/-- The handles that validators of those signatures look rows up through. -/
def signatureReferences (world : World κ ε) : List HandleId :=
  world.signatures.flatMap fun signature =>
    signature.fields.flatMap fun field => field.references.map TableRef.handle

/-- The handles that validators of a definition look rows up through. -/
def references (definition : TableDefinition) : List HandleId :=
  definition.fields.flatMap fun field => field.references.map TableRef.handle

/-- Adds the handles that open ones refer to, in as many rounds as given. -/
def closure (opened : List Handle) : Nat → List HandleId → List HandleId
  | 0, ids => ids
  | rounds + 1, ids =>
    closure opened rounds <| ids ++
      ((opened.filter fun handle => handle.id ∈ ids).flatMap fun handle =>
        (references handle.definition).filter (· ∉ ids))

/-- Whether a handle is open. A chain of references visits no handle twice, so there are enough
rounds. -/
def isOpen (world : World κ ε) (handle : Handle) : Bool :=
  world.roots.any (fun root => root.id == handle.id) ||
    let opened := world.databases.values.flatMap Database.opened
    handle.id ∈ closure opened opened.length
      (world.roots.map Handle.id ++ world.signatureReferences)

end World

/-- An outcome that was decided without the world. -/
def Action.ofExcept {κ ε e α : Type} (result : Except e α) : Action κ ε e α := fun world =>
  (result, world)

/-- Runs an action while holding handles open. -/
def holding {κ ε e α : Type} (handles : List Handle) (action : Action κ ε e α) :
    Action κ ε e α := fun world =>
  let (result, after) := action { world with inUse := handles ++ world.inUse }
  (result, { after with inUse := world.inUse })

/-- What calls of callbacks do. -/
structure Callbacks (κ ε : Type) where
  hook : κ → HookArgs → Action κ ε CallbackError HookFlow
  /-- A hook that is told the table and the phase. -/
  common : κ → Handle → Phase → HookArgs → Action κ ε CallbackError HookFlow
  /-- A method of a table, called with arguments. -/
  tableMethod : κ → Handle → List Json → Action κ ε CallbackError Json
  /-- Runs with each finished table of a group; the string is the description's name. -/
  onDefineTable : κ → String → Handle → Action κ ε CallbackError Unit
  /-- Runs after the last table of a group; told the database and the metadata of its tables. -/
  onDefineModel : κ → String → OrderedMap String Json → Action κ ε CallbackError Unit
  /-- An index migrator of the application's own. -/
  migrate : κ → Handle → Plan → Action κ ε MigrationError Unit

namespace Hook

variable {κ ε : Type}

/-- Makes a hook that differs from all others. -/
def make {e : Type} (action : HookAction κ) : Action κ ε e (Hook κ) :=
  modifyGet fun world =>
    (⟨world.hooksMade, action⟩, { world with hooksMade := world.hooksMade + 1 })

/-- Calls a hook. One that is bound to a handle fails once the handle is no longer open. -/
def call (callbacks : Callbacks κ ε) (hook : Hook κ) (args : HookArgs) :
    Action κ ε CallbackError HookFlow :=
  match hook.action with
  | .call callback => callbacks.hook callback args
  | .observe callback => fun world => (.ok .proceed, (callbacks.hook callback args world).2)
  | .bound callback table phase => do
    if (← get).isOpen table then
      holding [table] (callbacks.common callback table phase args)
    else throw ⟨"`" ++ phase.name ++ "` hook fired on a dropped table"⟩

end Hook
end SchemaCompiler
