import SchemaCompiler.Session.Construction

/-!
Running a session. Each step is performed in the world that the steps before it left, and no fault
stops those after it. The scripts of callbacks perform steps as well, whose callbacks perform steps
in turn; `perform` is given the callbacks, and `callbacks` ties the knot to a depth. A call beyond
the depth is refused, like any call that fails.
-/
namespace SchemaCompiler.Session

/-! ## Single steps -/

/-- The number of hooks of a phase. -/
def countHooks (handle : Handle) (phase : Phase) : Work Fault Reply :=
  return .count (← handle.hooks phase).length

namespace TableStep

/-- Performs a step on the table of a handle. -/
def perform (callbacks : Callbacks Callback State) (handle : Handle) :
    TableStep Script → Work Fault Reply
  | .info => return .table (handle.info (← get))
  | .definition => return .definition handle.definition
  | .inspect => return .inspection handle.definition (handle.size (← get))
  | .size => return .size (handle.size (← get))
  | .insert values => return .id (← (handle.insert callbacks values).adapt .row)
  | .update ids values => return .count (← (handle.update callbacks ids values).adapt .row)
  | .delete ids => return .count (← (handle.delete callbacks ids).adapt .row)
  | .read row => return .row (handle.get? (← get) row)
  | .select wanted => return .rows (handle.select (← get) (·.matchesAll wanted))
  | .callRowMethod row name args => do
    let result := handle.callRowMethod (← get) row name args
    return .value (← (Action.ofExcept result).adapt .row)
  | .call name args => return .value (← (handle.call callbacks name args).adapt .callback)
  | .register name script => do
    handle.register name (← Callback.make script (.method name))
    return .names ((← get).decoration handle).methods.keys
  | .addHook phase source => do
    let phase ← Work.require phase .phase
    let hook ← match source with
      | .saved ref => ref.find
      | .script script observe => do
        let callback ← Callback.make script
        Hook.make (if observe then .observe callback else .call callback)
    handle.attach phase hook
    countHooks handle phase
  | .saveHooks phase id => do
    let phase ← Work.require phase .phase
    let hooks ← handle.hooks phase
    Work.update fun state => { state with hooks := state.hooks.insert id hooks }
    return .count hooks.length
  | .bind phase common boundPhase => do
    let phase ← Work.require phase .phase
    let callback ← Work.require ((← Work.state).commons.get? common) .common
    handle.attach phase (← handle.bind callback (boundPhase.getD phase))
    countHooks handle phase
  | .plan store wanted => do
    let migrator := (← get).store (← storeNumber store)
    let diff := migrator.plan handle.definition.physicalName wanted
    return .diff (← (Action.ofExcept diff).adapt .migration)
  | .migrate store wanted => do
    let migrator := IndexMigrator.store (← storeNumber store)
    (migrator.migrate callbacks handle wanted).adapt .migration
    return .done

end TableStep

namespace StoreStep

/-- Replaces the index store of a migrator by the result of a change. -/
def change (number : Nat)
    (change : IndexStore → Except MigrationError Unit × IndexStore) : Work Fault Reply := do
  let migrator := (← get).store number
  let (result, store) := change migrator.store
  modify fun world => world.setStore number { migrator with store }
  (Action.ofExcept result).adapt .migration
  return .done

/-- Performs a step on the store of a name. -/
def perform (name : String) : StoreStep → Work Fault Reply
  | .renew keepUnknown => do
    let number ← Work.freshNumber
    Work.update fun state => { state with stores := state.stores.insert name number }
    modify fun world => world.setStore number { keepUnknown }
    return .done
  | .indexes table => do
    let migrator := (← get).store (← storeNumber name)
    return .indexes (migrator.store.indexes table)
  | .create index => do
    change (← storeNumber name) fun store =>
      match store.create index with
      | .ok store => (.ok (), store)
      | .error e => (.error e, store)
  | .drop table index => do
    change (← storeNumber name) fun store =>
      match store.drop table index with
      | .ok store => (.ok (), store)
      | .error e => (.error e, store)
  | .apply diff => do
    change (← storeNumber name) fun store => store.apply diff

end StoreStep

namespace CacheStep

/-- Keeps a compiled signature from its first reply on, and numbers it by when that was. -/
def identityOf (cache : Nat) (signature : Signature) : Work Fault Nat := do
  let known := (← get).keptSignatures
  match known.findIdx? fun kept => kept.1 == cache && kept.2.serial == signature.serial with
  | some place => return place
  | none =>
    modify fun world => { world with keptSignatures := known ++ [(cache, signature)] }
    return known.length

/-- Performs a step on the cache of a name. -/
def perform (name : String) (step : CacheStep) : Work Fault Reply := do
  let number ← cacheNumber name
  match step with
  | .stats => return .cache ((← get).cache number)
  | .clear => changed number SignatureCache.clear
  | .evict database => changed number (SignatureCache.evict · database)
  | .contains id database =>
    let description ← descriptionOf id
    return .flag (((← get).cache number).contains database description.identity)
  | .resolve id database =>
    let description ← descriptionOf id
    let signature ← (resolveIn database number (description.resolve database)).adapt .build
    return .signature signature (← identityOf number signature)
where
  /-- Changes a cache and replies with it. -/
  changed (number : Nat) (change : SignatureCache → SignatureCache) : Work Fault Reply := do
    modify fun world => world.setCache number (change (world.cache number))
    return .cache ((← get).cache number)

end CacheStep

/-- Builds groups, a single one on its own. -/
def buildGroups (callbacks : Callbacks Callback State) (builder : Builder Callback) :
    List (Group Callback) → Work BuildError (OrderedMap String Handle)
  | [group] => builder.build callbacks group
  | groups => builder.buildAll callbacks groups

/-- Drops the cache of a builder, unless a builder of the session has it or one at work has. -/
def dropCache (number : Nat) : Work e Unit := do
  let state ← Work.state
  unless number ∈ state.building ∨ number ∈ state.builders.values.map Builder.cache do
    modify fun world => { world with caches := world.caches.erase number }

/-- Does some work with a builder, which keeps its cache meanwhile even if another builder takes
its place. -/
def withBuilder {α : Type} (builder : Builder Callback) (work : Work Fault α) :
    Work Fault α := do
  Work.update fun state => { state with building := builder.cache :: state.building }
  let result ← work.outcome
  Work.update fun state => { state with building := state.building.erase builder.cache }
  dropCache builder.cache
  Action.ofExcept result

/-- Performs a step, where `self` is the table at hand. -/
def perform (callbacks : Callbacks Callback State) (env : Environment) (self : Option Handle) :
    Step Script → Work Fault Reply
  | .describe spec => do
    let description ← spec.make
    Work.update fun state =>
      { state with descriptions := state.descriptions.insert spec.id description }
    return .description description
  | .inspectMembers id => return .members (← descriptionOf id).members.entries
  | .inspectOptions options => return .text (← options.make).inspect
  | .classify id table database => do
    let description ← descriptionOf id
    let lookup := ((← get).database database).lookup
    let result := description.classify (table.getD description.name) lookup
    return .classification (← (Action.ofExcept result).adapt .build)
  | .compile id options database cache saveAs => do
    let description ← descriptionOf id
    let options ← options.make
    let work := compile callbacks database (← cacheNumber cache) options description
    let handle ← work.adapt .build
    keepAs saveAs handle
    return .table (handle.info (← get))
  | .onCache cache step => step.perform cache
  | .define spec database saveAs => do
    let definition ← spec.make database
    let handle ← (defineTable database definition).adapt .layer
    keepAs saveAs handle
    return .table (handle.info (← get))
  | .fieldSource spec database => do
    let definition ← spec.make database
    return .fields (← (fieldSource database definition).adapt .layer)
  | .compareShapes a b database => do
    let lookup := ((← get).database database).lookup
    let a ← (Action.ofExcept (a.make lookup)).adapt .validator
    let b ← (Action.ofExcept (b.make lookup)).adapt .validator
    return .flags [a.sameShape b, b.sameShape a, a.isStored, b.isStored]
  | .databaseInfo database => return .database ((← get).database database)
  | .lookup database table => do
    let world ← get
    return .table (((world.database database).tables.get? table).map (·.info world))
  | .keepHandle target saveAs => do
    keepAs saveAs (← Work.require (target.find? self (← get)) (.table target))
    return .done
  | .dropHandle name => do
    let known := (← get).kept.contains name
    modify fun world => { world with kept := world.kept.erase name }
    return .flag known
  | .onTable target step => do
    step.perform callbacks (← Work.require (target.find? self (← get)) (.table target))
  | .saveCommon id script => do
    let callback ← Callback.make script
    Work.update fun state => { state with commons := state.commons.insert id callback }
    return .done
  | .callHook ref args => do
    let hook ← ref.find
    return .flow (← (hook.call callbacks args).adapt .callback)
  | .sameHook a b => return .flag ((← a.find).isSame (← b.find))
  | .configure id source environments => do
    let config ← (Action.ofExcept (source.read env)).adapt .schema
    let config := config.withEnvironments environments
    Work.update fun state => { state with configs := state.configs.insert id config }
    return .config config
  | .group spec => do
    let group ← spec.make
    Work.update fun state => { state with groups := state.groups.insert spec.id group }
    return .group group
  | .builder spec => do
    let builder ← spec.make
    let replaced := (← Work.state).builders.get? spec.id
    Work.update fun state => { state with builders := state.builders.insert spec.id builder }
    replaced.forM fun builder => dropCache builder.cache
    return .text (spec.migrate.map fun choice => choice.inspect)
  | .build id groups saveAs => do
    let builder ← Work.require ((← Work.state).builders.get? id) .builder
    let groups ← groups.mapM fun id => do
      Work.require ((← Work.state).groups.get? id) (.group id)
    withBuilder builder do
      let tables ← (buildGroups callbacks builder groups).adapt .build
      tables.entries.forM fun table => keepAs (saveAs.map (· ++ table.1)) table.2
      let world ← get
      let infos := tables.entries.map fun table => (table.1, table.2.info world)
      return .built infos (world.cache builder.cache)
  | .onStore store step => step.perform store
  | .unknown name => throw (.unknownStep name)

/-! ## Sessions -/

/-- Callbacks that are refused, however they are called. -/
def refusals : Callbacks Callback State :=
  let refusal : CallbackError := ⟨"callbacks are nested too deeply"⟩
  { hook := fun _ _ => throw refusal
    common := fun _ _ _ _ => throw refusal
    tableMethod := fun _ _ _ => throw refusal
    onDefineTable := fun _ _ _ => throw refusal
    onDefineModel := fun _ _ _ => throw refusal
    migrate := fun _ _ _ => throw (.other refusal.message) }

/-- What calls of callbacks do when they may be nested to a depth. -/
def callbacks (env : Environment) : Nat → Callbacks Callback State
  | 0 => refusals
  | depth + 1 => callbacksOver fun self step => perform (callbacks env depth) env self step

/-- The depth to which calls may be nested. -/
def maxDepth : Nat := 4096

/-- The outcome of a step and what its callbacks logged. -/
structure Answer where
  outcome : Except Fault Reply
  log : List LogEntry

/-- Performs a step of a session. -/
def performStep (env : Environment) (world : Scene) (step : Step Script) : Answer × Scene :=
  let (outcome, world) := perform (callbacks env maxDepth) env none step world
  (⟨outcome, world.application.log⟩,
    { world with application := { world.application with log := [] } })

/-- Performs the steps of a session, from a world that is given. -/
def runFrom (env : Environment) (world : Scene) : List (Step Script) → List Answer
  | [] => []
  | step :: rest =>
    let (answer, world) := performStep env world step
    answer :: runFrom env world rest

/-- Performs the steps of a session and gives their answers. -/
def run (env : Environment) (steps : List (Step Script)) : List Answer :=
  runFrom env { application := {} } steps

end SchemaCompiler.Session
