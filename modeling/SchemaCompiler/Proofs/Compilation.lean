import SchemaCompiler.Build.Compile
import SchemaCompiler.Proofs.MemberSorting
import SchemaCompiler.Proofs.OperationRuns

/-! Compiling a table as a dealing with others: the layer, the callbacks, the index migrator. It
first drafts a blueprint, for which it needs none of them but what the layer can look up (`draft`),
and then completes it with their help (`compile_run`). They may do whatever they like, so what is
asked of them, in which order and up to where, is said for any collaborators. Recording them leaves
the run as it is (`complete_recorded`), and the record follows the agenda of the description up to
the first refusal (`Follows`). -/
namespace SchemaCompiler

open Effect

variable {κ ε σ η e α : Type}

/-! ## Drafting -/

/-- The logical name of the table. -/
def CompileOptions.tableName (options : CompileOptions κ) (description : Description κ) : String :=
  options.name.getD description.name

/-- All that compiling decides before the layer is asked for the table. Callbacks are not even known
here. -/
def draft (database : String) (cache : Nat) (options : CompileOptions κ)
    (description : Description κ) : Action κ ε BuildError (Blueprint κ) := do
  let c ← Action.ofExcept (description.classify (options.tableName description)
    ((← get).database database).lookup)
  let mixinFields ← resolveIn database cache fun lookup =>
    resolveMixins database lookup description.mixins
  Action.ofExcept (options.blueprint (options.tableName description) c mixinFields)

/-- What drafting leaves alone: everything but signature caches and the count of field sources. -/
structure World.SameTables (before after : World κ ε) : Prop where
  databases : ∀ name, ∃ count, after.database name =
    { before.database name with fieldSourceCount := count }
  stores : after.stores = before.stores
  inUse : after.inUse = before.inUse
  hooksMade : after.hooksMade = before.hooksMade
  application : after.application = before.application

theorem World.SameTables.refl (world : World κ ε) : world.SameTables world :=
  ⟨fun name => ⟨(world.database name).fieldSourceCount, rfl⟩, rfl, rfl, rfl, rfl⟩

private theorem resolveIn_sameTables (database : String) (cache : Nat)
    (task : TableLookup → Resolve α) (world : World κ ε) :
    world.SameTables (resolveIn database cache task world).2 := by
  refine ⟨fun name => ?_, rfl, rfl, rfl, rfl⟩
  change ∃ count, (world.setDatabase database _).database name = _
  rw [World.database_setDatabase]
  by_cases same : name = database
  · subst same
    exact ⟨_, Function.update_self ..⟩
  · exact ⟨(world.database name).fieldSourceCount, by rw [Function.update_of_ne same]⟩

section Draft

variable {database : String} {cache : Nat} {options : CompileOptions κ}
  {description : Description κ}

theorem draft_run (world : World κ ε) :
    draft database cache options description world =
      match description.classify (options.tableName description)
        (world.database database).lookup with
      | .error refusal => (.error refusal, world)
      | .ok c =>
        match resolveIn database cache (fun lookup =>
          resolveMixins database lookup description.mixins) world with
        | (.error refusal, after) => (.error refusal, after)
        | (.ok mixinFields, after) =>
          (options.blueprint (options.tableName description) c mixinFields, after) := by
  rw [draft, bind_run, get_run]
  dsimp only
  rw [bind_run, Action.ofExcept]
  cases description.classify (options.tableName description) (world.database database).lookup with
  | error refusal => rfl
  | ok c =>
    dsimp only
    rw [bind_run]
    cases resolveIn database cache (fun lookup =>
      resolveMixins database lookup description.mixins) world using outcome_cases <;> rfl

theorem draft_sameTables (database : String) (cache : Nat) (options : CompileOptions κ)
    (description : Description κ) (world : World κ ε) :
    world.SameTables (draft database cache options description world).2 := by
  have spared := resolveIn_sameTables database cache
    (fun lookup => resolveMixins database lookup description.mixins) world
  rw [draft_run]
  cases description.classify (options.tableName description) (world.database database).lookup with
  | error refusal => exact .refl world
  | ok c =>
    dsimp only
    generalize resolveIn database cache (fun lookup =>
      resolveMixins database lookup description.mixins) world = resolved at spared ⊢
    cases resolved using outcome_cases <;> exact spared

/-- The decisions that a blueprint comes from. -/
theorem draft_ok {world drafted : World κ ε} {blueprint : Blueprint κ}
    (ran : draft database cache options description world = (.ok blueprint, drafted)) :
    ∃ c mixinFields,
      description.classify (options.tableName description) (world.database database).lookup =
        .ok c ∧
      (resolveMixins database (world.database database).lookup description.mixins
        ⟨world.cache cache, (world.database database).fieldSourceCount⟩).1 = .ok mixinFields ∧
      options.blueprint (options.tableName description) c mixinFields = .ok blueprint := by
  rw [draft_run] at ran
  split at ran
  · cases ran
  · next c sorted =>
    split at ran
    · cases ran
    · next mixinFields after resolved =>
      exact ⟨c, mixinFields, sorted, congrArg Prod.fst resolved, (Prod.mk.inj ran).1⟩

end Draft

/-! ## Collaborators -/

/-- Those whom a compilation asks to do something about a table, in a state `σ` of their own. The
layer answers with a handle `η`; what the others are asked comes with it. Any of them may refuse. -/
structure Collaborators (κ σ η : Type) where
  define : TableDefinition → ExceptT LayerError (StateM σ) η
  finish : η → FinishingStep κ → ExceptT BuildError (StateM σ) Unit

/-- One thing that is asked of a collaborator. -/
inductive Request (κ : Type) where
  | define (definition : TableDefinition)
  | finish (step : FinishingStep κ)

/-- A request as it was made: with the handle that was passed along, the state it found, and the
refusal it met with, if it did. -/
structure Exchange (κ σ η : Type) where
  request : Request κ
  handle : Option η
  found : σ
  refusal : Option BuildError

/-- The refusal of an outcome, if it is one. -/
def refusalOf : Except e α → Option e
  | .ok _ => none
  | .error refusal => some refusal

theorem refusalOf_eq_none_iff {result : Except e α} :
    refusalOf result = none ↔ ∃ value, result = .ok value := by
  cases result <;> simp [refusalOf]

theorem refusalOf_eq_some_iff {result : Except e α} {refusal : e} :
    refusalOf result = some refusal ↔ result = .error refusal := by
  cases result <;> simp [refusalOf]

theorem refusalOf_map {β : Type} (change : α → β) (result : Except e α) :
    refusalOf (result.map change) = refusalOf result := by
  cases result <;> rfl

theorem refusalOf_mapError {e' : Type} (wrap : e → e') (result : Except e α) :
    refusalOf (result.mapError wrap) = (refusalOf result).map wrap := by
  cases result <;> rfl

namespace Collaborators

/-- Has a table defined and finished. -/
def complete (others : Collaborators κ σ η) (blueprint : Blueprint κ) :
    ExceptT BuildError (StateM σ) η := do
  let handle ← (others.define blueprint.definition).adapt .layer
  blueprint.steps.forM (others.finish handle)
  return handle

/-- The same collaborators, with a record of what they are asked beside their state. -/
def recorded (others : Collaborators κ σ η) : Collaborators κ (σ × List (Exchange κ σ η)) η where
  define definition := fun (state, record) =>
    let (result, after) := others.define definition state
    (result, after,
      record ++ [⟨.define definition, none, state, (refusalOf result).map .layer⟩])
  finish handle step := fun (state, record) =>
    let (result, after) := others.finish handle step state
    (result, after, record ++ [⟨.finish step, some handle, state, refusalOf result⟩])

/-- The layer in memory, with the callbacks and migrators of an application. The new handle is held
open from its definition on. -/
def inMemory (callbacks : Callbacks κ ε) (database description : String) :
    Collaborators κ (World κ ε) Handle where
  define definition := fun world =>
    match defineTable database definition world with
    | (.ok handle, after) => (.ok handle, after.hold handle)
    | (.error refusal, after) => (.error refusal, after)
  finish handle step := step.perform callbacks description handle

end Collaborators

theorem Collaborators.inMemory_define (callbacks : Callbacks κ ε) (database description : String)
    (definition : TableDefinition) (world : World κ ε) :
    ((inMemory callbacks database description).define definition world).1 =
      (defineTable database definition world).1 := by
  rw [inMemory]
  dsimp only
  cases defineTable database definition world using outcome_cases <;> rfl

section Compile

variable {callbacks : Callbacks κ ε} {database : String} {cache : Nat}
  {options : CompileOptions κ} {description : Description κ}

/-- Compiling drafts a blueprint and then completes it with the layer in memory. -/
theorem compile_run (world : World κ ε) :
    compile callbacks database cache options description world =
      match draft database cache options description world with
      | (.error refusal, drafted) => (.error refusal, drafted)
      | (.ok blueprint, drafted) =>
        let completed :=
          (Collaborators.inMemory callbacks database description.name).complete blueprint drafted
        (completed.1, completed.2.release drafted) := by
  rw [draft_run, compile, bind_run, get_run]
  dsimp only [CompileOptions.tableName]
  rw [bind_run, Action.ofExcept]
  cases description.classify (options.name.getD description.name)
    (world.database database).lookup with
  | error refusal => rfl
  | ok c =>
    dsimp only
    rw [bind_run]
    cases resolveIn database cache (fun lookup =>
      resolveMixins database lookup description.mixins) world using outcome_cases with
    | error refusal => rfl
    | ok mixinFields drafted =>
      dsimp only
      rw [bind_run, Action.ofExcept]
      cases options.blueprint (options.name.getD description.name) c mixinFields with
      | error refusal => rfl
      | ok blueprint =>
        dsimp only
        rw [Collaborators.complete, bind_run, bind_run, adapt_run, adapt_run,
          Collaborators.inMemory]
        dsimp only
        have held : (defineTable database blueprint.definition drafted).2.inUse = drafted.inUse := rfl
        generalize defineTable database blueprint.definition drafted = defined at held ⊢
        cases defined using outcome_cases with
        | error refusal defined =>
          dsimp only at held
          simp only [Except.mapError, World.release, ← held]
        | ok handle defined =>
          dsimp only at held
          simp only [Except.mapError, bind_run, holding_run, World.release, held]
          cases blueprint.steps.forM (FinishingStep.perform callbacks description.name handle)
            (defined.hold handle) using outcome_cases <;> rfl

end Compile

/-- What taking a step comes to. Some attach something to the handle, which nobody can refuse. For
the others the callback that the description declares is called without arguments, that of the group
with the description's name, and the migrator with the plan. Only the outcome of the first is not
looked at further, and what they are refused for is passed on with the name of the table. -/
theorem FinishingStep.perform_run (callbacks : Callbacks κ ε) (description : String)
    (handle : Handle) (step : FinishingStep κ) (world : World κ ε) :
    step.perform callbacks description handle world =
      match step with
      | attach phase hook =>
        (.ok (), world.decorate handle fun decoration => decoration.attach phase hook)
      | attachCommon phase callback =>
        let hook : Hook κ := ⟨world.hooksMade, .bound callback handle phase⟩
        (.ok (), World.decorate { world with hooksMade := world.hooksMade + 1 } handle
          fun decoration => decoration.attach phase hook)
      | register name method =>
        (.ok (), world.decorate handle fun decoration => decoration.register name method)
      | onDefine callback =>
        let called := callbacks.tableMethod callback handle [] world
        ((called.1.map fun _ => ()).mapError (.callback handle.name .onDefine), called.2)
      | onDefineTable callback =>
        let called := callbacks.onDefineTable callback description handle world
        (called.1.mapError (.callback handle.name .onDefineTable), called.2)
      | migrate (.custom callback) plan =>
        let called := callbacks.migrate callback handle plan world
        (called.1.mapError (.migration handle.name), called.2)
      | migrate (.store number) plan =>
        let ran := (world.store number).migrate handle.definition.physicalName plan
        (ran.1.mapError (.migration handle.name), world.setStore number ran.2) := by
  cases step with
  | attach | attachCommon | register | onDefineTable => rfl
  | onDefine callback =>
    dsimp only
    rw [perform, bind_run, adapt_run]
    cases callbacks.tableMethod callback handle [] world using outcome_cases <;> rfl
  | migrate migrator plan => cases migrator <;> rfl

/-! ## The record of a run -/

namespace Collaborators

/-- What is asked by way of finishing steps, up to the first refusal. -/
def exchanges (others : Collaborators κ σ η) (handle : η) :
    List (FinishingStep κ) → σ → List (Exchange κ σ η)
  | [], _ => []
  | step :: rest, state =>
    match others.finish handle step state with
    | (.error refusal, _) => [⟨.finish step, some handle, state, some refusal⟩]
    | (.ok (), after) =>
      ⟨.finish step, some handle, state, none⟩ :: others.exchanges handle rest after

/-- What is asked when a blueprint is completed, as the recorded collaborators tell it. -/
def record (others : Collaborators κ σ η) (blueprint : Blueprint κ) (state : σ) :
    List (Exchange κ σ η) :=
  (others.recorded.complete blueprint (state, [])).2.2

variable (others : Collaborators κ σ η)

private theorem forM_recorded (handle : η) (steps : List (FinishingStep κ)) (state : σ)
    (before : List (Exchange κ σ η)) :
    steps.forM (others.recorded.finish handle) (state, before) =
      ((steps.forM (others.finish handle) state).1, (steps.forM (others.finish handle) state).2,
        before ++ others.exchanges handle steps state) := by
  induction steps generalizing state before with
  | nil => simp [exchanges, pure_run]
  | cons step rest ih =>
    rw [forM_cons_run, forM_cons_run, exchanges]
    have told : others.recorded.finish handle step (state, before) =
        ((others.finish handle step state).1, (others.finish handle step state).2,
          before ++ [⟨.finish step, some handle, state,
            refusalOf (others.finish handle step state).1⟩]) := rfl
    rw [told]
    cases others.finish handle step state using outcome_cases with
    | error refusal => rfl
    | ok value after =>
      dsimp only
      rw [ih]
      simp [refusalOf]

theorem complete_run (blueprint : Blueprint κ) (state : σ) :
    others.complete blueprint state =
      match others.define blueprint.definition state with
      | (.error refusal, after) => (.error (.layer refusal), after)
      | (.ok handle, defined) =>
        let finished := blueprint.steps.forM (others.finish handle) defined
        (finished.1.map fun _ => handle, finished.2) := by
  rw [complete, bind_run, adapt_run]
  cases others.define blueprint.definition state using outcome_cases with
  | error refusal => rfl
  | ok handle defined =>
    simp only [Except.mapError, bind_run]
    cases blueprint.steps.forM (others.finish handle) defined using outcome_cases <;> rfl

private theorem recorded_run (blueprint : Blueprint κ) (state : σ) :
    others.recorded.complete blueprint (state, []) =
      match others.define blueprint.definition state with
      | (.error refusal, after) => (.error (.layer refusal), after,
          [⟨.define blueprint.definition, none, state, some (.layer refusal)⟩])
      | (.ok handle, defined) =>
        let finished := blueprint.steps.forM (others.finish handle) defined
        (finished.1.map fun _ => handle, finished.2,
          ⟨.define blueprint.definition, none, state, none⟩ ::
            others.exchanges handle blueprint.steps defined) := by
  have told : others.recorded.define blueprint.definition (state, []) =
      ((others.define blueprint.definition state).1, (others.define blueprint.definition state).2,
        [⟨.define blueprint.definition, none, state,
          (refusalOf (others.define blueprint.definition state).1).map .layer⟩]) := rfl
  rw [complete_run, told]
  cases others.define blueprint.definition state using outcome_cases with
  | error refusal => rfl
  | ok handle defined =>
    dsimp only
    rw [forM_recorded]
    rfl

/-- Being recorded changes nothing. -/
theorem complete_recorded (blueprint : Blueprint κ) (state : σ) :
    others.recorded.complete blueprint (state, []) =
      ((others.complete blueprint state).1, (others.complete blueprint state).2,
        others.record blueprint state) := by
  rw [record, recorded_run, complete_run]
  cases others.define blueprint.definition state using outcome_cases <;> rfl

theorem record_eq (blueprint : Blueprint κ) (state : σ) :
    others.record blueprint state =
      match others.define blueprint.definition state with
      | (.error refusal, _) =>
        [⟨.define blueprint.definition, none, state, some (.layer refusal)⟩]
      | (.ok handle, defined) =>
        ⟨.define blueprint.definition, none, state, none⟩ ::
          others.exchanges handle blueprint.steps defined := by
  rw [record, recorded_run]
  cases others.define blueprint.definition state using outcome_cases <;> rfl

end Collaborators

/-! ## Agendas -/

/-- A record that has the requests of an agenda in order, each once, and ends with the first that
is refused; with none refused, it has them all. -/
inductive Follows : List (Request κ) → List (Exchange κ σ η) → Option BuildError → Prop
  | finished : Follows [] [] none
  | refused (exchange : Exchange κ σ η) {refusal : BuildError} (rest : List (Request κ))
      (stopped : exchange.refusal = some refusal) :
      Follows (exchange.request :: rest) [exchange] (some refusal)
  | granted (exchange : Exchange κ σ η) {rest : List (Request κ)}
      {later : List (Exchange κ σ η)} {refusal : Option BuildError}
      (went : exchange.refusal = none) (follows : Follows rest later refusal) :
      Follows (exchange.request :: rest) (exchange :: later) refusal

namespace Collaborators

variable (others : Collaborators κ σ η)

theorem exchanges_follow (handle : η) (steps : List (FinishingStep κ)) (state : σ) :
    Follows (steps.map .finish) (others.exchanges handle steps state)
      (refusalOf (steps.forM (others.finish handle) state).1) := by
  induction steps generalizing state with
  | nil => exact .finished
  | cons step rest ih =>
    rw [forM_cons_run, exchanges, List.map_cons]
    cases others.finish handle step state using outcome_cases with
    | error refusal after =>
      exact .refused ⟨.finish step, some handle, state, some refusal⟩ _ rfl
    | ok value after =>
      exact .granted ⟨.finish step, some handle, state, none⟩ rfl (ih after)

/-- Whatever the collaborators do, they are asked what the blueprint says, in its order and up to
the first refusal, which is then the outcome. -/
theorem record_follows (blueprint : Blueprint κ) (state : σ) :
    Follows (.define blueprint.definition :: blueprint.steps.map .finish)
      (others.record blueprint state) (refusalOf (others.complete blueprint state).1) := by
  rw [record_eq, complete_run]
  cases others.define blueprint.definition state using outcome_cases with
  | error refusal defined =>
    exact .refused ⟨.define blueprint.definition, none, state, some (.layer refusal)⟩ _ rfl
  | ok handle defined =>
    have follows := others.exchanges_follow handle blueprint.steps defined
    dsimp only
    rw [refusalOf_map]
    exact .granted ⟨.define blueprint.definition, none, state, none⟩ rfl follows

/-- An exchange is refused for what the one who is asked answers in the state that is found. -/
structure Answered (exchange : Exchange κ σ η) : Prop where
  define : ∀ definition, exchange.request = .define definition →
    exchange.refusal = (refusalOf (others.define definition exchange.found).1).map .layer
  finish : ∀ step, exchange.request = .finish step → ∃ handle, exchange.handle = some handle ∧
    exchange.refusal = refusalOf (others.finish handle step exchange.found).1

private theorem answered_define (definition : TableDefinition) (state : σ) :
    others.Answered ⟨.define definition, none, state,
      (refusalOf (others.define definition state).1).map .layer⟩ := by
  refine ⟨?_, nofun⟩
  rintro _ ⟨⟩
  rfl

private theorem answered_finish (handle : η) (step : FinishingStep κ) (state : σ) :
    others.Answered ⟨.finish step, some handle, state,
      refusalOf (others.finish handle step state).1⟩ := by
  refine ⟨nofun, ?_⟩
  rintro _ ⟨⟩
  exact ⟨handle, rfl, rfl⟩

private theorem exchanges_answered (handle : η) (steps : List (FinishingStep κ)) (state : σ) :
    ∀ exchange ∈ others.exchanges handle steps state, others.Answered exchange := by
  induction steps generalizing state with
  | nil => exact List.forall_mem_nil _
  | cons step rest ih =>
    have answered := others.answered_finish handle step state
    rw [exchanges]
    generalize others.finish handle step state = done at answered ⊢
    cases done using outcome_cases with
    | error refusal => exact List.forall_mem_singleton.2 answered
    | ok value after => exact List.forall_mem_cons.2 ⟨answered, ih after⟩

theorem record_answered (blueprint : Blueprint κ) (state : σ) :
    ∀ exchange ∈ others.record blueprint state, others.Answered exchange := by
  have answered := others.answered_define blueprint.definition state
  rw [record_eq]
  generalize others.define blueprint.definition state = asked at answered ⊢
  cases asked using outcome_cases with
  | error refusal => exact List.forall_mem_singleton.2 answered
  | ok handle defined =>
    exact List.forall_mem_cons.2
      ⟨answered, others.exchanges_answered handle blueprint.steps defined⟩

end Collaborators

/-! ## What a description has done -/

/-- The index plan of the declared indexes, in declaration order. -/
def Description.indexPlan (description : Description κ) : Plan :=
  description.ownIndexes.map fun own => ⟨own.1, own.2.columnNames, own.2.options⟩

namespace CompileOptions

variable (options : CompileOptions κ) (description : Description κ)

/-- What a new handle is given: the hooks that the description declares, the common hook at every
phase, and the table methods. -/
def attachments : List (FinishingStep κ) :=
  description.ownHooks.map (fun own => .attach own.1 own.2) ++
  options.commonHook.toList.flatMap (fun callback => Phase.all.map (.attachCommon · callback)) ++
  description.ownMethods.map (fun own => .register own.1 own.2)

/-- Who is called with the handle then: the two callbacks, and the migrator with the index plan. -/
def calls : List (FinishingStep κ) :=
  description.onDefine?.toList.map .onDefine ++
  options.onDefineTable.toList.map .onDefineTable ++
  if options.migrateIndexes then options.migrator.toList.map (.migrate · description.indexPlan)
  else []

/-- All that is asked of others when a description is compiled. -/
def agenda (definition : TableDefinition) : List (Request κ) :=
  .define definition :: (options.attachments description ++ options.calls description).map .finish

end CompileOptions

theorem Plan.ofIndexes_ok {table : String} {fields : List String} {indexes : OrderedMap String Index}
    {plan : Plan} (drawn : Plan.ofIndexes table fields indexes = .ok plan) :
    plan = indexes.entries.map fun declared =>
      ⟨declared.1, declared.2.columnNames, declared.2.options⟩ := by
  unfold Plan.ofIndexes at drawn
  generalize indexes.entries = declared at drawn ⊢
  induction declared generalizing plan with
  | nil =>
    cases drawn
    rfl
  | cons first rest ih =>
    rw [List.mapM_cons] at drawn
    obtain ⟨entry, made, drawn⟩ := bind_eq_ok_iff.1 drawn
    obtain ⟨others, later, drawn⟩ := bind_eq_ok_iff.1 drawn
    cases drawn
    unfold Plan.entryOf at made
    split at made
    · cases made
    · cases made
      rw [List.map_cons, ih later]

/-- Whether a plan can be drawn up does not depend on the order of the indexes. -/
theorem Plan.ofIndexes_ok_iff {table : String} {fields : List String}
    {indexes : OrderedMap String Index} :
    (∃ plan, Plan.ofIndexes table fields indexes = .ok plan) ↔
      ∀ name index, indexes.get? name = some index → Plan.unknownField? fields index = none := by
  rw [Plan.ofIndexes, mapM_ok_iff]
  simp only [OrderedMap.get?_eq_some_iff, Prod.forall, Plan.entryOf]
  refine forall_congr' fun name => forall_congr' fun index => imp_congr_right fun _ => ?_
  cases Plan.unknownField? fields index <;> simp

namespace CompileOptions

variable {options : CompileOptions κ} {name : String} {c : Classification κ}
  {mixinFields : List FieldDefinition} {blueprint : Blueprint κ}

/-- The decisions that a blueprint is drawn from. -/
theorem blueprint_ok (drawn : options.blueprint name c mixinFields = .ok blueprint) :
    ∃ explicitKey explicitName migration,
      Options.readPrimaryKey name (c.options.get? primaryKeyOption) = .ok explicitKey ∧
      Options.readStoredName name ((c.options.erase primaryKeyOption).get? storedNameOption) =
        .ok explicitName ∧
      options.migration name ((c.fields ++ mixinFields).map FieldDefinition.name) c.indexes =
        .ok migration ∧
      blueprint.definition = {
        name
        fields := c.fields ++ mixinFields
        physicalOverride := chooseStoredName options.tablePrefix name explicitName
        primaryKey := choosePrimaryKey c.hasIdName c.hasIdType options.autoKey explicitKey
        options := (c.options.erase primaryKeyOption).erase storedNameOption } ∧
      blueprint.steps = options.steps c migration := by
  unfold CompileOptions.blueprint at drawn
  obtain ⟨⟨explicitKey, rest⟩, key, drawn⟩ := bind_eq_ok_iff.1 drawn
  obtain ⟨⟨explicitName, rest'⟩, stored, drawn⟩ := bind_eq_ok_iff.1 drawn
  obtain ⟨migration, planned, drawn⟩ := bind_eq_ok_iff.1 drawn
  obtain ⟨key, read, same⟩ := bind_eq_ok_iff.1 key
  cases same
  obtain ⟨stored, read', same⟩ := bind_eq_ok_iff.1 stored
  cases same
  cases drawn
  exact ⟨explicitKey, explicitName, migration, read, read', planned, rfl, rfl⟩

private theorem migration_ok {fields : List String} {indexes : OrderedMap String Index}
    {migration : Option (IndexMigrator κ × Plan)}
    (planned : options.migration name fields indexes = .ok migration) :
    (options.migrateIndexes = true → options.migrator.isSome = true) ∧
      migration = if options.migrateIndexes then options.migrator.map fun migrator =>
        (migrator, indexes.entries.map fun declared =>
          ⟨declared.1, declared.2.columnNames, declared.2.options⟩) else none := by
  unfold CompileOptions.migration at planned
  split at planned
  · next asked =>
    split at planned
    · cases planned
    · next migrator supplied =>
      obtain ⟨plan, drawn, same⟩ := bind_eq_ok_iff.1 planned
      cases same
      rw [Plan.ofIndexes_ok drawn, supplied]
      simp [asked]
  · next idle =>
    cases planned
    simp [idle]

/-- The steps of a blueprint are what the declarations ask for, in their order. -/
theorem blueprint_steps {description : Description κ} (sorted : c.Sorts description)
    (drawn : options.blueprint name c mixinFields = .ok blueprint) :
    blueprint.steps = options.attachments description ++ options.calls description ∧
      (options.migrateIndexes = true → options.migrator.isSome = true) := by
  obtain ⟨_, _, migration, -, -, planned, -, steps⟩ := blueprint_ok drawn
  obtain ⟨supplied, planned⟩ := migration_ok planned
  refine ⟨?_, supplied⟩
  rw [steps, CompileOptions.steps, sorted.hooks, sorted.tableMethods, sorted.onDefine, planned,
    sorted.indexes, attachments, calls, Description.indexPlan]
  cases options.migrateIndexes <;> cases options.migrator <;>
    simp only [List.append_assoc, Bool.false_eq_true, if_true, if_false, Option.map, Option.toList,
      List.map]

end CompileOptions

/-- What compiling a description in memory asks of others. -/
def compileRecord (callbacks : Callbacks κ ε) (database : String) (cache : Nat)
    (options : CompileOptions κ) (description : Description κ) (world : World κ ε) :
    List (Exchange κ (World κ ε) Handle) :=
  match draft database cache options description world with
  | (.error _, _) => []
  | (.ok blueprint, drafted) =>
    (Collaborators.inMemory callbacks database description.name).record blueprint drafted

end SchemaCompiler
