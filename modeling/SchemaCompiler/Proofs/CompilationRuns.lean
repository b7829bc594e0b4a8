import SchemaCompiler.Proofs.CacheCoherence
import SchemaCompiler.Proofs.CompiledHandles
import SchemaCompiler.Proofs.EarlyRefusals

/-! How a compilation goes. There are three ways: it is refused while it is drafted, its definition
is refused by the layer, or a table is opened and finished as far as the steps go (`Compiling`).
Which refusals come from where follows: drafting is never refused for a callback or a migration
(`draft_refused`), and only a migration for a migration, so the migrator was asked if and only if the
compilation came as far as that (`compile_migrations`). What is filed in the end is what the table
was opened as, as far as callbacks keep it (`compile_tables`), and those of an application keep what
its operations do (`Application.keepTables`). -/
namespace SchemaCompiler

open Effect

variable {κ ε : Type}

/-! ## The three ways -/

/-- The handle that a database makes next. -/
def World.nextHandle (world : World κ ε) (database : String) (definition : TableDefinition) :
    Handle :=
  ⟨⟨database, (world.database database).opened.length⟩, definition⟩

/-- The world in which a table has just been opened, with its handle held open. -/
def World.opening (world : World κ ε) (database : String) (definition : TableDefinition) :
    World κ ε :=
  let db := world.database database
  let handle := world.nextHandle database definition
  (world.setDatabase database { db with
    tables := db.tables.insert definition.name handle
    opened := db.opened ++ [handle]
    defineCount := db.defineCount + 1 }).hold handle

/-- What comes of a definition that the layer does not refuse. -/
theorem defineTable_opens {database : String} {definition : TableDefinition} {world : World κ ε}
    (asked : (world.database database).refusal? definition = none) :
    let handle := world.nextHandle database definition
    (defineTable database definition world).1 = .ok handle ∧
      (defineTable database definition world).2.hold handle = world.opening database definition := by
  rw [defineTable]
  dsimp only
  rw [Database.defineTable_accepted _ asked]
  exact ⟨rfl, rfl⟩

section Compile

variable (callbacks : Callbacks κ ε) (database : String) (cache : Nat) (options : CompileOptions κ)
  (description : Description κ)

/-- The ways a compilation can go, each with its outcome and with what it asks of others. -/
inductive Compiling (world : World κ ε) :
    Except BuildError Handle × World κ ε → List (Exchange κ (World κ ε) Handle) → Prop
  | undrafted {refusal : BuildError} {drafted : World κ ε}
      (ran : draft database cache options description world = (.error refusal, drafted)) :
      Compiling world (.error refusal, drafted) []
  | refused {blueprint : Blueprint κ} {drafted : World κ ε} {source : LayerError}
      (ran : draft database cache options description world = (.ok blueprint, drafted))
      (asked : (drafted.database database).refusal? blueprint.definition = some source) :
      Compiling world (.error (.layer source), drafted.afterRefusal database)
        [⟨.define blueprint.definition, none, drafted, some (.layer source)⟩]
  | opened {blueprint : Blueprint κ} {drafted : World κ ε} {finished : Except BuildError Unit}
      {after : World κ ε} {handle : Handle}
      (ran : draft database cache options description world = (.ok blueprint, drafted))
      (asked : (drafted.database database).refusal? blueprint.definition = none)
      (made : handle = drafted.nextHandle database blueprint.definition)
      (steps : blueprint.steps.forM (FinishingStep.perform callbacks description.name handle)
        (drafted.opening database blueprint.definition) = (finished, after)) :
      Compiling world (finished.map fun _ => handle, after.release drafted)
        (⟨.define blueprint.definition, none, drafted, none⟩ ::
          (Collaborators.inMemory callbacks database description.name).exchanges handle
            blueprint.steps (drafted.opening database blueprint.definition))

/-- Every compilation goes one of these ways. -/
theorem compile_goes (world : World κ ε) :
    Compiling callbacks database cache options description world
      (compile callbacks database cache options description world)
      (compileRecord callbacks database cache options description world) := by
  rw [compile_run, compileRecord]
  cases ran : draft database cache options description world using outcome_cases with
  | error refusal => exact .undrafted ran
  | ok blueprint drafted =>
    dsimp only
    cases asked : (drafted.database database).refusal? blueprint.definition with
    | some source =>
      obtain ⟨completed, record⟩ := complete_refused callbacks description asked
      rw [completed, record]
      exact .refused ran asked
    | none =>
      have granted : (Collaborators.inMemory callbacks database description.name).define
          blueprint.definition drafted =
            (.ok (drafted.nextHandle database blueprint.definition),
              drafted.opening database blueprint.definition) := by
        rw [Collaborators.inMemory]
        dsimp only [defineTable]
        rw [Database.defineTable_accepted _ asked]
        rfl
      rw [Collaborators.complete_run, Collaborators.record_eq, granted]
      exact .opened ran asked rfl rfl

end Compile

/-! ## What drafting is refused for -/

/-- Whether a refusal is one that calls of others come to, rather than the planning before. -/
def BuildError.isOfCall : BuildError → Bool
  | callback .. | migration .. => true
  | _ => false

private theorem Classification.add_refused {table : String} {lookup : TableLookup}
    {c : Classification κ} {declared : String × Member κ} {refusal : BuildError}
    (refused : c.add table lookup declared = .error refusal) : refusal.isOfCall = false := by
  obtain ⟨name, member⟩ := declared
  simp only [add] at refused
  split at refused
  · cases refused
  · cases named : Phase.ofName? name with
    | some phase =>
      cases member <;> simp only [named] at refused <;> cases refused <;> rfl
    | none =>
      simp only [named] at refused
      cases member with
      | field field =>
        simp only [addMember, addField] at refused
        split at refused
        · cases refused
          rfl
        · cases refused
      | tableMethod callback =>
        simp only [addMember] at refused
        split at refused <;> cases refused
      | hook hook =>
        cases refused
        rfl
      | _ => cases refused

private theorem Description.classify_refused {description : Description κ} {table : String}
    {lookup : TableLookup} {refusal : BuildError}
    (refused : description.classify table lookup = .error refusal) : refusal.isOfCall = false := by
  unfold classify at refused
  generalize description.members.entries = members, ({} : Classification κ) = c at refused
  induction members generalizing c with
  | nil => cases refused
  | cons declared rest ih =>
    rw [List.foldlM_cons] at refused
    cases first : c.add table lookup declared with
    | error other =>
      rw [first] at refused
      cases refused
      exact Classification.add_refused first
    | ok middle =>
      rw [first] at refused
      exact ih middle refused

section Resolve

variable {database : String} {lookup : TableLookup}

private theorem resolveMixins_refused_of {mixins : List (Description κ)}
    (below : ∀ mixin ∈ mixins, ∀ (state : ResolveState) refusal,
      (mixin.resolve database lookup state).1 = .error refusal → refusal.isOfCall = false)
    (state : ResolveState) (refusal : BuildError)
    (refused : (resolveMixins database lookup mixins state).1 = .error refusal) :
    refusal.isOfCall = false := by
  induction mixins generalizing state with
  | nil =>
    rw [resolveMixins_nil] at refused
    cases refused
  | cons mixin rest ih =>
    rw [List.forall_mem_cons] at below
    rw [resolveMixins_cons_eq] at refused
    rcases bind_refused refused with here | ⟨signature, later⟩
    · exact below.1 state refusal here
    · rcases bind_refused later with nested | ⟨_, ⟨⟩⟩
      exact ih below.2 _ nested

private theorem Description.resolve_refused (description : Description κ) (state : ResolveState)
    (refusal : BuildError)
    (refused : (description.resolve database lookup state).1 = .error refusal) :
    refusal.isOfCall = false := by
  induction description using Description.mixin_induction generalizing state refusal with
  | step description below =>
    cases found : state.cache.entries.get? (database, description.identity) with
    | some signature =>
      rw [resolve_hit description state found] at refused
      cases refused
    | none =>
      rw [resolve_compiles description state found] at refused
      rcases bind_refused refused with unsorted | ⟨own, later⟩
      · exact classify_refused unsorted
      · rcases bind_refused later with nested | ⟨fields, last⟩
        · exact resolveMixins_refused_of below _ refusal nested
        · rw [compileSource_run] at last
          split at last <;> cases last
          rfl

private theorem resolveMixins_refused {mixins : List (Description κ)} {state : ResolveState}
    {refusal : BuildError}
    (refused : (resolveMixins database lookup mixins state).1 = .error refusal) :
    refusal.isOfCall = false :=
  resolveMixins_refused_of (fun mixin _ => mixin.resolve_refused) state refusal refused

end Resolve

/-! ### Blueprints -/

namespace Options

variable {table : String} {value : Option Json} {refusal : BuildError}

private theorem readPrimaryKey_refused (refused : readPrimaryKey table value = .error refusal) :
    refusal.isOfCall = false := by
  unfold readPrimaryKey at refused
  split at refused
  · cases refused
  · cases refused
  · cases refused
  · rcases bind_eq_error_iff.1 refused with listed | ⟨_, _, same⟩
    · obtain ⟨item, -, column⟩ := mapM_refused listed
      unfold keyColumn at column
      split at column <;> cases column
      rfl
    · cases same
  · cases refused
    rfl

private theorem readStoredName_refused (refused : readStoredName table value = .error refusal) :
    refusal.isOfCall = false := by
  unfold readStoredName at refused
  split at refused <;> cases refused
  rfl

end Options

namespace CompileOptions

variable {options : CompileOptions κ} {name : String} {refusal : BuildError}

private theorem migration_refused {fields : List String} {indexes : OrderedMap String Index}
    (refused : options.migration name fields indexes = .error refusal) :
    refusal.isOfCall = false := by
  unfold CompileOptions.migration at refused
  split at refused
  · split at refused
    · cases refused
      rfl
    · rcases bind_eq_error_iff.1 refused with drawn | ⟨_, _, same⟩
      · obtain ⟨index, -, entry⟩ := mapM_refused drawn
        unfold Plan.entryOf at entry
        split at entry <;> cases entry
        rfl
      · cases same
  · cases refused

private theorem blueprint_refused {c : Classification κ} {mixinFields : List FieldDefinition}
    (refused : options.blueprint name c mixinFields = .error refusal) :
    refusal.isOfCall = false := by
  unfold CompileOptions.blueprint at refused
  rcases bind_eq_error_iff.1 refused with key | ⟨⟨explicitKey, rest⟩, -, refused⟩
  · rcases bind_eq_error_iff.1 key with read | ⟨_, _, same⟩
    · exact Options.readPrimaryKey_refused read
    · cases same
  · rcases bind_eq_error_iff.1 refused with stored | ⟨⟨explicitName, rest'⟩, -, refused⟩
    · rcases bind_eq_error_iff.1 stored with read | ⟨_, _, same⟩
      · exact Options.readStoredName_refused read
      · cases same
    · rcases bind_eq_error_iff.1 refused with planned | ⟨_, _, same⟩
      · exact migration_refused planned
      · cases same

end CompileOptions

/-- Drafting is never refused for a callback or a migration. -/
theorem draft_refused {database : String} {cache : Nat} {options : CompileOptions κ}
    {description : Description κ} {world drafted : World κ ε} {refusal : BuildError}
    (refused : draft database cache options description world = (.error refusal, drafted)) :
    refusal.isOfCall = false := by
  rw [draft_run] at refused
  split at refused
  · next sorted =>
    cases refused
    exact Description.classify_refused sorted
  · split at refused
    · next resolved =>
      cases refused
      exact resolveMixins_refused (congrArg Prod.fst resolved)
    · exact CompileOptions.blueprint_refused (Prod.mk.inj refused).1

/-! ## Migrations -/

/-- The request for a migration, if it is one: the table, who was asked, and the plan. -/
def Exchange.migration? {σ : Type} (exchange : Exchange κ σ Handle) :
    Option (String × IndexMigrator κ × Plan) :=
  match exchange.request, exchange.handle with
  | .finish (.migrate migrator plan), some handle => some (handle.name, migrator, plan)
  | _, _ => none

theorem Exchange.migrates {σ : Type} {exchange : Exchange κ σ Handle} {table : String}
    {migrator : IndexMigrator κ} {plan : Plan}
    (asked : exchange.migration? = some (table, migrator, plan)) :
    exchange.request = .finish (.migrate migrator plan) := by
  unfold migration? at asked
  split at asked
  · next request told =>
    cases asked
    exact request
  · cases asked

/-- Whether a compilation with this outcome came as far as the migration of indexes. -/
def cameToMigration {α : Type} : Except BuildError α → Bool
  | .ok _ => true
  | .error (.migration ..) => true
  | .error _ => false

theorem cameToMigration_map {α β : Type} (result : Except BuildError α) (change : α → β) :
    cameToMigration (result.map change) = cameToMigration result := by
  cases result with
  | ok value => rfl
  | error refusal => cases refusal <;> rfl

namespace Collaborators

variable {σ η : Type} (others : Collaborators κ σ η) (handle : η)

/-- Nothing is asked after a refusal. -/
theorem append_refused (first second : List (FinishingStep κ)) (state : σ) {refusal : BuildError}
    (refused : (first.forM (others.finish handle) state).1 = .error refusal) :
    others.exchanges handle (first ++ second) state = others.exchanges handle first state ∧
      (first ++ second).forM (others.finish handle) state =
        first.forM (others.finish handle) state := by
  induction first generalizing state with
  | nil => cases refused
  | cons step rest ih =>
    rw [forM_cons_run] at refused ⊢
    rw [List.cons_append, forM_cons_run, exchanges, exchanges]
    generalize others.finish handle step state = done at refused ⊢
    cases done using outcome_cases with
    | error other => exact ⟨rfl, rfl⟩
    | ok value after =>
      obtain ⟨asked, ended⟩ := ih after refused
      exact ⟨congrArg _ asked, ended⟩

end Collaborators

namespace CompileOptions

variable (options : CompileOptions κ) (description : Description κ)

/-- All that is asked before the migration. -/
def preparations : List (FinishingStep κ) :=
  options.attachments description ++
    (description.onDefine?.toList.map .onDefine ++ options.onDefineTable.toList.map .onDefineTable)

/-- Who is asked for the migration. -/
def appointed : Option (IndexMigrator κ) := if options.migrateIndexes then options.migrator else none

theorem attachments_calls_eq :
    options.attachments description ++ options.calls description =
      options.preparations description ++
        options.appointed.toList.map (.migrate · description.indexPlan) := by
  rw [preparations, appointed, calls]
  cases options.migrateIndexes <;> simp [List.append_assoc]

variable {options description} in
theorem isMigration_of_mem_preparations {step : FinishingStep κ}
    (listed : step ∈ options.preparations description) : step.isMigration = false := by
  simp only [preparations, List.mem_append, List.mem_map] at listed
  rcases listed with attaching | ⟨_, -, rfl⟩ | ⟨_, -, rfl⟩
  · have attaches := isCall_of_mem_attachments attaching
    cases step <;> first | rfl | cases attaches
  · rfl
  · rfl

end CompileOptions

section Migrations

variable (callbacks : Callbacks κ ε) (database name : String) (handle : Handle)

private theorem exchanges_without_migration {steps : List (FinishingStep κ)}
    (none : ∀ step ∈ steps, step.isMigration = false) (state : World κ ε) :
    ((Collaborators.inMemory callbacks database name).exchanges handle steps state).filterMap
      Exchange.migration? = [] := by
  rw [List.filterMap_eq_nil_iff]
  intro exchange asked
  obtain ⟨step, listed, request⟩ := Collaborators.exchanges_request _ handle asked
  have other := none step listed
  cases step <;> simp [FinishingStep.isMigration] at other <;> simp [Exchange.migration?, request]

/-- Whoever is appointed is asked, and can only refuse as a migrator. -/
private theorem exchanges_of_appointed (appointed : Option (IndexMigrator κ)) (plan : Plan)
    (state : World κ ε) :
    let others := Collaborators.inMemory callbacks database name
    let steps := appointed.toList.map (FinishingStep.migrate · plan)
    (others.exchanges handle steps state).filterMap Exchange.migration? =
        appointed.toList.map (fun migrator => (handle.name, migrator, plan)) ∧
      cameToMigration (steps.forM (others.finish handle) state).1 = true := by
  cases appointed with
  | none => exact ⟨rfl, rfl⟩
  | some migrator =>
    intro others steps
    have refusals (refusal : BuildError)
        (refused : ((FinishingStep.migrate migrator plan).perform callbacks name handle state).1 =
          .error refusal) : ∃ source, refusal = .migration handle.name source :=
      FinishingStep.perform_refused_migration rfl refused
    have single : steps = [.migrate migrator plan] := rfl
    have asks : others.finish handle (.migrate migrator plan) state =
        (FinishingStep.migrate migrator plan).perform callbacks name handle state := rfl
    rw [single, Collaborators.exchanges, forM_cons_run, asks]
    generalize (FinishingStep.migrate migrator plan).perform callbacks name handle state = answered
      at refusals
    cases answered using outcome_cases with
    | ok value => exact ⟨rfl, rfl⟩
    | error refusal after =>
      obtain ⟨source, rfl⟩ := refusals refusal rfl
      exact ⟨rfl, rfl⟩

/-- The appointed migrator is asked if all goes well before. -/
private theorem exchanges_migrations (options : CompileOptions κ) (description : Description κ)
    (state : World κ ε) :
    let others := Collaborators.inMemory callbacks database name
    let steps := options.attachments description ++ options.calls description
    (others.exchanges handle steps state).filterMap Exchange.migration? =
      if cameToMigration (steps.forM (others.finish handle) state).1 then
        options.appointed.toList.map fun migrator => (handle.name, migrator, description.indexPlan)
      else [] := by
  intro others steps
  have split : steps = options.preparations description ++
      options.appointed.toList.map (.migrate · description.indexPlan) :=
    options.attachments_calls_eq description
  have prepare (step) (listed : step ∈ options.preparations description) :
      step.isMigration = false := CompileOptions.isMigration_of_mem_preparations listed
  have unasked := exchanges_without_migration callbacks database name handle prepare state
  rw [split]
  cases prepared : ((options.preparations description).forM (others.finish handle) state).1 with
  | error refusal =>
    obtain ⟨exchanges, ended⟩ := others.append_refused handle _
      (options.appointed.toList.map (.migrate · description.indexPlan)) state prepared
    obtain ⟨step, listed, found, failed⟩ := forM_refused prepared
    obtain ⟨stage, source, rfl⟩ := FinishingStep.perform_refused_callback (prepare step listed) failed
    rw [exchanges, ended, unasked, prepared]
    rfl
  | ok value =>
    obtain ⟨exchanges, ended⟩ := others.append_run handle _
      (options.appointed.toList.map (.migrate · description.indexPlan)) state prepared
    obtain ⟨asked, came⟩ := exchanges_of_appointed callbacks database name handle options.appointed
      description.indexPlan ((options.preparations description).forM (others.finish handle) state).2
    rw [exchanges, ended, List.filterMap_append, unasked, asked, came]
    rfl

end Migrations

/-- A compilation asks the appointed migrator, with the plan of the declared indexes and once, if it
comes as far as that, and it asks no other. -/
theorem compile_migrations (callbacks : Callbacks κ ε) (database : String) (cache : Nat)
    (options : CompileOptions κ) (description : Description κ) (world : World κ ε) :
    (compileRecord callbacks database cache options description world).filterMap
        Exchange.migration? =
      if cameToMigration (compile callbacks database cache options description world).1 then
        options.appointed.toList.map fun migrator =>
          (options.tableName description, migrator, description.indexPlan)
      else [] := by
  have goes := compile_goes callbacks database cache options description world
  generalize compile callbacks database cache options description world = outcome,
    compileRecord callbacks database cache options description world = record at goes
  cases goes with
  | @undrafted refusal drafted ran =>
    have early := draft_refused ran
    cases refusal <;> first | rfl | cases early
  | refused ran asked => rfl
  | @opened blueprint drafted finished after handle ran asked made performed =>
    obtain ⟨c, mixinFields, sorted, -, drawn⟩ := draft_ok ran
    obtain ⟨steps, -⟩ := CompileOptions.blueprint_steps (Description.classify_sorted sorted) drawn
    have named : handle.name = options.tableName description := by
      rw [made]
      exact draft_name ran
    have migrations := exchanges_migrations callbacks database description.name handle options
      description (drafted.opening database blueprint.definition)
    rw [← steps, named] at migrations
    rw [List.filterMap_cons_none rfl, cameToMigration_map, migrations]
    exact congrArg (fun ended => if cameToMigration ended then _ else _)
      (congrArg Prod.fst performed)

/-! ## Tables -/

/-- Callbacks and migrators that keep what holds of the tables of a database. -/
structure Callbacks.KeepTables (callbacks : Callbacks κ ε) (database : String)
    (P : OrderedMap String Handle → Prop) : Prop where
  tableMethod : ∀ callback handle args world, P (world.database database).tables →
    P ((callbacks.tableMethod callback handle args world).2.database database).tables
  onDefineTable : ∀ callback description handle world, P (world.database database).tables →
    P ((callbacks.onDefineTable callback description handle world).2.database database).tables
  onDefineModel : ∀ callback name extras world, P (world.database database).tables →
    P ((callbacks.onDefineModel callback name extras world).2.database database).tables
  migrate : ∀ callback handle plan world, P (world.database database).tables →
    P ((callbacks.migrate callback handle plan world).2.database database).tables

/-- An application that works on tables by operations keeps all that survives these. -/
theorem Application.keepTables (application : Application κ ε) (depth : Nat) {database : String}
    {P : OrderedMap String Handle → Prop}
    (steady : ∀ {before after : Databases κ}, Databases.Reaches before after →
      P (before database).tables → P (after database).tables) :
    (application.callbacks depth).KeepTables database P where
  tableMethod callback handle args world :=
    steady (application.run_reaches depth (application.tableMethod callback handle args) world)
  onDefineTable callback description handle world :=
    steady (application.run_reaches depth
      (application.onDefineTable callback description handle) world)
  onDefineModel callback name extras world :=
    steady (application.run_reaches depth (application.onDefineModel callback name extras) world)
  migrate callback handle plan world :=
    steady (application.run_reaches depth (application.migrate callback handle plan) world)

@[simp] theorem World.tables_decorate (world : World κ ε) (handle : Handle)
    (change : Decoration κ → Decoration κ) (database : String) :
    ((world.decorate handle change).database database).tables =
      (world.database database).tables := by
  unfold decorate
  rw [World.database_setDatabase, Function.update_apply]
  split
  · next same => rw [same]; rfl
  · rfl

theorem World.SameTables.tables {before after : World κ ε} (same : before.SameTables after)
    (database : String) : (after.database database).tables = (before.database database).tables := by
  obtain ⟨count, same⟩ := same.databases database
  rw [same]

@[simp] theorem World.database_opening (world : World κ ε) (database : String)
    (definition : TableDefinition) :
    (world.opening database definition).database = Function.update world.database database
      { world.database database with
        tables := (world.database database).tables.insert definition.name
          (world.nextHandle database definition)
        opened := (world.database database).opened ++ [world.nextHandle database definition]
        defineCount := (world.database database).defineCount + 1 } :=
  World.database_setDatabase database _

section Tables

variable {callbacks : Callbacks κ ε} {database : String} {P : OrderedMap String Handle → Prop}

theorem FinishingStep.perform_tables (kept : callbacks.KeepTables database P) (description : String)
    (handle : Handle) (step : FinishingStep κ) (world : World κ ε)
    (before : P (world.database database).tables) :
    P ((step.perform callbacks description handle world).2.database database).tables := by
  cases step with
  | attach phase hook =>
    have same := world.tables_decorate handle (fun d => d.attach phase hook) database
    exact same ▸ before
  | attachCommon phase callback =>
    have same := World.tables_decorate { world with hooksMade := world.hooksMade + 1 } handle
      (fun d => d.attach phase ⟨world.hooksMade, .bound callback handle phase⟩) database
    exact same ▸ before
  | register name method =>
    have same := world.tables_decorate handle (fun d => d.register name method) database
    exact same ▸ before
  | onDefine callback =>
    rw [perform_run]
    exact kept.tableMethod callback handle [] world before
  | onDefineTable callback => exact kept.onDefineTable callback description handle world before
  | migrate migrator plan =>
    cases migrator with
    | store number => exact before
    | custom callback => exact kept.migrate callback handle plan world before

/-- A compilation files a handle under the logical name, unless it is refused before, and leaves the
rest to the callbacks. -/
theorem compile_tables (callbacks : Callbacks κ ε) (database : String) (cache : Nat)
    (options : CompileOptions κ) (description : Description κ) (world : World κ ε) :
    let tables := (world.database database).tables
    let name := options.tableName description
    let result := (compile callbacks database cache options description world).1
    let after := (compile callbacks database cache options description world).2
    ∃ filed,
      ((filed = tables ∧ ∃ refusal, result = .error refusal) ∨
        ∃ made : Handle, made.name = name ∧ filed = tables.insert name made ∧
          ∀ handle, result = .ok handle → handle = made) ∧
      ∀ P, callbacks.KeepTables database P → P filed → P (after.database database).tables := by
  intro tables name result after
  have goes := compile_goes callbacks database cache options description world
  have spared := draft_sameTables database cache options description world
  dsimp only [result, after]
  generalize compile callbacks database cache options description world = outcome,
    compileRecord callbacks database cache options description world = record at goes
  cases goes with
  | undrafted ran =>
    rw [ran] at spared
    refine ⟨tables, Or.inl ⟨rfl, _, rfl⟩, fun P _ holds => ?_⟩
    rwa [spared.tables]
  | @refused blueprint drafted source ran asked =>
    rw [ran] at spared
    refine ⟨tables, Or.inl ⟨rfl, _, rfl⟩, fun P _ holds => ?_⟩
    rw [World.afterRefusal, World.database_setDatabase, Function.update_self]
    dsimp only
    rwa [spared.tables]
  | @opened blueprint drafted finished last handle ran asked made performed =>
    rw [ran] at spared
    have named : blueprint.definition.name = name := draft_name ran
    refine ⟨tables.insert name handle, Or.inr ⟨handle, ?_, rfl, ?_⟩, fun P kept holds => ?_⟩
    · rw [made]
      exact named
    · intro compiled went
      cases finished <;> cases went
      rfl
    · have start : P ((drafted.opening database blueprint.definition).database database).tables := by
        rw [World.database_opening, Function.update_self]
        dsimp only
        rwa [spared.tables, ← made, named]
      have ended := forM_keeps (P := fun now : World κ ε => P (now.database database).tables)
        (fun step (_ : step ∈ blueprint.steps) =>
          step.perform_tables kept description.name handle) start
      rwa [performed] at ended

end Tables

end SchemaCompiler
