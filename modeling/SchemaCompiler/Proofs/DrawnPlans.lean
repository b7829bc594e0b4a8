import SchemaCompiler.Proofs.CompiledDefinitions
import SchemaCompiler.Proofs.InterruptedDiffs
import SchemaCompiler.Proofs.PlanFaults

/-! Plans that are drawn from declared indexes. A plan can be drawn if every reference of every
index names a field, and says what the indexes say then, one entry for each; otherwise the first
reference that names none is reported (`Plan.ofIndexes_error_iff`). Names are distinct since they are
the keys of a map, so a migrator over a store finds no name declared twice
(`StoreMigrator.migrate_distinct`). What a compilation hands to a migrator is such a plan, drawn for
the fields of the table that was just defined. -/
namespace SchemaCompiler

open Effect

variable {κ ε : Type}

/-! ## References -/

namespace Index

/-- Whether every reference of an index names one of the fields. Literal columns need not. -/
def Resolves (fields : List String) (index : Index) : Prop :=
  ∀ name, ColumnRef.field name ∈ index.columns → name ∈ fields

/-- The first reference of an index that names none of the fields. -/
def FirstUnknown (fields : List String) (index : Index) (name : String) : Prop :=
  ∃ earlier later, index.columns = earlier ++ .field name :: later ∧ name ∉ fields ∧
    ∀ other, ColumnRef.field other ∈ earlier → other ∈ fields

/-- An index that was begun over columns and then given options and its uniqueness. -/
inductive Built : Index → Prop
  | on (columns : List ColumnRef) : Built (.on columns)
  | unique {index : Index} (built : Built index) (flag : Bool) : Built (index.unique flag)
  | option {index : Index} (built : Built index) (key : String) (value : Json) :
      Built (index.option key value)

/-- No option that is given later takes the uniqueness flag away. -/
private theorem Built.flagged {index : Index} (built : index.Built) :
    index.options.contains uniqueOption = true := by
  have kept (index : Index) (key : String) (value : Json)
      (flagged : index.options.contains uniqueOption = true) :
      (index.option key value).options.contains uniqueOption = true := by
    rw [OrderedMap.contains_iff_mem_keys] at flagged ⊢
    exact (OrderedMap.mem_keys_insert ..).2 (.inr flagged)
  induction built with
  | on columns => rw [OrderedMap.contains, Index.on, OrderedMap.get?_insert_self, Option.isSome_some]
  | unique _ flag ih => exact kept _ _ _ ih
  | option _ key value ih => exact kept _ key value ih

end Index

namespace Plan

variable {table : String} {fields : List String} {index : Index} {indexes : OrderedMap String Index}

private theorem unknownField?_eq_none_iff :
    unknownField? fields index = none ↔ index.Resolves fields := by
  rw [unknownField?, List.findSome?_eq_none_iff]
  constructor
  · intro known name listed
    simpa using known (.field name) listed
  · intro resolves column listed
    cases column with
    | column name => rfl
    | field name => simpa using resolves name listed

private theorem unknownField?_eq_some_iff {name : String} :
    unknownField? fields index = some name ↔ index.FirstUnknown fields name := by
  rw [unknownField?, List.findSome?_eq_some_iff]
  constructor
  · rintro ⟨earlier, column, later, split, unknown, known⟩
    cases column with
    | column other => cases unknown
    | field other =>
      simp only [Option.ite_none_left_eq_some, Option.some.injEq] at unknown
      obtain ⟨unknown, rfl⟩ := unknown
      exact ⟨earlier, later, split, unknown, fun other listed => by simpa using known _ listed⟩
  · rintro ⟨earlier, later, split, unknown, known⟩
    refine ⟨earlier, .field name, later, split, by simp [unknown], fun column listed => ?_⟩
    cases column with
    | column other => rfl
    | field other => simpa using known other listed

theorem ofIndexes_resolves_iff : (∃ plan, Plan.ofIndexes table fields indexes = .ok plan) ↔
    ∀ declared ∈ indexes.entries, declared.2.Resolves fields := by
  rw [ofIndexes_ok_iff]
  simp only [OrderedMap.get?_eq_some_iff, unknownField?_eq_none_iff, Prod.forall]

/-- A plan is refused for the first unknown reference of the first index that has one. -/
theorem ofIndexes_error_iff {e : BuildError} : Plan.ofIndexes table fields indexes = .error e ↔
    ∃ earlier name index later column, indexes.entries = earlier ++ (name, index) :: later ∧
      (∀ declared ∈ earlier, declared.2.Resolves fields) ∧ index.FirstUnknown fields column ∧
      e = .unknownIndexColumn table name column := by
  have entry_ok (declared : String × Index) :
      (∃ entry, entryOf table fields declared.1 declared.2 = .ok entry) ↔
        declared.2.Resolves fields := by
    rw [← unknownField?_eq_none_iff, entryOf]
    cases unknownField? fields declared.2 <;> simp
  have entry_refused (name : String) (index : Index) :
      entryOf table fields name index = .error e ↔
        ∃ column, index.FirstUnknown fields column ∧ e = .unknownIndexColumn table name column := by
    simp only [← unknownField?_eq_some_iff, entryOf]
    cases unknownField? fields index <;> simp [eq_comm]
  rw [ofIndexes, mapM_eq_error_iff]
  simp only [entry_ok, Prod.exists, entry_refused]
  constructor
  · rintro ⟨earlier, name, index, later, split, known, column, unknown, same⟩
    exact ⟨earlier, name, index, later, column, split, known, unknown, same⟩
  · rintro ⟨earlier, name, index, later, column, split, known, unknown, same⟩
    exact ⟨earlier, name, index, later, split, known, column, unknown, same⟩

/-- The entries of a plan have the names of the indexes, which are distinct. -/
theorem ofIndexes_distinct {plan : Plan} (drawn : Plan.ofIndexes table fields indexes = .ok plan) :
    (plan.map PlanEntry.name).Nodup := by
  rw [ofIndexes_ok drawn, List.map_map]
  exact indexes.distinct

end Plan

/-! ## Migrators over a store -/

/-- What a store has against a step is a matter of what is stored. -/
theorem IndexStore.perform_refused {store : IndexStore} {table : String} {step : IndexStep}
    {e : MigrationError} (refused : store.perform table step = .error e) :
    ∃ reason, e = .store reason := by
  cases step with
  | drop name =>
    change store.drop table name = .error e at refused
    unfold drop at refused
    split at refused
    · cases refused
      exact ⟨_, rfl⟩
    · split at refused <;> cases refused
      exact ⟨_, rfl⟩
  | create entry =>
    change store.create (.ofEntry table entry) = .error e at refused
    unfold create at refused
    split at refused <;> cases refused
    exact ⟨_, rfl⟩

/-- A plan with distinct names is not answered with a duplicate, whatever is stored. -/
theorem StoreMigrator.migrate_distinct {plan : Plan} (distinct : (plan.map PlanEntry.name).Nodup)
    (migrator : StoreMigrator) (table other name : String) :
    (migrator.migrate table plan).1 ≠ .error (.duplicateIndex other name) := by
  intro refused
  unfold migrate StoreMigrator.plan at refused
  rcases plan.check_exact table with ⟨passed, -⟩ | ⟨earlier, entry, first, failed⟩
  · rw [passed] at refused
    change (if _ then _ else _ : Except MigrationError Unit × StoreMigrator).1 = _ at refused
    split at refused
    · cases refused
    · obtain ⟨_, _, _, _, _, failed⟩ := IndexStore.run_refused (Prod.ext refused rfl)
      obtain ⟨reason, same⟩ := IndexStore.perform_refused failed
      cases same
  · obtain ⟨⟨later, rfl⟩, fault, -⟩ := first
    rw [failed] at refused
    have same : entry.refusal table = .duplicateIndex other name := Except.error.inj refused
    unfold PlanEntry.refusal at same
    split at same
    · cases same
    · next named =>
      split at same
      · cases same
      · next filled =>
        have again := (fault.resolve_left named).resolve_left filled
        rw [List.map_append, List.map_cons, List.nodup_append] at distinct
        exact distinct.2.2 _ again _ List.mem_cons_self rfl

/-! ## Compilations -/

section Compile

variable {callbacks : Callbacks κ ε} {database : String} {cache : Nat}
  {options : CompileOptions κ} {description : Description κ} {world : World κ ε}

private theorem CompileOptions.migration_of_mem_steps {c : Classification κ}
    {migration : Option (IndexMigrator κ × Plan)} {migrator : IndexMigrator κ} {plan : Plan}
    (listed : .migrate migrator plan ∈ options.steps c migration) :
    migration = some (migrator, plan) := by
  simpa [CompileOptions.steps] using listed

private theorem CompileOptions.ofIndexes_of_migration {table : String} {fields : List String}
    {indexes : OrderedMap String Index} {migrator : IndexMigrator κ} {plan : Plan}
    (planned : options.migration table fields indexes = .ok (some (migrator, plan))) :
    Plan.ofIndexes table fields indexes = .ok plan := by
  unfold CompileOptions.migration at planned
  split at planned
  · split at planned
    · cases planned
    · obtain ⟨plan, drawn, same⟩ := bind_eq_ok_iff.1 planned
      cases same
      exact drawn
  · cases planned

/-- What a migrator is asked for is drawn for the fields of the table that was just defined. -/
theorem drawn_of_asked {exchange : Exchange κ (World κ ε) Handle}
    (asked : exchange ∈ compileRecord callbacks database cache options description world)
    {migrator : IndexMigrator κ} {plan : Plan}
    (request : exchange.request = .finish (.migrate migrator plan)) :
    ∃ handle c mixinFields, exchange.handle = some handle ∧
      description.classify (options.tableName description) (world.database database).lookup =
        .ok c ∧
      (resolveMixins database (world.database database).lookup description.mixins
        ⟨world.cache cache, (world.database database).fieldSourceCount⟩).1 = .ok mixinFields ∧
      handle.definition.fields = c.fields ++ mixinFields ∧
      Plan.ofIndexes (options.tableName description) handle.definition.fieldNames c.indexes =
        .ok plan := by
  unfold compileRecord at asked
  split at asked
  · cases asked
  · next blueprint drafted ran =>
    obtain ⟨c, mixinFields, sorted, resolved, drawn⟩ := draft_ok ran
    obtain ⟨_, _, migration, -, -, planned, definition, steps⟩ := CompileOptions.blueprint_ok drawn
    let others := Collaborators.inMemory callbacks database description.name
    have layer := Collaborators.inMemory_define callbacks database description.name
      blueprint.definition drafted
    rw [Collaborators.record_eq] at asked
    cases defined : others.define blueprint.definition drafted using outcome_cases with
    | error refusal =>
      rw [defined] at asked layer
      cases List.mem_singleton.1 asked
      cases request
    | ok handle =>
      rw [defined] at asked layer
      rcases List.mem_cons.1 asked with rfl | finishing
      · cases request
      · obtain ⟨step, listed, same⟩ := others.exchanges_request handle finishing
        obtain ⟨told, -⟩ := (others.exchanges_keep handle (P := fun _ => True)
          (fun _ _ _ _ => trivial) trivial).1 exchange finishing
        cases same.symm.trans request
        rw [steps] at listed
        cases CompileOptions.migration_of_mem_steps listed
        have own := (defineTable_registered layer.symm).1
        have fields : handle.definition.fields = c.fields ++ mixinFields := by rw [own, definition]
        refine ⟨handle, c, mixinFields, told, sorted, resolved, fields, ?_⟩
        rw [TableDefinition.fieldNames, fields]
        exact CompileOptions.ofIndexes_of_migration planned

end Compile

/-- A plan can be drawn exactly if every reference of every index names a field. It has one entry
for each index then, in declaration order and under its name, with the referenced names as columns
and the same options; names are distinct, and an index that was built up from its columns has its
uniqueness in its entry. Otherwise the first index with an unknown reference is reported, with the
first such reference in it.

So a migrator is only ever asked for plans with distinct names, which no migrator over a store
answers with a duplicate, and every reference in the indexes names a field of the table that was
just defined, be it the description's own or one that resolving its mixins gave. -/
theorem index_plan_exact :
    (∀ (table : String) (fields : List String) (indexes : OrderedMap String Index),
      ((∃ plan, Plan.ofIndexes table fields indexes = .ok plan) ↔
        ∀ declared ∈ indexes.entries, declared.2.Resolves fields) ∧
      (∀ plan, Plan.ofIndexes table fields indexes = .ok plan →
        plan = indexes.entries.map (fun declared =>
          ⟨declared.1, declared.2.columns.map ColumnRef.name, declared.2.options⟩) ∧
        (plan.map PlanEntry.name).Nodup ∧
        ∀ entry ∈ plan, ∃ index, indexes.get? entry.name = some index ∧
          entry.isUnique = index.isUnique ∧
          (index.Built → entry.options.contains uniqueOption = true)) ∧
      ∀ e, Plan.ofIndexes table fields indexes = .error e ↔
        ∃ earlier name index later column, indexes.entries = earlier ++ (name, index) :: later ∧
          (∀ declared ∈ earlier, declared.2.Resolves fields) ∧ index.FirstUnknown fields column ∧
          e = .unknownIndexColumn table name column) ∧
    ∀ {κ ε : Type} (callbacks : Callbacks κ ε) (database : String) (cache : Nat)
      (options : CompileOptions κ) (description : Description κ) (world : World κ ε),
      ∀ exchange ∈ compileRecord callbacks database cache options description world,
        ∀ migrator plan, exchange.request = .finish (.migrate migrator plan) →
        ∃ handle own nested, exchange.handle = some handle ∧
          handle.definition.fields = own ++ nested ∧
          List.Forall₂ (Makes (· = (world.database database).lookup)) description.ownFieldMembers
            own ∧
          (resolveMixins database (world.database database).lookup description.mixins
            ⟨world.cache cache, (world.database database).fieldSourceCount⟩).1 = .ok nested ∧
          plan = description.indexPlan ∧
          (∀ declared ∈ description.ownIndexes,
            declared.2.Resolves handle.definition.fieldNames) ∧
          (plan.map PlanEntry.name).Nodup ∧
          ∀ (storing : StoreMigrator) (table other name : String),
            (storing.migrate table plan).1 ≠ .error (.duplicateIndex other name) := by
  refine ⟨fun table fields indexes => ⟨Plan.ofIndexes_resolves_iff, fun plan drawn => ?_,
    fun e => Plan.ofIndexes_error_iff⟩, ?_⟩
  · have same := Plan.ofIndexes_ok drawn
    refine ⟨same, Plan.ofIndexes_distinct drawn, fun entry listed => ?_⟩
    rw [same] at listed
    obtain ⟨⟨name, index⟩, declared, rfl⟩ := List.mem_map.1 listed
    exact ⟨index, (indexes.get?_eq_some_iff ..).2 declared, rfl, Index.Built.flagged⟩
  · intro κ ε callbacks database cache options description world exchange asked migrator plan
      request
    obtain ⟨handle, c, nested, told, sorted, resolved, fields, drawn⟩ := drawn_of_asked asked request
    have indexes := (Description.classify_sorted sorted).indexes
    have distinct := Plan.ofIndexes_distinct drawn
    refine ⟨handle, c.fields, nested, told, fields, Description.classify_makes sorted, resolved, ?_,
      ?_, distinct, StoreMigrator.migrate_distinct distinct⟩
    · rw [Plan.ofIndexes_ok drawn, indexes, Description.indexPlan]
    · rw [← indexes]
      exact Plan.ofIndexes_resolves_iff.1 ⟨plan, drawn⟩

namespace Cited

open Ledger (idle)

/-- A mixin with the field that an index of another description refers to. -/
def stamped : Description String := ⟨1, "stamped", .ofList [("at", .field (.ofType "datetime"))], []⟩

/-- A literal column and a reference to a field of the mixin. -/
def byTime : Index := (Index.on [.column "shard", .field "at"]).unique false

def events : Description String := ⟨2, "events", .ofList [("by_time", .index byTime)], [stamped]⟩

def indexed : CompileOptions String := { migrateIndexes := true, migrator := some (.store 0) }

def world : World String Unit := { application := () }

theorem index_plan_exact_cited :
    ∃ exchange ∈ compileRecord idle "main" 0 indexed events world, ∃ migrator plan handle,
      exchange.request = .finish (.migrate migrator plan) ∧ exchange.handle = some handle ∧
        "at" ∈ handle.definition.fieldNames ∧ (plan.map PlanEntry.name).Nodup := by
  have migrates : (compileRecord idle "main" 0 indexed events world).any
      (·.migration?.isSome) = true := by decide +kernel
  obtain ⟨exchange, asked, migrating⟩ := List.any_eq_true.1 migrates
  obtain ⟨⟨table, migrator, plan⟩, migrating⟩ := Option.isSome_iff_exists.1 migrating
  have same := Exchange.migrates migrating
  obtain ⟨handle, _, _, told, -, -, -, -, resolves, distinct, -⟩ :=
    index_plan_exact.2 idle "main" 0 indexed events world exchange asked migrator plan same
  have listed : ("by_time", byTime) ∈ events.ownIndexes := List.mem_singleton.2 rfl
  exact ⟨exchange, asked, migrator, plan, handle, same, told,
    resolves _ listed "at" (.tail _ (.head _)), distinct⟩

end Cited
end SchemaCompiler
