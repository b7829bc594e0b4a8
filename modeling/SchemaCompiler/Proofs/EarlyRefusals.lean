import SchemaCompiler.Proofs.Compilation
import SchemaCompiler.Proofs.DefinitionRuns

/-! Refusals before the first effect. All that compiling can be refused for, other than a callback
or a migration that fails, is found out before the layer has defined the table: while drafting,
which touches no table, or by the layer itself, which then leaves its tables alone. The finishing
steps can fail in the two other ways only (`FinishingStep.perform_refused`). -/
namespace SchemaCompiler

open Effect

variable {κ ε : Type}

namespace FinishingStep

def isMigration : FinishingStep κ → Bool
  | migrate .. => true
  | _ => false

variable {callbacks : Callbacks κ ε} {description : String} {handle : Handle}
  {step : FinishingStep κ} {world : World κ ε} {refusal : BuildError}

/-- A step other than the migration is refused for a callback, if it is. -/
theorem perform_refused_callback (other : step.isMigration = false)
    (refused : (step.perform callbacks description handle world).1 = .error refusal) :
    ∃ stage source, refusal = .callback handle.name stage source := by
  rw [perform_run] at refused
  cases step with
  | attach | attachCommon | register => cases refused
  | onDefine | onDefineTable =>
    obtain ⟨source, -, rfl⟩ := mapError_eq_error_iff.1 refused
    exact ⟨_, source, rfl⟩
  | migrate migrator plan => cases other

/-- The migration is refused as such. -/
theorem perform_refused_migration (migrates : step.isMigration = true)
    (refused : (step.perform callbacks description handle world).1 = .error refusal) :
    ∃ source, refusal = .migration handle.name source := by
  cases step with
  | migrate migrator plan =>
    rw [perform, adapt_run] at refused
    obtain ⟨source, -, rfl⟩ := mapError_eq_error_iff.1 refused
    exact ⟨source, rfl⟩
  | _ => cases migrates

/-- A finishing step can be refused by a callback or by a migration, and by nothing else. -/
theorem perform_refused
    (refused : (step.perform callbacks description handle world).1 = .error refusal) :
    (∃ table stage source, refusal = .callback table stage source) ∨
      ∃ table source, refusal = .migration table source := by
  cases migrates : step.isMigration with
  | false =>
    obtain ⟨stage, source, same⟩ := perform_refused_callback migrates refused
    exact Or.inl ⟨_, stage, source, same⟩
  | true =>
    obtain ⟨source, same⟩ := perform_refused_migration migrates refused
    exact Or.inr ⟨_, source, same⟩

end FinishingStep

section Compile

variable {callbacks : Callbacks κ ε} {database : String} {cache : Nat}
  {options : CompileOptions κ} {description : Description κ}

theorem draft_name {world drafted : World κ ε} {blueprint : Blueprint κ}
    (ran : draft database cache options description world = (.ok blueprint, drafted)) :
    blueprint.definition.name = options.tableName description := by
  obtain ⟨c, mixinFields, -, -, drawn⟩ := draft_ok ran
  obtain ⟨_, _, _, -, -, -, definition, -⟩ := CompileOptions.blueprint_ok drawn
  rw [definition]

/-- What a definition is refused for does not depend on counts. -/
theorem World.SameTables.refusal? {before after : World κ ε} (same : before.SameTables after)
    (database : String) (definition : TableDefinition) :
    (after.database database).refusal? definition = (before.database database).refusal? definition := by
  obtain ⟨count, same⟩ := same.databases database
  rw [same]
  rfl

/-- The world after a definition that was refused. -/
def World.afterRefusal (world : World κ ε) (database : String) : World κ ε :=
  world.setDatabase database
    { world.database database with defineCount := (world.database database).defineCount + 1 }

/-- A blueprint that is refused other than by a callback or a migration is refused by the layer, as
soon as it is asked. -/
private theorem complete_refused_early {blueprint : Blueprint κ} {world : World κ ε}
    {refusal : BuildError}
    (refused : ((Collaborators.inMemory callbacks database description.name).complete blueprint
      world).1 = .error refusal)
    (noCallback : ∀ table stage source, refusal ≠ .callback table stage source)
    (noMigration : ∀ table source, refusal ≠ .migration table source) :
    ∃ source, refusal = .layer source ∧
      (world.database database).refusal? blueprint.definition = some source := by
  rw [Collaborators.complete_run, Collaborators.inMemory] at refused
  dsimp only [defineTable] at refused
  cases asked : (world.database database).refusal? blueprint.definition with
  | some source =>
    rw [Database.defineTable_refused _ asked] at refused
    cases refused
    exact ⟨source, rfl, rfl⟩
  | none =>
    rw [Database.defineTable_accepted _ asked] at refused
    obtain ⟨step, -, found, failed⟩ := forM_refused (map_eq_error_iff.1 refused)
    rcases FinishingStep.perform_refused failed with ⟨_, _, _, same⟩ | ⟨_, _, same⟩
    · exact absurd same (noCallback _ _ _)
    · exact absurd same (noMigration _ _)

/-- What completing comes to, and what it asks, if the layer refuses the definition. -/
theorem complete_refused (callbacks : Callbacks κ ε) (description : Description κ)
    {blueprint : Blueprint κ} {world : World κ ε} {source : LayerError}
    (asked : (world.database database).refusal? blueprint.definition = some source) :
    let others := Collaborators.inMemory callbacks database description.name
    others.complete blueprint world = (.error (.layer source), world.afterRefusal database) ∧
      others.record blueprint world =
        [⟨.define blueprint.definition, none, world, some (.layer source)⟩] := by
  dsimp only
  rw [Collaborators.complete_run, Collaborators.record_eq, Collaborators.inMemory]
  dsimp only [defineTable]
  rw [Database.defineTable_refused _ asked]
  exact ⟨rfl, rfl⟩

/-- Unless it is a callback or a migration that fails, a refused compilation has had no effect on
any table: the tables of every database, with their order, handles, hooks, methods, rows and
counters, are as before, and so are the index stores and what belongs to the application. No
callback and no migrator was called; with any others the outcome is the same. The layer was asked
for a table only if it is its refusal of this very table that is reported. -/
theorem compile_refused_early {world : World κ ε} {refusal : BuildError}
    (refused : (compile callbacks database cache options description world).1 = .error refusal)
    (noCallback : ∀ table stage source, refusal ≠ .callback table stage source)
    (noMigration : ∀ table source, refusal ≠ .migration table source) :
    let after := (compile callbacks database cache options description world).2
    let record := compileRecord callbacks database cache options description world
    (∀ name,
      (after.database name).tables = (world.database name).tables ∧
      (after.database name).opened = (world.database name).opened ∧
      (after.database name).storages = (world.database name).storages ∧
      (after.database name).decorations = (world.database name).decorations) ∧
    after.stores = world.stores ∧ after.hooksMade = world.hooksMade ∧
    after.application = world.application ∧
    (∀ others : Callbacks κ ε, compile others database cache options description world =
      compile callbacks database cache options description world) ∧
    ((record = [] ∧
        ∀ name, (after.database name).defineCount = (world.database name).defineCount) ∨
      ∃ definition found source,
        record = [⟨.define definition, none, found, some refusal⟩] ∧ refusal = .layer source ∧
        definition.name = options.tableName description ∧
        (world.database database).refusal? definition = some source ∧
        ∀ name, (after.database name).defineCount =
          (world.database name).defineCount + if name = database then 1 else 0) := by
  have spared := draft_sameTables database cache options description world
  simp only [compile_run, compileRecord] at refused ⊢
  cases ran : draft database cache options description world using outcome_cases with
  | error refusal' drafted =>
    simp only [ran] at refused spared ⊢
    cases refused
    refine ⟨fun name => ?_, spared.stores, spared.hooksMade, spared.application, fun _ => trivial,
      Or.inl ⟨trivial, fun name => ?_⟩⟩
    · obtain ⟨count, same⟩ := spared.databases name
      rw [same]
      exact ⟨rfl, rfl, rfl, rfl⟩
    · obtain ⟨count, same⟩ := spared.databases name
      rw [same]
  | ok blueprint drafted =>
    simp only [ran] at refused spared ⊢
    obtain ⟨source, rfl, asked⟩ := complete_refused_early refused noCallback noMigration
    have completed (others : Callbacks κ ε) :=
      complete_refused others description asked
    have counted (name : String) : ((drafted.afterRefusal database).release drafted).database name =
        if name = database then
          { drafted.database name with defineCount := (drafted.database name).defineCount + 1 }
        else drafted.database name := by
      change (drafted.afterRefusal database).database name = _
      rw [World.afterRefusal, World.database_setDatabase, Function.update_apply]
      split
      · next same => rw [same]
      · rfl
    rw [spared.refusal?] at asked
    simp only [completed, counted]
    refine ⟨fun name => ?_, spared.stores, spared.hooksMade, spared.application, fun _ => trivial,
      Or.inr ⟨_, _, source, rfl, rfl, draft_name ran, asked, fun name => ?_⟩⟩
    · obtain ⟨count, same⟩ := spared.databases name
      rw [same]
      split <;> exact ⟨rfl, rfl, rfl, rfl⟩
    · obtain ⟨count, same⟩ := spared.databases name
      rw [same]
      split <;> rfl

end Compile

namespace Relayout

/-- A table of one column, which runs a callback once it is defined. -/
def notes (type : String) : Description Unit :=
  ⟨1, "notes", .ofList [("text", .field (.ofType type)), (onDefineName, .tableMethod ())], []⟩

/-- The table is there, although its callback failed. -/
def defined : World Unit Unit :=
  (compile (.refused Unit Unit) "main" 0 {} (notes "string") { application := () }).2

def difference : LayerError := .incompatible "notes" "field `text` changed"

/-- A column of another type is refused by the layer, after one request and without a trace. -/
theorem compile_refused_early_relayout :
    (compile (.refused Unit Unit) "main" 0 {} (notes "text") defined).1 =
      .error (.layer difference) ∧
    (defined.database "main").tables.keys = ["notes"] ∧
    ((compile (.refused Unit Unit) "main" 0 {} (notes "text") defined).2.database "main").tables =
      (defined.database "main").tables := by
  have refused : (compile (.refused Unit Unit) "main" 0 {} (notes "text") defined).1 =
      .error (.layer difference) := refusalOf_eq_some_iff.1 (by decide +kernel)
  have early := compile_refused_early refused (fun _ _ _ => by simp) (fun _ _ => by simp)
  exact ⟨refused, by decide +kernel, (early.1 "main").1⟩

end Relayout
end SchemaCompiler
