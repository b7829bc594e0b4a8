import SchemaCompiler.Proofs.SparingCompilations
import SchemaCompiler.Table.Info

/-! Compiling a table again. What a compilation leaves behind is enough for the next one
(`Recompilable`), and stays so whatever happens to rows and to other tables. Then nothing but a
callback or a validator can be in the way (`Recompilable.compile_refused`): the draft finds all
mixins cached, the layer finds the layout it knows, and the plan has no fault. No row is touched, no
table is added and no field source asked for (`Recompilable.sameContents`), and the fresh handle
says the same of its table as the first one (`Handle.info_eq`). -/
namespace SchemaCompiler

open Effect

variable {κ ε : Type}

/-! ## What is enough -/

section Recompile

variable {callbacks : Callbacks κ ε} {database : String} {cache : Nat} {options : CompileOptions κ}
  {description : Description κ} {definition : TableDefinition} {blueprint : Blueprint κ}
  {world drafted after : World κ ε} {handle : Handle}

/-- What holds of a table that was compiled to a definition: its mixins are cached, the definition
has no fault of its own, the table has its layout, and no index that is to be migrated is at
fault. -/
structure Recompilable (database : String) (cache : Nat) (options : CompileOptions κ)
    (description : Description κ) (definition : TableDefinition) (world : World κ ε) : Prop where
  drawable : ∃ blueprint, blueprint.definition = definition ∧
    Redraftable database cache options description blueprint world
  named : definition.name = options.tableName description
  faultless : definition.fault? = none
  current : ∃ latest, (world.database database).tables.get? definition.name = some latest ∧
    definition.SameLayout latest.definition
  planned : ∀ number, options.appointed = some (.store number) → description.indexPlan.Faultless

private theorem CompiledTo.definition_eq
    (compiled : CompiledTo database cache options description world blueprint drafted handle after) :
    handle.definition = blueprint.definition := by
  rw [compiled.made]
  rfl

private theorem CompiledTo.database_after
    (compiled : CompiledTo database cache options description world blueprint drafted handle after) :
    ∃ decorations, after.database database = { drafted.database database with
      tables := (drafted.database database).tables.insert blueprint.definition.name handle
      opened := (drafted.database database).opened ++ [handle]
      defineCount := (drafted.database database).defineCount + 1
      decorations } := by
  obtain ⟨decorations, same⟩ := compiled.adorned.databases database
  rw [World.database_opening, Function.update_self, ← compiled.made] at same
  exact ⟨decorations, same⟩

theorem CompiledTo.recompilable
    (compiled : CompiledTo database cache options description world blueprint drafted handle after) :
    Recompilable database cache options description handle.definition after := by
  have named := draft_name compiled.ran
  obtain ⟨decorations, same⟩ := compiled.database_after
  rw [compiled.definition_eq]
  refine ⟨⟨blueprint, rfl, ?_⟩, named, (Database.refusal?_eq_none_iff.1 compiled.granted).1,
    ⟨handle, ?_, ?_⟩, fun number appointed => ?_⟩
  · exact (draft_redraftable compiled.ran).mono (compiled.adorned.cache cache)
  · rw [same]
    exact OrderedMap.get?_insert_self ..
  · rw [compiled.definition_eq]
    exact .refl _
  · exact StoreMigrator.faultless_of_migrated (compiled.migrated number appointed)

theorem Recompilable.later
    (recompilable : Recompilable database cache options description definition world)
    (later : world.Later database after) :
    Recompilable database cache options description definition after := by
  obtain ⟨blueprint, same, drawable⟩ := recompilable.drawable
  obtain ⟨latest, found, layout⟩ := recompilable.current
  obtain ⟨current, found', layout'⟩ := later.database.layouts _ latest found
  exact ⟨⟨blueprint, same, drawable.mono (later.cache cache)⟩, recompilable.named,
    recompilable.faultless, ⟨current, found', layout.trans layout'⟩, recompilable.planned⟩

/-- All definitions that a table was compiled to have the layout that it has. -/
theorem Recompilable.sameLayout {other : TableDefinition}
    (recompilable : Recompilable database cache options description definition world)
    (recompilable' : Recompilable database cache options description other world) :
    definition.SameLayout other := by
  obtain ⟨latest, found, layout⟩ := recompilable.current
  obtain ⟨latest', found', layout'⟩ := recompilable'.current
  rw [recompilable'.named, ← recompilable.named, found] at found'
  cases found'
  exact layout.trans layout'.symm

/-- Compiling a table again can be refused by a callback or for a validator, and for nothing else. -/
theorem Recompilable.compile_refused
    (recompilable : Recompilable database cache options description definition world)
    (spare : ∀ step ∈ options.attachments description ++ options.calls description,
      step.Spares callbacks)
    (sound : ∀ number, options.appointed = some (.store number) → (world.store number).store.Sound)
    {refusal : BuildError}
    (refused : (compile callbacks database cache options description world).1 = .error refusal) :
    (∃ table stage source, refusal = .callback table stage source) ∨
      ∃ table field source, refusal = .validator table field source := by
  obtain ⟨blueprint, rfl, drawable⟩ := recompilable.drawable
  have redrafted := draft_again drawable
  have goes := compile_goes callbacks database cache options description world
  generalize compile callbacks database cache options description world = outcome,
    compileRecord callbacks database cache options description world = record at refused goes
  cases goes with
  | undrafted ran =>
    rw [ran] at redrafted
    rcases redrafted with ⟨_, _, same, -⟩ | ⟨field, source, same⟩
    · cases same
    · cases refused
      cases same
      exact Or.inr ⟨_, field, source, rfl⟩
  | @refused again drafted source ran asked =>
    -- The layer has nothing against a definition of the same layout.
    rw [ran] at redrafted
    rcases redrafted with ⟨_, _, same, databases, -, named, layout⟩ | ⟨_, _, same⟩
    · cases same
      have fine : (drafted.database database).refusal? again.definition = none := by
        rw [Database.refusal?_eq_none_iff, databases, named, ← layout.fault?]
        refine ⟨recompilable.faultless, fun existing found => ?_⟩
        obtain ⟨latest, found', layout'⟩ := recompilable.current
        rw [found'] at found
        cases found
        exact layout'.symm.trans layout
      rw [fine] at asked
      cases asked
    · cases same
  | @opened again drafted finished last handle ran asked made performed =>
    obtain ⟨c, mixinFields, sorted, -, drawn⟩ := draft_ok ran
    obtain ⟨steps, -⟩ := CompileOptions.blueprint_steps (Description.classify_sorted sorted) drawn
    have fails := finish_refused spare handle (drafted.opening database again.definition)
    have stores : drafted.store = world.store := draft_store (congrArg Prod.snd ran)
    have opened : (drafted.opening database again.definition).store = world.store := stores
    rw [← steps, performed, opened] at fails
    cases finished with
    | ok value => cases refused
    | error other =>
      cases refused
      rcases fails _ rfl with callback | ⟨number, source, appointed, failed⟩
      · exact Or.inl callback
      · obtain ⟨done, ran', -⟩ := StoreMigrator.migrate_records (world.store number).keepUnknown
          handle.definition.physicalName (sound number appointed)
          (recompilable.planned number appointed)
        rw [ran'] at failed
        cases failed

/-- Drafting a table again changes no database. -/
private theorem Recompilable.drafted_database
    (recompilable : Recompilable database cache options description definition world)
    (compiled : CompiledTo database cache options description world blueprint drafted handle after) :
    drafted.database = world.database := by
  obtain ⟨old, rfl, drawable⟩ := recompilable.drawable
  rcases draft_again drawable with ⟨_, _, same, databases, -⟩ | ⟨_, _, same⟩
  · rw [compiled.ran] at same
    cases same
    exact databases
  · rw [compiled.ran] at same
    cases same

/-- No row, no counter, no table's place and no count of field sources changed. -/
structure World.SameContents (before after : World κ ε) : Prop where
  storages : ∀ name, (after.database name).storages = (before.database name).storages
  tables : ∀ name, (after.database name).tables.keys = (before.database name).tables.keys
  fieldSources : ∀ name,
    (after.database name).fieldSourceCount = (before.database name).fieldSourceCount

theorem World.SameContents.of_same (same : after.database = world.database) :
    world.SameContents after :=
  ⟨fun _ => by rw [same], fun _ => by rw [same], fun _ => by rw [same]⟩

theorem World.SameContents.trans (first : world.SameContents drafted)
    (second : drafted.SameContents after) : world.SameContents after :=
  ⟨fun name => (second.storages name).trans (first.storages name),
    fun name => (second.tables name).trans (first.tables name),
    fun name => (second.fieldSources name).trans (first.fieldSources name)⟩

/-- A table that is compiled again is the same with all its rows. -/
theorem Recompilable.sameContents
    (recompilable : Recompilable database cache options description definition world)
    (compiled : CompiledTo database cache options description world blueprint drafted handle after) :
    world.SameContents after := by
  have databases := recompilable.drafted_database compiled
  obtain ⟨latest, found, -⟩ := recompilable.current
  have known : blueprint.definition.name ∈ (world.database database).tables.keys := by
    rw [draft_name compiled.ran, ← recompilable.named]
    exact (OrderedMap.mem_keys_iff _).2 ⟨latest, found⟩
  have opened : world.SameContents (drafted.opening database blueprint.definition) := by
    have each (name : String) :
        let now := (drafted.opening database blueprint.definition).database name
        now.storages = (world.database name).storages ∧
          now.tables.keys = (world.database name).tables.keys ∧
          now.fieldSourceCount = (world.database name).fieldSourceCount := by
      intro now
      by_cases own : name = database
      · subst own
        have same : now = _ := congrFun (World.database_opening drafted name _) name
        rw [same, Function.update_self, databases]
        refine ⟨rfl, ?_, rfl⟩
        dsimp only
        rw [OrderedMap.keys_insert, if_pos known]
      · have same : now = world.database name := by
          rw [← databases]
          exact (congrFun (World.database_opening drafted database _) name).trans
            (Function.update_of_ne own ..)
        rw [same]
        exact ⟨rfl, rfl, rfl⟩
    exact ⟨fun name => (each name).1, fun name => (each name).2.1, fun name => (each name).2.2⟩
  have adorned : (drafted.opening database blueprint.definition).SameContents after := by
    have each (name : String) := compiled.adorned.databases name
    refine ⟨fun name => ?_, fun name => ?_, fun name => ?_⟩ <;>
      obtain ⟨decorations, same⟩ := each name <;> rw [same]
  exact opened.trans adorned

/-! ## What a handle says of its table -/

/-- Handles of one layout that are furnished alike say the same of their table. -/
theorem Handle.info_eq {options : CompileOptions κ} {description : Description κ} {count count' : Nat}
    {first second : Handle} {before after : World κ ε} (named : first.name = second.name)
    (layout : first.definition.SameLayout second.definition)
    (furnished : Furnished options description count first (before.decoration first))
    (furnished' : Furnished options description count' second (after.decoration second)) :
    second.info after = first.info before := by
  have hooks (phase : Phase) : ((after.decoration second).hooks phase).length =
      ((before.decoration first).hooks phase).length := by
    rw [furnished.hooks, furnished'.hooks]
    simp
  have methods : (after.decoration second).methods.keys = (before.decoration first).methods.keys := by
    rw [OrderedMap.keys, furnished'.methods, ← furnished.methods]
    rfl
  simp only [info, named, layout.physicalName, layout.fieldNames, layout.primaryKey, hooks, methods]

/-- A handle keeps what it was furnished with. -/
theorem CompiledTo.furnished_later {later : World κ ε}
    (compiled : CompiledTo database cache options description world blueprint drafted handle after)
    (bare : (world.database database).Bare) (onwards : after.Later database later) :
    Furnished options description drafted.hooksMade handle (later.decoration handle) := by
  have drafting : world.Later database drafted := draft_later (congrArg Prod.snd compiled.ran)
  have furnished := compiled.furnished (drafting.database.bare bare)
  obtain ⟨decorations, same⟩ := compiled.database_after
  have own : handle.id = ⟨database, (drafted.database database).opened.length⟩ := by
    rw [compiled.made]
    rfl
  have kept := onwards.database.attached (drafted.database database).opened.length (by
    rw [same]
    simp)
  have here (now : World κ ε) : now.decoration handle =
      (now.database database).decoration (drafted.database database).opened.length := by
    rw [World.decoration, Handle.database, own]
  rw [here] at furnished ⊢
  rwa [kept]

end Recompile

end SchemaCompiler
