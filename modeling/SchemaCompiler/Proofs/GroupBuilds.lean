import SchemaCompiler.Proofs.BuildTurns
import SchemaCompiler.Proofs.CompilationRuns
import SchemaCompiler.Proofs.DatabaseSteps

/-! Builds of groups. A build takes the tables of its group in turn, so what it comes to is known
from its compilations: the first failure ends it, and if there is none, the group's callback is
called with the metadata (`build_run`). What is registered by then depends on what the callbacks do
with tables themselves (`registered_lasts`, `registered_exactly`). -/
namespace SchemaCompiler

open Effect

variable {κ ε : Type}

/-- Callbacks that take no table out of a database. -/
def Callbacks.ForgetNoTable (callbacks : Callbacks κ ε) (database : String) : Prop :=
  ∀ name, callbacks.KeepTables database fun tables => name ∈ tables.keys

/-- There is no operation that takes a table out. -/
theorem Application.forgetNoTable (application : Application κ ε) (depth : Nat)
    (database : String) : (application.callbacks depth).ForgetNoTable database :=
  fun _ => application.keepTables depth fun reaches => reaches.registered

/-- Callbacks that define no table of a database. -/
def Callbacks.DefineNoTable (callbacks : Callbacks κ ε) (database : String) : Prop :=
  ∀ tables, callbacks.KeepTables database fun now => now = tables

namespace Builder

variable (callbacks : Callbacks κ ε) (builder : Builder κ)

/-- What the turn of a table asks of others. -/
def asked (group : Group κ) (turn : Turn κ ε (String × Description κ)) :
    List (Exchange κ (World κ ε) Handle) :=
  compileRecord callbacks builder.database builder.cache (group.compileOptions builder turn.item.1)
    turn.item.2 turn.found

section Turns

variable {callbacks builder} {group : Group κ} {turn : Turn κ ε (String × Description κ)}

/-- The turn of a table is its compilation. -/
theorem compiled (worked : builder.compileTable callbacks group turn.item turn.found =
    (turn.result, turn.left)) :
    let ran := compile callbacks builder.database builder.cache
      (group.compileOptions builder turn.item.1) turn.item.2 turn.found
    turn.result = ran.1.map (fun handle => [(turn.item.1, handle)]) ∧ turn.left = ran.2 := by
  rw [compileTable_run] at worked
  exact ⟨(congrArg Prod.fst worked).symm, (congrArg Prod.snd worked).symm⟩

/-- A turn gives one table, under its logical name, if it succeeds. -/
theorem tables_of_worked (worked : builder.compileTable callbacks group turn.item turn.found =
    (turn.result, turn.left)) (succeeded : turn.Succeeded) :
    ∃ handle, turn.tables = [(turn.item.1, handle)] ∧
      (compile callbacks builder.database builder.cache (group.compileOptions builder turn.item.1)
        turn.item.2 turn.found).1 = .ok handle := by
  obtain ⟨tables, went⟩ := succeeded
  obtain ⟨result, -⟩ := compiled worked
  rw [Turn.tables, went]
  rw [went] at result
  generalize (compile callbacks builder.database builder.cache
    (group.compileOptions builder turn.item.1) turn.item.2 turn.found).1 = ran at result ⊢
  cases ran with
  | error refusal => cases result
  | ok handle =>
    cases result
    exact ⟨handle, rfl, rfl⟩

/-- A turn is refused for what its compilation is. -/
theorem refused_of_worked (worked : builder.compileTable callbacks group turn.item turn.found =
    (turn.result, turn.left)) {refusal : BuildError} (refused : turn.result = .error refusal) :
    (compile callbacks builder.database builder.cache (group.compileOptions builder turn.item.1)
      turn.item.2 turn.found).1 = .error refusal := by
  obtain ⟨result, -⟩ := compiled worked
  rw [refused] at result
  generalize (compile callbacks builder.database builder.cache
    (group.compileOptions builder turn.item.1) turn.item.2 turn.found).1 = ran at result ⊢
  cases ran <;> cases result
  rfl

/-- What a turn gives is the compiled table. -/
theorem compiled_of_mem (worked : builder.compileTable callbacks group turn.item turn.found =
    (turn.result, turn.left)) {entry : String × Handle} (given : entry ∈ turn.tables) :
    entry.1 = turn.item.1 ∧ (compile callbacks builder.database builder.cache
      (group.compileOptions builder turn.item.1) turn.item.2 turn.found).1 = .ok entry.2 := by
  have succeeded : turn.Succeeded := by
    cases result : turn.result with
    | ok tables => exact ⟨tables, result⟩
    | error refusal => simp [Turn.tables, result] at given
  obtain ⟨handle, tables, went⟩ := tables_of_worked worked succeeded
  rw [tables, List.mem_singleton] at given
  subst given
  exact ⟨rfl, went⟩

private theorem names_of_tables {taken : List (Turn κ ε (String × Description κ))}
    (single : ∀ turn ∈ taken, ∃ handle, turn.tables = [(turn.item.1, handle)]) :
    (taken.flatMap Turn.tables).map Prod.fst = taken.map fun turn => turn.item.1 := by
  induction taken with
  | nil => rfl
  | cons turn rest ih =>
    rw [List.forall_mem_cons] at single
    obtain ⟨⟨handle, tables⟩, others⟩ := single
    rw [List.flatMap_cons, List.map_append, ih others, tables]
    rfl

end Turns

/-! ## What a build comes to -/

/-- The build of a group whose tables are all compiled. -/
def conclude (group : Group κ) (tables : OrderedMap String Handle) (finished : World κ ε) :
    Except BuildError (OrderedMap String Handle) × World κ ε :=
  match group.onDefineModel with
  | none => (.ok tables, finished)
  | some callback =>
    let called := callbacks.onDefineModel callback builder.database group.extras
      (finished.holdAll tables.values)
    ((called.1.mapError (.callback group.name .onDefineModel)).map fun _ => tables,
      called.2.release finished)

/-- A build takes the tables in turn and then concludes. -/
private theorem build_eq (group : Group κ) (world : World κ ε) :
    builder.build callbacks group world =
      match inTurn (builder.compileTable callbacks group) .empty group.tables.entries world with
      | (.error refusal, finished) => (.error refusal, finished)
      | (.ok tables, finished) => builder.conclude callbacks group tables finished := by
  rw [build, bind_run, compileAll_run]
  cases inTurn (builder.compileTable callbacks group) .empty group.tables.entries world
    using outcome_cases with
  | error refusal => rfl
  | ok tables finished =>
    dsimp only
    rw [bind_run, holdingAll_run, runOnDefineModel, conclude]
    cases group.onDefineModel with
    | none => rfl
    | some callback =>
      dsimp only
      rw [adapt_run]
      cases callbacks.onDefineModel callback builder.database group.extras
        (finished.holdAll tables.values) using outcome_cases <;> rfl

theorem build_run (group : Group κ) (world : World κ ε) :
    let taken := builder.compilations callbacks group world
    ∃ finished,
      TakenInTurn (builder.compileTable callbacks group) group.tables.entries world taken finished ∧
      (∀ refusal, refusedIn taken = some refusal → ∀ other,
        builder.build callbacks { group with onDefineModel := other } world =
          (.error refusal, finished)) ∧
      (refusedIn taken = none → builder.build callbacks group world =
        builder.conclude callbacks group (.ofList (taken.flatMap Turn.tables)) finished) := by
  intro taken
  obtain ⟨finished, turns, ran⟩ := inTurn_exact (builder.compileTable callbacks group) .empty
    group.tables.entries world
  have same : SchemaCompiler.turns (builder.compileTable callbacks group) .empty
      group.tables.entries world = taken := rfl
  rw [same] at ran
  refine ⟨finished, turns, fun refusal first other => ?_, fun none => ?_⟩
  · -- The tables are compiled in the same way, whatever the callback of the group is.
    have others : builder.compileTable callbacks { group with onDefineModel := other } =
        builder.compileTable callbacks group := rfl
    rw [build_eq, others, ran, first]
  · rw [build_eq, ran, none]
    rfl

/-- What callbacks keep of the tables is kept by the end of a build as well. -/
theorem conclude_tables {P : OrderedMap String Handle → Prop}
    (kept : callbacks.KeepTables builder.database P) (group : Group κ)
    (tables : OrderedMap String Handle) (finished : World κ ε)
    (holds : P (finished.database builder.database).tables) :
    P ((builder.conclude callbacks group tables finished).2.database builder.database).tables := by
  rw [conclude]
  cases group.onDefineModel with
  | none => exact holds
  | some callback =>
    exact kept.onDefineModel callback builder.database group.extras _ holds

variable {callbacks} in
/-- A build is not concluded with other tables than those that are compiled. -/
private theorem conclude_ok {group : Group κ} {tables given : OrderedMap String Handle}
    {finished built : World κ ε}
    (went : builder.conclude callbacks group given finished = (.ok tables, built)) :
    tables = given := by
  rw [conclude] at went
  cases declared : group.onDefineModel with
  | none =>
    rw [declared] at went
    cases went
    rfl
  | some callback =>
    rw [declared] at went
    dsimp only at went
    generalize callbacks.onDefineModel callback builder.database group.extras
      (finished.holdAll given.values) = called at went
    cases called using outcome_cases <;> cases went
    rfl

/-! ## What is registered -/

section Registered

variable {callbacks builder} {group : Group κ} {world finished : World κ ε}
  {taken : List (Turn κ ε (String × Description κ))}

/-- What callbacks keep of the tables, and filing a handle does as well, is kept by turns. -/
private theorem passed_keeps {P : OrderedMap String Handle → Prop}
    (kept : callbacks.KeepTables builder.database P)
    (files : ∀ tables name handle, P tables → P (tables.insert name handle))
    (worked : ∀ turn ∈ taken,
      builder.compileTable callbacks group turn.item turn.found = (turn.result, turn.left))
    (passed : Passed world taken finished) (holds : P (world.database builder.database).tables) :
    P (finished.database builder.database).tables := by
  have each (turn) (listed : turn ∈ taken) (before : P (turn.found.database builder.database).tables) :
      P (turn.left.database builder.database).tables := by
    obtain ⟨filed, shape, keeps⟩ := compile_tables callbacks builder.database builder.cache
      (group.compileOptions builder turn.item.1) turn.item.2 turn.found
    rw [← (compiled (worked turn listed)).2] at keeps
    refine keeps P kept ?_
    rcases shape with ⟨rfl, -⟩ | ⟨made, -, rfl, -⟩
    · exact before
    · exact files _ _ _ before
  have whole := (Passed.relates (R := fun before after : World κ ε =>
      P (before.database builder.database).tables → P (after.database builder.database).tables)
    (fun _ here => here) (fun first second here => second (first here)) (fun _ _ here => here)
    (fun _ _ here => here) each passed).1
  exact whole holds

/-- Every table that a turn gave stays registered, if callbacks forget none. -/
theorem registered_lasts (forgetNone : callbacks.ForgetNoTable builder.database)
    (worked : ∀ turn ∈ taken,
      builder.compileTable callbacks group turn.item turn.found = (turn.result, turn.left))
    (passed : Passed world taken finished) :
    ∀ entry ∈ taken.flatMap Turn.tables,
      entry.1 ∈ (finished.database builder.database).tables.keys := by
  have stays (name : String) (tables : OrderedMap String Handle) (other : String) (handle : Handle)
      (known : name ∈ tables.keys) : name ∈ (tables.insert other handle).keys :=
    (tables.mem_keys_insert other name handle).2 (Or.inr known)
  induction passed with
  | nil world => exact List.forall_mem_nil _
  | @cons world finished turn rest held found later ih =>
    rw [List.forall_mem_cons] at worked
    intro entry listed
    rw [List.flatMap_cons, List.mem_append] at listed
    rcases listed with own | others
    · obtain ⟨named, went⟩ := compiled_of_mem worked.1 own
      obtain ⟨filed, shape, keeps⟩ := compile_tables callbacks builder.database builder.cache
        (group.compileOptions builder turn.item.1) turn.item.2 turn.found
      rw [← (compiled worked.1).2] at keeps
      rcases shape with ⟨-, refusal, refused⟩ | ⟨made, -, rfl, -⟩
      · rw [went] at refused
        cases refused
      · refine passed_keeps (forgetNone entry.1) (stays entry.1) worked.2 later
          (keeps _ (forgetNone entry.1) ?_)
        exact (OrderedMap.mem_keys_insert _ _ _ made).2 (Or.inl named)
    · exact ih worked.2 entry others

/-- If callbacks define no tables, every table that a turn gave is registered with this very handle,
and a name that had no turn is registered as before. -/
theorem registered_exactly (defineNone : callbacks.DefineNoTable builder.database)
    (worked : ∀ turn ∈ taken,
      builder.compileTable callbacks group turn.item turn.found = (turn.result, turn.left))
    (distinct : (taken.map fun turn => turn.item.1).Nodup) (passed : Passed world taken finished) :
    let before := (world.database builder.database).tables
    let after := (finished.database builder.database).tables
    (∀ entry ∈ taken.flatMap Turn.tables, after.get? entry.1 = some entry.2) ∧
      ∀ name, name ∉ taken.map (fun turn => turn.item.1) → after.get? name = before.get? name := by
  induction passed with
  | nil world => exact ⟨List.forall_mem_nil _, fun _ _ => rfl⟩
  | @cons world finished turn rest held found later ih =>
    rw [List.forall_mem_cons] at worked
    obtain ⟨fresh, distinct⟩ := List.nodup_cons.1 distinct
    obtain ⟨given, others⟩ := ih worked.2 distinct
    obtain ⟨filed, shape, keeps⟩ := compile_tables callbacks builder.database builder.cache
      (group.compileOptions builder turn.item.1) turn.item.2 turn.found
    rw [← (compiled worked.1).2] at keeps
    have left : (turn.left.database builder.database).tables = filed :=
      keeps _ (defineNone filed) rfl
    have start : (turn.found.database builder.database).tables =
        (world.database builder.database).tables := by
      rw [found]
      rfl
    have handed : ((turn.left.release world).database builder.database).tables = filed := left
    rw [handed] at others
    rw [start] at shape
    refine ⟨fun entry listed => ?_, fun name absent => ?_⟩
    · rw [List.flatMap_cons, List.mem_append] at listed
      rcases listed with own | listed
      · obtain ⟨named, went⟩ := compiled_of_mem worked.1 own
        rcases shape with ⟨-, refusal, refused⟩ | ⟨made, -, rfl, only⟩
        · rw [went] at refused
          cases refused
        · rw [named, others turn.item.1 fresh, only entry.2 went]
          exact OrderedMap.get?_insert_self ..
      · exact given entry listed
    · rw [List.map_cons, List.mem_cons, not_or] at absent
      rw [others name absent.2]
      rcases shape with ⟨rfl, -⟩ | ⟨made, -, rfl, -⟩
      · rfl
      · rw [OrderedMap.get?_insert]
        exact if_neg (Ne.symm absent.1)

end Registered

/-! ## What is asked -/

section Asked

variable {callbacks builder} {group : Group κ} {world finished : World κ ε}
  {taken : List (Turn κ ε (String × Description κ))}

/-- The migrator is asked in the turns of selected tables that came as far as that, in order. -/
private theorem asked_migrations (worked : ∀ turn ∈ taken,
    builder.compileTable callbacks group turn.item turn.found = (turn.result, turn.left)) :
    (taken.flatMap (builder.asked callbacks group)).filterMap Exchange.migration? =
      (taken.filter fun turn =>
        builder.migrate.appliesTo turn.item.1 && cameToMigration turn.result).flatMap fun turn =>
          builder.migrator.toList.map fun migrator =>
            (turn.item.1, migrator, turn.item.2.indexPlan) := by
  induction taken with
  | nil => rfl
  | cons turn rest ih =>
    rw [List.forall_mem_cons] at worked
    have here := compile_migrations callbacks builder.database builder.cache
      (group.compileOptions builder turn.item.1) turn.item.2 turn.found
    have came : cameToMigration turn.result = cameToMigration (compile callbacks builder.database
        builder.cache (group.compileOptions builder turn.item.1) turn.item.2 turn.found).1 := by
      rw [(compiled worked.1).1, cameToMigration_map]
    rw [← came] at here
    rw [List.flatMap_cons, List.filterMap_append, ih worked.2, asked, here, List.filter_cons,
      CompileOptions.appointed]
    dsimp only [Group.compileOptions, CompileOptions.tableName, Option.getD]
    by_cases selected : builder.migrate.appliesTo turn.item.1 = true <;>
      by_cases far : cameToMigration turn.result = true <;> simp [selected, far]

/-- Wherever the migration of a selected table was come to, there is a migrator. -/
private theorem migrator_supplied {turn : Turn κ ε (String × Description κ)}
    (worked : builder.compileTable callbacks group turn.item turn.found = (turn.result, turn.left))
    (selected : builder.migrate.appliesTo turn.item.1 = true)
    (came : cameToMigration turn.result = true) : builder.migrator.isSome = true := by
  rw [(compiled worked).1, cameToMigration_map] at came
  have goes := compile_goes callbacks builder.database builder.cache
    (group.compileOptions builder turn.item.1) turn.item.2 turn.found
  generalize compile callbacks builder.database builder.cache
    (group.compileOptions builder turn.item.1) turn.item.2 turn.found = outcome,
    compileRecord callbacks builder.database builder.cache
    (group.compileOptions builder turn.item.1) turn.item.2 turn.found = record at came goes
  cases goes with
  | @undrafted refusal drafted ran =>
    have early := draft_refused ran
    cases refusal <;> first | (cases came; done) | cases early
  | refused ran asked => cases came
  | opened ran asked made performed =>
    obtain ⟨c, mixinFields, sorted, -, drawn⟩ := draft_ok ran
    exact (CompileOptions.blueprint_steps (Description.classify_sorted sorted) drawn).2 selected

/-- The layer is asked for a table under its logical name only. -/
private theorem asked_definition {turn : Turn κ ε (String × Description κ)}
    {exchange : Exchange κ (World κ ε) Handle}
    (made : exchange ∈ builder.asked callbacks group turn) {definition : TableDefinition}
    (request : exchange.request = .define definition) : definition.name = turn.item.1 := by
  have goes := compile_goes callbacks builder.database builder.cache
    (group.compileOptions builder turn.item.1) turn.item.2 turn.found
  rw [asked] at made
  generalize compile callbacks builder.database builder.cache
    (group.compileOptions builder turn.item.1) turn.item.2 turn.found = outcome,
    compileRecord callbacks builder.database builder.cache
    (group.compileOptions builder turn.item.1) turn.item.2 turn.found = record at made goes
  cases goes with
  | undrafted ran => cases made
  | refused ran refused =>
    cases List.mem_singleton.1 made
    cases request
    exact draft_name ran
  | opened ran granted handle performed =>
    rcases List.mem_cons.1 made with rfl | later
    · cases request
      exact draft_name ran
    · obtain ⟨step, -, finishing⟩ := Collaborators.exchanges_request _ _ later
      rw [request] at finishing
      cases finishing

end Asked

end Builder

/-- The metadata of a group is what its tables declare for it and counts as given, in table order. -/
theorem Group.extras_entries (group : Group κ) :
    group.extras.entries = group.tables.entries.filterMap fun table =>
      (table.2.extra?.filter Json.isTruthy).map fun value => (table.1, value) := by
  refine OrderedMap.entries_ofList (Entries.nodup_filterMap id ?_ group.tables.distinct)
  intro table name value picked
  obtain ⟨extra, -, same⟩ := Option.map_eq_some_iff.1 picked
  cases same
  rfl

namespace Builder

/-- How a build of a group goes, with the world as it is when all turns are taken. -/
structure BuildsInOrder (callbacks : Callbacks κ ε) (builder : Builder κ) (group : Group κ)
    (world finished : World κ ε) : Prop where
  /-- The tables are compiled in turn, up to the first that fails. -/
  turns : TakenInTurn (builder.compileTable callbacks group) group.tables.entries world
    (builder.compilations callbacks group world) finished
  /-- The layer is asked for a table in its turn only, under its logical name. -/
  named : ∀ turn ∈ builder.compilations callbacks group world,
    ∀ exchange ∈ builder.asked callbacks group turn, ∀ definition,
      exchange.request = .define definition → definition.name = turn.item.1
  /-- A failure is the outcome, and nothing comes after it. The callback of the group could be any
  other. -/
  fails : ∀ turn ∈ builder.compilations callbacks group world, ∀ refusal,
    turn.result = .error refusal → ∀ other,
      builder.build callbacks { group with onDefineModel := other } world =
        (.error refusal, finished)
  /-- Without a failure the build is concluded with the compiled tables in their order. -/
  concludes : (∀ turn ∈ builder.compilations callbacks group world, turn.Succeeded) →
    ∃ tables : OrderedMap String Handle,
      tables.entries = (builder.compilations callbacks group world).flatMap Turn.tables ∧
      tables.keys = group.tables.keys ∧
      builder.build callbacks group world = builder.conclude callbacks group tables finished
  /-- What was compiled is registered at the end. -/
  registers : callbacks.ForgetNoTable builder.database →
    ∀ entry ∈ (builder.compilations callbacks group world).flatMap Turn.tables,
      entry.1 ∈
        ((builder.build callbacks group world).2.database builder.database).tables.keys
  /-- If callbacks define no tables, it is registered with these very handles, and nothing is that
  had no turn. -/
  registersExactly : callbacks.DefineNoTable builder.database →
    let after := ((builder.build callbacks group world).2.database builder.database).tables
    (∀ entry ∈ (builder.compilations callbacks group world).flatMap Turn.tables,
      after.get? entry.1 = some entry.2) ∧
    ∀ name, name ∉ (builder.compilations callbacks group world).map (fun turn => turn.item.1) →
      after.get? name = (world.database builder.database).tables.get? name
  /-- The migrator is asked in the turns of selected tables that came as far as that, once in each
  and in order. -/
  migrates : ((builder.compilations callbacks group world).flatMap
      (builder.asked callbacks group)).filterMap Exchange.migration? =
    ((builder.compilations callbacks group world).filter fun turn =>
      builder.migrate.appliesTo turn.item.1 && cameToMigration turn.result).flatMap fun turn =>
        builder.migrator.toList.map fun migrator => (turn.item.1, migrator, turn.item.2.indexPlan)
  supplied : ∀ turn ∈ builder.compilations callbacks group world,
    builder.migrate.appliesTo turn.item.1 = true → cameToMigration turn.result = true →
      builder.migrator.isSome = true

/-- How a build of several groups goes. -/
structure BuildsAllInOrder (callbacks : Callbacks κ ε) (builder : Builder κ)
    (groups : List (Group κ)) (world finished : World κ ε) : Prop where
  /-- The groups are built in turn, up to the first that fails. -/
  turns : TakenInTurn (builder.buildGroup callbacks) groups world
    (builder.builds callbacks groups world) finished
  fails : ∀ turn ∈ builder.builds callbacks groups world, ∀ refusal,
    turn.result = .error refusal →
      builder.buildAll callbacks groups world = (.error refusal, finished)
  /-- Without a failure the outcome has the tables of all groups. A repeated name has its first
  place and its last table. -/
  collects : (∀ turn ∈ builder.builds callbacks groups world, turn.Succeeded) →
    ∃ tables : OrderedMap String Handle,
      builder.buildAll callbacks groups world = (.ok tables, finished) ∧
      let entries := (builder.builds callbacks groups world).flatMap Turn.tables
      tables.keys = (entries.map Prod.fst).eraseDups ∧
        ∀ name, tables.get? name = Entries.get? name entries.reverse

section InOrder

variable (callbacks : Callbacks κ ε) (builder : Builder κ)

theorem build_goes (group : Group κ) (world : World κ ε) :
    ∃ finished, builder.BuildsInOrder callbacks group world finished := by
  obtain ⟨finished, turns, failed, concluded⟩ := builder.build_run callbacks group world
  have names : (builder.compilations callbacks group world).map (fun turn => turn.item.1) <+:
      group.tables.keys := by
    have order := turns.order.map Prod.fst
    rwa [List.map_map] at order
  have distinct := names.sublist.nodup group.tables.keys_nodup
  -- What callbacks keep of the tables is kept when the turns are over.
  have kept {P : OrderedMap String Handle → Prop} (kept : callbacks.KeepTables builder.database P)
      (holds : P (finished.database builder.database).tables) :
      P ((builder.build callbacks group world).2.database builder.database).tables := by
    cases first : refusedIn (builder.compilations callbacks group world) with
    | some refusal =>
      rw [failed refusal first group.onDefineModel]
      exact holds
    | none =>
      rw [concluded first]
      exact builder.conclude_tables callbacks kept group _ finished holds
  refine ⟨finished, turns, ?named, ?fails, ?concludes, ?registers, ?registersExactly, ?migrates,
    ?supplied⟩
  case named => exact fun turn _ exchange made definition request => asked_definition made request
  case fails =>
    intro turn listed refusal refused
    exact failed refusal (turns.refusedIn _ listed refused)
  case concludes =>
    intro all
    have single (turn) (listed : turn ∈ builder.compilations callbacks group world) :
        ∃ handle, turn.tables = [(turn.item.1, handle)] := by
      obtain ⟨handle, tables, -⟩ := tables_of_worked (turns.worked turn listed) (all turn listed)
      exact ⟨handle, tables⟩
    have given := names_of_tables single
    have entries := OrderedMap.entries_ofList (given ▸ distinct)
    refine ⟨_, entries, ?_, concluded (refusedIn_eq_none_iff.2 all)⟩
    rw [OrderedMap.keys, entries, given, OrderedMap.keys, ← turns.complete all, List.map_map]
    rfl
  case registers =>
    intro forgetNone entry listed
    exact kept (forgetNone entry.1)
      (registered_lasts forgetNone turns.worked turns.passed entry listed)
  case registersExactly =>
    intro defineNone after
    have same : after = (finished.database builder.database).tables := kept (defineNone _) rfl
    rw [same]
    exact registered_exactly defineNone turns.worked distinct turns.passed
  case migrates => exact asked_migrations turns.worked
  case supplied => exact fun turn listed => migrator_supplied (turns.worked turn listed)

variable {callbacks builder} in
/-- What a build that succeeds comes to: all its turns do, they give the tables of the group in
order, and it is concluded with these. -/
theorem build_concluded {group : Group κ} {world built : World κ ε}
    {tables : OrderedMap String Handle}
    (went : builder.build callbacks group world = (.ok tables, built)) :
    ∃ finished, TakenInTurn (builder.compileTable callbacks group) group.tables.entries world
        (builder.compilations callbacks group world) finished ∧
      (∀ turn ∈ builder.compilations callbacks group world, turn.Succeeded) ∧
      tables.entries = (builder.compilations callbacks group world).flatMap Turn.tables ∧
      tables.keys = group.tables.keys ∧
      builder.conclude callbacks group tables finished = (.ok tables, built) := by
  obtain ⟨finished, goes⟩ := builder.build_goes callbacks group world
  have all (turn) (listed : turn ∈ builder.compilations callbacks group world) :
      turn.Succeeded := by
    cases result : turn.result with
    | ok given => exact ⟨given, result⟩
    | error refusal =>
      have failed := goes.fails turn listed refusal result group.onDefineModel
      rw [went] at failed
      cases failed
  obtain ⟨given, entries, keys, concluded⟩ := goes.concludes all
  have same := concluded.symm.trans went
  cases conclude_ok builder same
  exact ⟨finished, goes.turns, all, entries, keys, same⟩

theorem buildAll_goes (groups : List (Group κ)) (world : World κ ε) :
    ∃ finished, builder.BuildsAllInOrder callbacks groups world finished := by
  obtain ⟨finished, turns, ran⟩ := inTurn_exact (builder.buildGroup callbacks) .empty groups world
  have same : SchemaCompiler.turns (builder.buildGroup callbacks) .empty groups world =
      builder.builds callbacks groups world := rfl
  have built := (builder.buildInto_run callbacks .empty groups world).trans ran
  rw [same] at turns built
  refine ⟨finished, turns, fun turn listed refusal failed => ?_, fun all => ?_⟩
  · rw [turns.refusedIn _ listed failed] at built
    exact built
  · rw [refusedIn_eq_none_iff.2 all] at built
    exact ⟨_, built, OrderedMap.keys_ofList _, OrderedMap.get?_ofList _⟩

end InOrder

end Builder

/-- A build takes the tables of its group in turn, each under its logical name, and no others. The
first that fails ends the build with its refusal: the tables before it are registered, those after
it are not defined, and the callback of the group is not called, whichever it is. If none fails, it
is called once, after the last table, with the metadata that counts as given, and the outcome has
the tables in their order, each with the handle under which it is registered then. The migrator is
asked once for each selected table whose compilation came as far as that, in order.

Groups are built in turn as well. If none fails, a name that several of them have keeps its first
place and has its last table. -/
theorem build_in_order (callbacks : Callbacks κ ε) (builder : Builder κ) :
    (∀ (group : Group κ) (world : World κ ε),
      (∃ finished, builder.BuildsInOrder callbacks group world finished) ∧
      group.extras.entries = group.tables.entries.filterMap fun table =>
        (table.2.extra?.filter Json.isTruthy).map fun value => (table.1, value)) ∧
    (∀ (groups : List (Group κ)) (world : World κ ε),
      ∃ finished, builder.BuildsAllInOrder callbacks groups world finished) ∧
    ∀ setting, builder.migrate = .ofSetting setting →
      ∀ table, builder.migrate.appliesTo table = setting.appliesTo table := by
  refine ⟨fun group world => ⟨builder.build_goes callbacks group world, group.extras_entries⟩,
    builder.buildAll_goes callbacks, fun setting same table => ?_⟩
  rw [same]
  exact MigrateIndexes.appliesTo_ofSetting setting table

namespace Market

open Ledger (idle)

def people : Description String :=
  ⟨1, "people", .ofList [("name", .field (.ofType "string")), (extraName, .option (.string "staff"))],
    []⟩

def orders : Description String := ⟨2, "orders", .ofList [("item", .field (.ofType "string"))], []⟩

/-- Indexes are to be migrated for one of the tables, but there is no migrator. -/
def builder : Builder String :=
  { database := "main", migrate := .ofSetting (.tables ["orders"]), cache := 0 }

def staff : Group String :=
  { name := "staff", tables := .ofList [("people", people)], onDefineModel := some "announce" }

def shop : Group String :=
  { staff with
    name := "shop"
    tables := .ofList [("people", people), ("orders", orders)]
    onDefineTable := some "enrol" }

def world : World String Unit := { application := () }

/-- Whoever is told of a finished table writes a row to it and defines a table of its own. -/
def clerk : Application String Unit where
  hook _ _ := .finish (.ok .proceed)
  common _ _ _ _ := .finish (.ok .proceed)
  tableMethod _ _ _ := .finish (.ok .null)
  onDefineTable _ _ handle := .insert handle.id (.ofList [("name", .string "Ada")]) fun _ =>
    .define handle.database { name := "log" } fun _ => .finish (.ok ())
  onDefineModel _ _ _ := .finish (.ok ())
  migrate _ _ _ := .finish (.ok ())

def observed : World String (Observed String Unit) := { application := { own := () } }

private theorem idle_defineNoTable : idle.DefineNoTable "main" :=
  fun _ => ⟨fun _ _ _ _ => id, fun _ _ _ _ => id, fun _ _ _ _ => id, fun _ _ _ _ => id⟩

/-- The first group is built. In the second one the table before the missing migrator is registered,
whatever else was defined when that was told, and the one that needed it is not. Building both
groups ends there. -/
theorem build_in_order_market :
    (∃ tables, (builder.build idle staff world).1 = .ok tables ∧ tables.keys = ["people"] ∧
      ∃ handle, tables.entries = [("people", handle)] ∧
        ((builder.build idle staff world).2.database "main").tables.get? "people" = some handle) ∧
    (builder.build (clerk.callbacks 1) shop observed).1 = .error (.missingIndexMigrator "orders") ∧
    "people" ∈ ((builder.build (clerk.callbacks 1) shop observed).2.database "main").tables.keys ∧
    (builder.buildAll idle [staff, shop] world).1 = .error (.missingIndexMigrator "orders") ∧
    ∀ table, builder.migrate.appliesTo table =
      (MigrateSetting.tables ["orders"]).appliesTo table := by
  obtain ⟨builds, buildsAll, selects⟩ := build_in_order idle builder
  obtain ⟨⟨_, partly⟩, -⟩ := (build_in_order (clerk.callbacks 1) builder).1 shop observed
  refine ⟨?_, ?_, ?_, ?_, selects _ rfl⟩
  · obtain ⟨⟨finished, goes⟩, -⟩ := builds staff world
    have all : refusedIn (builder.compilations idle staff world) = none := by decide +kernel
    obtain ⟨tables, entries, keys, concluded⟩ := goes.concludes (refusedIn_eq_none_iff.1 all)
    have single : tables.entries.map Prod.fst = ["people"] := keys
    obtain ⟨⟨name, handle⟩, given, rfl⟩ := List.map_eq_singleton_iff.1 single
    refine ⟨tables, by rw [concluded]; rfl, single, handle, given, ?_⟩
    exact (goes.registersExactly idle_defineNoTable).1 ("people", handle)
      (entries ▸ given ▸ List.mem_cons_self)
  · have first : refusedIn (builder.compilations (clerk.callbacks 1) shop observed) =
        some (.missingIndexMigrator "orders") := by decide +kernel
    obtain ⟨turn, listed, failed⟩ := List.exists_of_findSome?_eq_some first
    exact congrArg Prod.fst
      (partly.fails turn listed _ (refusalOf_eq_some_iff.1 failed) shop.onDefineModel)
  · have given : ((builder.compilations (clerk.callbacks 1) shop observed).flatMap
        Turn.tables).map Prod.fst = ["people"] := by decide +kernel
    obtain ⟨entry, same, named⟩ := List.map_eq_singleton_iff.1 given
    have registered := partly.registers (clerk.forgetNoTable 1 "main") entry
      (same ▸ List.mem_cons_self)
    exact named ▸ registered
  · obtain ⟨_, goes⟩ := buildsAll [staff, shop] world
    have first : refusedIn (builder.builds idle [staff, shop] world) =
        some (.missingIndexMigrator "orders") := by decide +kernel
    obtain ⟨turn, listed, failed⟩ := List.exists_of_findSome?_eq_some first
    exact congrArg Prod.fst (goes.fails turn listed _ (refusalOf_eq_some_iff.1 failed))

end Market
end SchemaCompiler
