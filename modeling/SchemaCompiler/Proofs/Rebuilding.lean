import SchemaCompiler.Proofs.GroupIndexes
import SchemaCompiler.Proofs.Recompilation

/-! Building a group again. Between two builds rows may be worked on through any handles, which
leaves all but the rows as it is (`RowOperation.run_rowsOnly`). The second build then takes the same
turns as the first. Each finds what the first build left for it, since what is known of tables stays
true over the turns before (`Passed.relates`), so it succeeds and leaves all as it was. The stored
indexes are the outcome of the same migrations, done a second time. -/
namespace SchemaCompiler

open Effect

variable {κ ε : Type}

/-! ## Rows in between -/

/-- Nothing changed but rows and their counters, and what was cached is. -/
structure World.RowsOnly (before after : World κ ε) : Prop where
  databases : ∀ name, ∃ storages, after.database name = { before.database name with storages }
  cache : ∀ number, (before.cache number).KeptBy (after.cache number)
  store : after.store = before.store

/-- An operation on the rows of a table, through one of its handles. -/
inductive RowOperation where
  | insert (handle : Handle) (values : Row)
  | update (handle : Handle) (ids : List UInt64) (values : Row)
  | delete (handle : Handle) (ids : List UInt64)

namespace RowOperation

/-- The world after an operation, whatever came of it. -/
def run (callbacks : Callbacks κ ε) (world : World κ ε) : RowOperation → World κ ε
  | insert handle values => (handle.insert callbacks values world).2
  | update handle ids values => (handle.update callbacks ids values world).2
  | delete handle ids => (handle.delete callbacks ids world).2

/-- The world after operations in a row. -/
def runAll (callbacks : Callbacks κ ε) (world : World κ ε) (operations : List RowOperation) :
    World κ ε :=
  operations.foldl (run callbacks) world

end RowOperation

namespace World.RowsOnly

variable {before middle after : World κ ε}

theorem refl (world : World κ ε) : world.RowsOnly world :=
  ⟨fun name => ⟨(world.database name).storages, rfl⟩, fun _ => .refl _, rfl⟩

theorem trans (first : before.RowsOnly middle) (second : middle.RowsOnly after) :
    before.RowsOnly after where
  databases name := by
    obtain ⟨_, same⟩ := first.databases name
    obtain ⟨storages, same'⟩ := second.databases name
    exact ⟨storages, by rw [same', same]⟩
  cache number := (first.cache number).trans (second.cache number)
  store := second.store.trans first.store

theorem setStorage (world : World κ ε) (handle : Handle) (rows : Storage) :
    world.RowsOnly (world.setStorage handle rows) := by
  refine ⟨fun name => ?_, fun _ => .refl _, rfl⟩
  rw [World.setStorage, World.database_setDatabase]
  by_cases own : name = handle.database
  · subst own
    exact ⟨_, Function.update_self ..⟩
  · exact ⟨(world.database name).storages, by rw [Function.update_of_ne own]⟩

theorem decoration (rows : before.RowsOnly after) (handle : Handle) :
    after.decoration handle = before.decoration handle := by
  obtain ⟨storages, same⟩ := rows.databases handle.database
  rw [World.decoration, same]
  rfl

theorem later (rows : before.RowsOnly after) (database : String) : before.Later database after := by
  obtain ⟨storages, same⟩ := rows.databases database
  refine ⟨.of_same ?_ ?_ ?_, rows.cache, fun number sound => ?_⟩
  · rw [same]
  · rw [same]
  · rw [same]
  · rwa [rows.store]

end World.RowsOnly

section Rows

variable {callbacks : Callbacks κ ε} {world : World κ ε}

/-- The hooks of handles work on rows at most, as long as nothing else has changed. -/
def World.HooksWorkOnRows (callbacks : Callbacks κ ε) (world : World κ ε) : Prop :=
  ∀ handle phase, ∀ hook ∈ (world.decoration handle).hooks phase, ∀ args now,
    world.RowsOnly now → World.RowsOnly now (hook.call callbacks args now).2

private theorem Handle.staged_rowsOnly {α : Type} {start : World κ ε} {handle : Handle}
    {event : Event} {args : HookArgs} {aborted : α}
    {write : Storage → Except RowError (α × HookArgs × Storage)}
    (hooks : start.HooksWorkOnRows callbacks) (before : start.RowsOnly world) :
    start.RowsOnly (handle.staged callbacks event args aborted write world).2 := by
  have held : start.RowsOnly (world.hold handle) := ⟨before.databases, before.cache, before.store⟩
  have calls (now : World κ ε) (upto : start.RowsOnly now) (timing : Timing) (hook)
      (listed : hook ∈ (now.decoration handle).hooks (.ofParts timing event)) (args) (later)
      (before : start.RowsOnly later) : start.RowsOnly (hook.call callbacks args later).2 := by
    rw [upto.decoration] at listed
    exact before.trans (hooks handle _ hook listed args later before)
  obtain ⟨after, upto, same⟩ : ∃ after, start.RowsOnly after ∧
      (handle.staged callbacks event args aborted write world).2 = after.release world :=
    staged_keeps held calls fun now upto _ _ rows _ => upto.trans (.setStorage now handle rows)
  rw [same]
  exact ⟨upto.databases, upto.cache, upto.store⟩

/-- An operation works on rows only, if the hooks do that were attached at the start. -/
theorem RowOperation.run_rowsOnly {start : World κ ε} (hooks : start.HooksWorkOnRows callbacks)
    (operation : RowOperation) (before : start.RowsOnly world) :
    start.RowsOnly (operation.run callbacks world) := by
  cases operation with
  | insert handle values =>
    rw [run, Handle.insert_run]
    cases handle.definition.admitInsertion world.isRow values with
    | error refusal => exact before
    | ok admitted => exact Handle.staged_rowsOnly hooks before
  | update handle ids values =>
    rw [run, Handle.update_run]
    cases handle.definition.admitUpdate world.isRow values with
    | error refusal => exact before
    | ok admitted =>
      dsimp only
      split
      · exact before
      · exact Handle.staged_rowsOnly hooks before
  | delete handle ids =>
    rw [run, Handle.delete_run]
    dsimp only
    split
    · exact before
    · exact Handle.staged_rowsOnly hooks before

private theorem RowOperation.runAll_rowsOnly (hooks : world.HooksWorkOnRows callbacks)
    (operations : List RowOperation) : world.RowsOnly (runAll callbacks world operations) := by
  unfold runAll
  suffices general : ∀ now, world.RowsOnly now → world.RowsOnly (operations.foldl (run callbacks) now)
    from general world (.refl world)
  induction operations with
  | nil => exact fun now before => before
  | cons operation rest ih =>
    intro now before
    exact ih _ (operation.run_rowsOnly hooks before)

end Rows

/-! ## Turns -/

/-- Callbacks of a group that touch neither tables nor stored indexes. -/
structure Group.Spares (callbacks : Callbacks κ ε) (group : Group κ) : Prop where
  onDefine : ∀ table ∈ group.tables.entries, ∀ callback, table.2.onDefine? = some callback →
    ∀ handle world, World.Untouched world (callbacks.tableMethod callback handle [] world).2
  onDefineTable : ∀ callback, group.onDefineTable = some callback → ∀ description handle world,
    World.Untouched world (callbacks.onDefineTable callback description handle world).2
  onDefineModel : ∀ callback, group.onDefineModel = some callback → ∀ database extras world,
    World.Untouched world (callbacks.onDefineModel callback database extras world).2

/-- Such callbacks leave every store as it is. -/
theorem Group.Spares.leavesStore {callbacks : Callbacks κ ε} {group : Group κ}
    (spares : group.Spares callbacks) (number : Nat) : group.LeavesStore callbacks number where
  onDefine table listed callback declared handle world :=
    congrFun (spares.onDefine table listed callback declared handle world).store number
  onDefineTable callback declared description handle world :=
    congrFun (spares.onDefineTable callback declared description handle world).store number
  onDefineModel callback declared database extras world :=
    congrFun (spares.onDefineModel callback declared database extras world).store number

namespace Builder

variable {callbacks : Callbacks κ ε} {builder : Builder κ} {group : Group κ}
  {world finished : World κ ε} {taken : List (Turn κ ε (String × Description κ))}

/-- Nobody but the migrator of the builder is appointed. -/
private theorem supplied_of_appointed {logicalName : String} {migrator : IndexMigrator κ}
    (appointed : (group.compileOptions builder logicalName).appointed = some migrator) :
    builder.migrator = some migrator := by
  rw [appointed_eq] at appointed
  split at appointed
  · exact appointed
  · cases appointed

private theorem steps_spare (spares : group.Spares callbacks) (stored : builder.KeepsInStores)
    {table : String × Description κ} (listed : table ∈ group.tables.entries) :
    ∀ step ∈ (group.compileOptions builder table.1).attachments table.2 ++
      (group.compileOptions builder table.1).calls table.2, step.Spares callbacks := by
  refine forall_steps (fun step attaches => ?_) (spares.onDefine table listed) spares.onDefineTable
    stored
  cases step <;> trivial

section Turns

variable (spares : group.Spares callbacks) (stored : builder.KeepsInStores)
  (turns : TakenInTurn (builder.compileTable callbacks group) group.tables.entries world taken
    finished)

include spares stored turns

/-- A turn that succeeds is a compilation that does. -/
private theorem compiledTo_of_succeeded {turn : Turn κ ε (String × Description κ)}
    (listed : turn ∈ taken) (succeeded : turn.Succeeded) :
    ∃ handle blueprint drafted, turn.tables = [(turn.item.1, handle)] ∧
      CompiledTo builder.database builder.cache (group.compileOptions builder turn.item.1)
        turn.item.2 turn.found blueprint drafted handle turn.left := by
  have worked := turns.worked turn listed
  obtain ⟨handle, tables, went⟩ := tables_of_worked worked succeeded
  have left := (compiled worked).2
  obtain ⟨blueprint, drafted, compiledTo⟩ := compiledTo_of_ok
    (steps_spare spares stored (turns.mem listed)) (Prod.ext went left.symm)
  exact ⟨handle, blueprint, drafted, tables, compiledTo⟩

/-- What stays true over a single compilation stays true over all turns. -/
private theorem turns_later :
    world.Later builder.database finished ∧ ∀ turn ∈ taken,
      world.Later builder.database turn.found ∧ turn.left.Later builder.database finished := by
  have each (turn) (listed : turn ∈ taken) : turn.found.Later builder.database turn.left := by
    rw [(compiled (turns.worked turn listed)).2]
    exact compile_later (steps_spare spares stored (turns.mem listed)) turn.found
  exact Passed.relates (World.Later.refl _) World.Later.trans
    (fun _ _ => ⟨.refl _, fun _ => .refl _, fun _ sound => sound⟩)
    (fun _ _ => ⟨.refl _, fun _ => .refl _, fun _ sound => sound⟩) each turns.passed

end Turns

/-! ## Builds whose callbacks touch nothing -/

variable (builder) in
/-- A build whose callbacks touch nothing is concluded without a change, unless its own callback
fails. -/
private theorem conclude_spares (spares : group.Spares callbacks)
    (tables : OrderedMap String Handle) (finished : World κ ε) :
    finished.Untouched (builder.conclude callbacks group tables finished).2 ∧
      ((builder.conclude callbacks group tables finished).1 = .ok tables ∨
        ∃ table stage source, (builder.conclude callbacks group tables finished).1 =
          .error (.callback table stage source)) := by
  rw [conclude]
  cases declared : group.onDefineModel with
  | none => exact ⟨⟨rfl, fun _ => .refl _, rfl⟩, Or.inl rfl⟩
  | some callback =>
    have untouched := spares.onDefineModel callback declared builder.database group.extras
      (finished.holdAll tables.values)
    dsimp only
    generalize callbacks.onDefineModel callback builder.database group.extras
      (finished.holdAll tables.values) = called at untouched ⊢
    refine ⟨⟨untouched.database, untouched.cache, untouched.store⟩, ?_⟩
    cases called using outcome_cases with
    | error source => exact Or.inr ⟨_, _, source, rfl⟩
    | ok value => exact Or.inl rfl

/-- What a build that succeeds comes to: all its turns do, they give the tables of the group in
order, and nothing is changed after them. -/
private theorem build_ok (spares : group.Spares callbacks) {tables : OrderedMap String Handle}
    {built : World κ ε} (went : builder.build callbacks group world = (.ok tables, built)) :
    ∃ finished, TakenInTurn (builder.compileTable callbacks group) group.tables.entries world
        (builder.compilations callbacks group world) finished ∧
      (∀ turn ∈ builder.compilations callbacks group world, turn.Succeeded) ∧
      tables.entries = (builder.compilations callbacks group world).flatMap Turn.tables ∧
      tables.keys = group.tables.keys ∧ finished.Untouched built := by
  obtain ⟨finished, turns, all, entries, keys, concluded⟩ := build_concluded went
  obtain ⟨untouched, -⟩ := builder.conclude_spares spares tables finished
  rw [concluded] at untouched
  exact ⟨finished, turns, all, entries, keys, untouched⟩

/-- A build that is refused is so by the callback that concludes it, or in one of its turns. -/
private theorem build_refused (spares : group.Spares callbacks) {refusal : BuildError}
    (refused : (builder.build callbacks group world).1 = .error refusal) :
    (∃ table stage source, refusal = .callback table stage source) ∨
      ∃ finished, TakenInTurn (builder.compileTable callbacks group) group.tables.entries world
          (builder.compilations callbacks group world) finished ∧
        ∃ turn ∈ builder.compilations callbacks group world, turn.result = .error refusal := by
  obtain ⟨finished, goes⟩ := builder.build_goes callbacks group world
  by_cases all : ∀ turn ∈ builder.compilations callbacks group world, turn.Succeeded
  · obtain ⟨tables, -, -, concluded⟩ := goes.concludes all
    obtain ⟨-, outcome⟩ := builder.conclude_spares spares tables finished
    rw [concluded] at refused
    rcases outcome with same | ⟨table, stage, source, failed⟩
    · rw [same] at refused
      cases refused
    · rw [failed] at refused
      cases refused
      exact Or.inl ⟨table, stage, source, rfl⟩
  · simp only [not_forall] at all
    obtain ⟨turn, taken, failed⟩ := all
    cases result : turn.result with
    | ok given => exact absurd ⟨given, result⟩ failed
    | error other =>
      have outcome := congrArg Prod.fst (goes.fails turn taken other result group.onDefineModel)
      have same : other = refusal := Except.error.inj (outcome.symm.trans refused)
      rw [same] at result
      exact Or.inr ⟨finished, goes.turns, turn, taken, result⟩

/-- A table of a group as it is built: it can be compiled again, and its handle is furnished. -/
structure Built (builder : Builder κ) (group : Group κ) (table : String × Description κ)
    (handle : Handle) (world : World κ ε) : Prop where
  recompilable : Recompilable builder.database builder.cache
    (group.compileOptions builder table.1) table.2 handle.definition world
  furnished : ∃ made, Furnished (group.compileOptions builder table.1) table.2 made handle
    (world.decoration handle)

/-- Handles of a table as it was built at two times say the same of it. -/
theorem Built.info_eq {table : String × Description κ} {first second : Handle}
    {before after : World κ ε} (compiled : builder.Built group table first before)
    (later : before.Later builder.database after)
    (compiled' : builder.Built group table second after) :
    second.info after = first.info before := by
  -- By now the table has one layout, which is that of both handles.
  have kept := compiled.recompilable.later later
  have layout := kept.sameLayout compiled'.recompilable
  obtain ⟨_, furnished⟩ := compiled.furnished
  obtain ⟨_, furnished'⟩ := compiled'.furnished
  exact Handle.info_eq (kept.named.trans compiled'.recompilable.named.symm) layout furnished
    furnished'

section Succeeded

variable {tables : OrderedMap String Handle} {built : World κ ε}

/-- A build that succeeds has all its tables built in the end. -/
private theorem built_of_ok (spares : group.Spares callbacks) (stored : builder.KeepsInStores)
    (bare : (world.database builder.database).Bare)
    (went : builder.build callbacks group world = (.ok tables, built)) :
    tables.keys = group.tables.keys ∧ world.Later builder.database built ∧
      ∀ table ∈ group.tables.entries, ∃ handle, tables.get? table.1 = some handle ∧
        builder.Built group table handle built := by
  obtain ⟨finished, turns, all, entries, keys, untouched⟩ := build_ok spares went
  obtain ⟨whole, parts⟩ := turns_later spares stored turns
  have last : finished.Later builder.database built := .of_untouched untouched
  refine ⟨keys, whole.trans last, fun table listed => ?_⟩
  rw [← turns.complete all] at listed
  obtain ⟨turn, taken, rfl⟩ := List.mem_map.1 listed
  obtain ⟨handle, blueprint, drafted, given, compiledTo⟩ :=
    compiledTo_of_succeeded spares stored turns taken (all turn taken)
  obtain ⟨before, after⟩ := parts turn taken
  have onwards := after.trans last
  refine ⟨handle, ?_, compiledTo.recompilable.later onwards, _,
    compiledTo.furnished_later (before.database.bare bare) onwards⟩
  rw [OrderedMap.get?_eq_some_iff, entries, List.mem_flatMap]
  exact ⟨turn, taken, given ▸ List.mem_cons_self⟩

end Succeeded

/-! ## Building again -/

/-- All tables of a group can be compiled again. -/
def Rebuildable (builder : Builder κ) (group : Group κ) (world : World κ ε) : Prop :=
  ∀ table ∈ group.tables.entries, ∃ definition, Recompilable builder.database builder.cache
    (group.compileOptions builder table.1) table.2 definition world

/-- If all tables can be compiled again, a build can be refused by a callback or for a validator,
and for nothing else. -/
private theorem rebuild_refused (spares : group.Spares callbacks) (stored : builder.KeepsInStores)
    (rebuildable : builder.Rebuildable group world)
    (sound : ∀ number, builder.migrator = some (.store number) →
      (world.store number).store.Sound)
    {refusal : BuildError} (refused : (builder.build callbacks group world).1 = .error refusal) :
    (∃ table stage source, refusal = .callback table stage source) ∨
      ∃ table field source, refusal = .validator table field source := by
  rcases build_refused spares refused with callback | ⟨finished, turns, turn, taken, result⟩
  · exact Or.inl callback
  · have own : turn.item ∈ group.tables.entries := turns.mem taken
    obtain ⟨definition, again⟩ := rebuildable turn.item own
    have found := ((turns_later spares stored turns).2 turn taken).1
    exact (again.later found).compile_refused (steps_spare spares stored own)
      (fun number appointed => found.sound number (sound number (supplied_of_appointed appointed)))
      (refused_of_worked (turns.worked turn taken) result)

/-- If all tables can be compiled again, a build that succeeds leaves all contents as they were. -/
private theorem rebuild_sameContents (spares : group.Spares callbacks)
    (stored : builder.KeepsInStores) (rebuildable : builder.Rebuildable group world)
    {tables : OrderedMap String Handle} {built : World κ ε}
    (went : builder.build callbacks group world = (.ok tables, built)) :
    world.SameContents built := by
  obtain ⟨finished, turns, all, -, -, untouched⟩ := build_ok spares went
  obtain ⟨-, parts⟩ := turns_later spares stored turns
  have each (turn) (taken : turn ∈ builder.compilations callbacks group world) :
      turn.found.SameContents turn.left := by
    obtain ⟨definition, again⟩ := rebuildable turn.item (turns.mem taken)
    obtain ⟨handle, blueprint, drafted, -, compiledTo⟩ :=
      compiledTo_of_succeeded spares stored turns taken (all turn taken)
    exact (again.later (parts turn taken).1).sameContents compiledTo
  have whole := (Passed.relates (fun _ => World.SameContents.of_same rfl)
    World.SameContents.trans (fun _ _ => .of_same rfl) (fun _ _ => .of_same rfl) each
    turns.passed).1
  exact whole.trans (.of_same untouched.database)

/-- If all tables can be compiled again, no callback fails and all validators can be made, a build
succeeds. -/
private theorem rebuild_ok (spares : group.Spares callbacks) (stored : builder.KeepsInStores)
    (rebuildable : builder.Rebuildable group world)
    (sound : ∀ number, builder.migrator = some (.store number) →
      (world.store number).store.Sound)
    (succeed : ∀ table stage source,
      (builder.build callbacks group world).1 ≠ .error (.callback table stage source))
    (resolve : ∀ table field source,
      (builder.build callbacks group world).1 ≠ .error (.validator table field source)) :
    ∃ tables, (builder.build callbacks group world).1 = .ok tables := by
  cases result : (builder.build callbacks group world).1 with
  | ok tables => exact ⟨tables, rfl⟩
  | error refusal =>
    rcases rebuild_refused spares stored rebuildable sound result with
      ⟨table, stage, source, rfl⟩ | ⟨table, field, source, rfl⟩
    · exact absurd result (succeed table stage source)
    · exact absurd result (resolve table field source)

section Twice

variable {before built after : World κ ε} {tables again : OrderedMap String Handle}

/-- Two builds of a group that succeed, the second some time after the first, give tables of the
same names, and both handles of a name say the same of their table. -/
private theorem rebuild_sameTables (spares : group.Spares callbacks)
    (stored : builder.KeepsInStores) (bare : (world.database builder.database).Bare)
    (first : builder.build callbacks group world = (.ok tables, built))
    (meanwhile : built.Later builder.database before)
    (second : builder.build callbacks group before = (.ok again, after)) :
    again.keys = tables.keys ∧ ∀ name handle, tables.get? name = some handle →
      ∃ handle', again.get? name = some handle' ∧ handle'.info after = handle.info built := by
  obtain ⟨keys, upto, laid⟩ := built_of_ok spares stored bare first
  have bare' := (upto.trans meanwhile).database.bare bare
  obtain ⟨keys', onwards, laid'⟩ := built_of_ok spares stored bare' second
  refine ⟨keys'.trans keys.symm, fun name handle found => ?_⟩
  have listed : name ∈ group.tables.keys := keys ▸ tables.mem_keys_iff.2 ⟨handle, found⟩
  obtain ⟨table, declared, rfl⟩ := List.mem_map.1 listed
  obtain ⟨_, found', compiled⟩ := laid table declared
  rw [found] at found'
  cases found'
  obtain ⟨handle', found'', compiled'⟩ := laid' table declared
  exact ⟨handle', found'', compiled.info_eq (meanwhile.trans onwards) compiled'⟩

/-- Two builds of a group that succeed, with the stores as the first one left them for the second,
leave the same indexes. -/
private theorem rebuild_sameIndexes (spares : group.Spares callbacks)
    (stored : builder.KeepsInStores)
    (first : builder.build callbacks group world = (.ok tables, built))
    (between : before.store = built.store)
    (second : builder.build callbacks group before = (.ok again, after))
    {number : Nat} (supplied : builder.migrator = some (.store number))
    (sound : (world.store number).store.Sound) (physicalName : String) :
    SameIndexes ((before.store number).store.indexes physicalName)
      ((after.store number).store.indexes physicalName) := by
  have once := migrated_of_ok (spares.leavesStore number) stored first
  have twice := migrated_of_ok (spares.leavesStore number) stored second
  rw [twice.own supplied, between, once.own supplied]
  exact StoreMigrator.migrateAll_again _ sound (once.faultless supplied) physicalName

end Twice

end Builder

/-- Building a group again changes nothing. Let a build succeed, in a database that has been worked on
by calls only, with callbacks that touch neither tables nor stored indexes, and with a migrator, if
any, that keeps indexes in a store. Then do any operations on rows, whose hooks may do such
operations as well. If then no callback fails and all validators can be made again, another build of
the group succeeds. It gives tables of the same names in the same order, and each says the same of
itself as before. No row and no counter of any database changed, no table was added, and no field
source was asked for. Under every physical name the store has the same indexes as before, and no
other store changed. -/
theorem rebuild_idempotent (callbacks : Callbacks κ ε) (builder : Builder κ) (group : Group κ)
    (spares : group.Spares callbacks) (operations : List RowOperation) {world built : World κ ε}
    {tables : OrderedMap String Handle}
    (worked : ∃ calls, world.database builder.database = .afterCalls builder.database calls)
    (stored : ∀ migrator, builder.migrator = some migrator → ∃ number calls,
      migrator = .store number ∧ (world.store number).store = .afterCalls calls)
    (first : builder.build callbacks group world = (.ok tables, built))
    (hooks : built.HooksWorkOnRows callbacks) :
    let before := RowOperation.runAll callbacks built operations
    let outcome := (builder.build callbacks group before).1
    let after := (builder.build callbacks group before).2
    (∀ table stage source, outcome ≠ .error (.callback table stage source)) →
    (∀ table field source, outcome ≠ .error (.validator table field source)) →
    (∃ again, outcome = .ok again ∧ again.keys = tables.keys ∧
      ∀ name handle, tables.get? name = some handle →
        ∃ handle', again.get? name = some handle' ∧ handle'.info after = handle.info built) ∧
    before.SameContents after ∧
    ∀ number,
      (builder.migrator = some (.store number) → ∀ physicalName,
        SameIndexes ((before.store number).store.indexes physicalName)
          ((after.store number).store.indexes physicalName)) ∧
      (builder.migrator ≠ some (.store number) → after.store number = before.store number) := by
  intro before outcome after succeed resolve
  have own : builder.KeepsInStores := by
    intro migrator supplied
    obtain ⟨number, _, same, -⟩ := stored migrator supplied
    exact ⟨number, same⟩
  have sound (number) (supplied : builder.migrator = some (.store number)) :
      (world.store number).store.Sound := by
    obtain ⟨_, calls, same, run⟩ := stored _ supplied
    cases same
    rw [run]
    exact IndexStore.sound_afterCalls calls
  have bare : (world.database builder.database).Bare := by
    obtain ⟨calls, run⟩ := worked
    rw [run]
    exact (Database.Sound.afterCalls builder.database calls).bare
  have rows := RowOperation.runAll_rowsOnly hooks operations
  obtain ⟨-, upto, laid⟩ := Builder.built_of_ok spares own bare first
  have meanwhile := rows.later builder.database
  have rebuildable : builder.Rebuildable group before := by
    intro table listed
    obtain ⟨handle, -, compiled⟩ := laid table listed
    exact ⟨_, compiled.recompilable.later meanwhile⟩
  obtain ⟨again, went⟩ := Builder.rebuild_ok spares own rebuildable
    (fun number supplied => (upto.trans meanwhile).sound number (sound number supplied))
    succeed resolve
  have second : builder.build callbacks group before = (.ok again, after) := Prod.ext went rfl
  obtain ⟨keys, info⟩ := Builder.rebuild_sameTables spares own bare first meanwhile second
  exact ⟨⟨again, went, keys, info⟩, Builder.rebuild_sameContents spares own rebuildable second,
    fun number => ⟨fun supplied => Builder.rebuild_sameIndexes spares own first rows.store second
      supplied (sound number supplied),
      (Builder.migrated_of_ok (spares.leavesStore number) own second).others⟩⟩

namespace Restock

open Ledger (idle)

def dated : Description String := ⟨4, "dated", .ofList [("since", .field (.ofType "int"))], []⟩

/-- A table with a mixin, an index, a hook and a method. -/
def stock : Description String :=
  ⟨3, "stock", .ofList [("label", .field (.ofType "string")),
    ("by_label", .index (.on [.field "label"])), ("before_insert", .hook ⟨0, .call "stamp"⟩),
    ("total", .tableMethod "sum")], [dated]⟩

def builder : Builder String :=
  { database := "main", migrate := .all true, migrator := some (.store 0), cache := 0 }

def shop : Group String :=
  { name := "shop", tables := .ofList [("stock", stock), ("orders", Market.orders)],
    onAction := some "audit", onDefineModel := some "announce" }

def built : World String Unit := (builder.build idle shop Market.world).2

/-- A row is inserted in between. -/
def deliveries : List RowOperation :=
  (((built.database "main").tables.get? "stock").map fun handle =>
    .insert handle (.ofList [("label", .string "tea")])).toList

def before : World String Unit := RowOperation.runAll idle built deliveries

private theorem idle_spares : shop.Spares idle :=
  ⟨fun _ _ _ _ _ _ => ⟨rfl, fun _ => .refl _, rfl⟩, fun _ _ _ _ _ => ⟨rfl, fun _ => .refl _, rfl⟩,
    fun _ _ _ _ _ => ⟨rfl, fun _ => .refl _, rfl⟩⟩

private theorem idle_worksOnRows : built.HooksWorkOnRows idle := by
  intro handle phase hook _ args now _
  rw [Hook.call]
  cases hook.action with
  | call callback => exact .refl now
  | observe callback => exact .refl now
  | bound callback table phase =>
    dsimp only
    rw [bind_run, get_run]
    dsimp only
    split
    · exact ⟨fun name => ⟨(now.database name).storages, rfl⟩, fun _ => .refl _, rfl⟩
    · exact .refl now

/-- With a row in between, the second build gives the two tables again, keeps the row, and has the
one index. -/
theorem rebuild_idempotent_restocked :
    ∃ tables again, (builder.build idle shop Market.world).1 = .ok tables ∧
      (builder.build idle shop before).1 = .ok again ∧ again.keys = tables.keys ∧
      ((before.database "main").storage "stock").rows.size = 1 ∧
      before.SameContents (builder.build idle shop before).2 ∧
      (before.store 0).store.indexNames "stock" = ["by_label"] ∧
      SameIndexes ((before.store 0).store.indexes "stock")
        (((builder.build idle shop before).2.store 0).store.indexes "stock") := by
  obtain ⟨tables, first⟩ := refusalOf_eq_none_iff.1
    (by decide +kernel : refusalOf (builder.build idle shop Market.world).1 = none)
  obtain ⟨other, second⟩ := refusalOf_eq_none_iff.1
    (by decide +kernel : refusalOf (builder.build idle shop before).1 = none)
  have stored (migrator) (supplied : builder.migrator = some migrator) : ∃ number calls,
      migrator = .store number ∧ (Market.world.store number).store = .afterCalls calls := by
    cases supplied
    exact ⟨0, [], rfl, rfl⟩
  have ran : builder.build idle shop Market.world = (.ok tables, built) := by
    rw [built, ← first, Prod.eta]
  have succeed (table stage source) :
      (builder.build idle shop before).1 ≠ .error (.callback table stage source) := by
    rw [second]
    nofun
  have resolve (table field source) :
      (builder.build idle shop before).1 ≠ .error (.validator table field source) := by
    rw [second]
    nofun
  obtain ⟨⟨again, went, keys, -⟩, contents, indexes⟩ :=
    rebuild_idempotent idle builder shop idle_spares deliveries ⟨[], rfl⟩ stored ran
      idle_worksOnRows succeed resolve
  exact ⟨tables, again, first, went, keys, by decide +kernel, contents, by decide +kernel,
    (indexes 0).1 rfl "stock"⟩

end Restock
end SchemaCompiler
