import SchemaCompiler.Proofs.GroupBuilds
import SchemaCompiler.Proofs.SparingCompilations

/-! Stored indexes after a build. Tables are known by their logical names, but their indexes are
filed under physical ones. As long as these are made of the logical names (`Group.StoredByName`),
tables of a group are stored apart, so the migration of one leaves alone what the others have
(`migrateAll_apart`). Whatever callbacks do to tables, a build comes to the migrations of the
selected tables in a row, if only they leave the store as it is (`migrated_of_ok`). In the end each
of these tables has the indexes that it declares, and nothing else changed
(`group_indexes_exact`). -/
namespace SchemaCompiler

open Effect

variable {κ ε : Type}

/-! ## Migrations of tables that are stored apart -/

namespace StoreMigrator

/-- Migrations of tables that are stored under names of their own leave each other alone: every
table has what its own migration leaves, and tables without one have what they had. -/
theorem migrateAll_apart (keepUnknown : Bool) {migrations : List (String × Plan)}
    (faultless : ∀ migration ∈ migrations, migration.2.Faultless)
    (apart : (migrations.map Prod.fst).Nodup) {store : IndexStore} (sound : store.Sound) :
    let after := (migrateAll ⟨store, keepUnknown⟩ migrations).store
    (∀ migration ∈ migrations, after.indexes migration.1 =
      IndexDiff.reconciled keepUnknown migration.1 (store.indexes migration.1) migration.2) ∧
    ∀ table, table ∉ migrations.map Prod.fst → after.indexes table = store.indexes table := by
  induction migrations generalizing store with
  | nil => exact ⟨List.forall_mem_nil _, fun _ _ => rfl⟩
  | cons migration rest ih =>
    rw [List.forall_mem_cons] at faultless
    obtain ⟨fresh, apart⟩ := List.nodup_cons.1 apart
    obtain ⟨middle, ran, own, elsewhere⟩ :=
      migrate_records keepUnknown migration.1 sound faultless.1
    have sound' : middle.Sound := by
      have kept := sound.migrate keepUnknown migration.1 migration.2
      rwa [ran] at kept
    obtain ⟨others, untouched⟩ := ih faultless.2 apart sound'
    intro after
    have later : after = (migrateAll ⟨middle, keepUnknown⟩ rest).store := by
      dsimp only [after]
      rw [migrateAll, ran]
    refine ⟨List.forall_mem_cons.2 ⟨?_, fun other listed => ?_⟩, fun table absent => ?_⟩
    · rw [later, untouched migration.1 fresh, own]
    · have different : other.1 ≠ migration.1 := fun clash =>
        fresh (clash ▸ List.mem_map_of_mem listed)
      rw [later, others other listed, elsewhere other.1 different]
    · rw [List.map_cons, List.mem_cons, not_or] at absent
      rw [later, untouched table absent.2, elsewhere table absent.1]

end StoreMigrator

/-! ## Declared indexes -/

/-- The records of a table are those of the indexes that its description declares itself: one for
each, with its columns and equal options, and no others. -/
structure Description.IndexedBy (description : Description κ) (table : String)
    (records : List StoredIndex) : Prop where
  names : (records.map StoredIndex.name).Perm (description.ownIndexes.map Prod.fst)
  alike : ∀ own ∈ description.ownIndexes, ∀ record ∈ records, record.name = own.1 →
    record.table = table ∧ record.columns = own.2.columnNames ∧
      record.options.same own.2.options = true

/-- A table that keeps no unknown records is left with the declared ones. -/
private theorem Description.indexedBy_of_reconciled {description : Description κ} {table : String}
    {before after : IndexStore} (faultless : description.indexPlan.Faultless)
    (sound : before.Sound) (sound' : after.Sound)
    (left : after.indexes table =
      IndexDiff.reconciled false table (before.indexes table) description.indexPlan) :
    description.IndexedBy table (after.indexes table) := by
  have planned : description.indexPlan.map PlanEntry.name = description.ownIndexes.map Prod.fst := by
    rw [indexPlan, List.map_map]
    rfl
  have distinct := sound.distinct table
  have distinct' := sound'.distinct table
  have recorded (entry) (listed : entry ∈ description.indexPlan) :
      ∃ index ∈ after.indexes table, index.name = entry.name ∧ index.fulfils entry = true := by
    rw [left]
    exact IndexDiff.entry_recorded distinct faultless.distinct listed
  constructor
  case names =>
    rw [← planned]
    refine (List.perm_ext_iff_of_nodup distinct' faultless.distinct).2 fun name => ⟨?_, ?_⟩
    · intro known
      obtain ⟨index, staying, rfl⟩ := List.mem_map.1 known
      exact IndexDiff.unknown_goes (left ▸ staying)
    · intro asked
      obtain ⟨entry, listed, rfl⟩ := List.mem_map.1 asked
      obtain ⟨index, member, named, -⟩ := recorded entry listed
      exact List.mem_map.2 ⟨index, member, named⟩
  case alike =>
    intro own declared record member named
    obtain ⟨index, member', named', fulfils⟩ := recorded ⟨own.1, own.2.columnNames, own.2.options⟩
      (List.mem_map.2 ⟨own, declared, rfl⟩)
    cases List.inj_on_of_nodup_map distinct' member' member (named'.trans named.symm)
    obtain ⟨columns, options⟩ : record.columns = own.2.columnNames ∧
        record.options.same own.2.options = true := by
      simpa [StoredIndex.fulfils] using fulfils
    exact ⟨sound'.filed table record member, columns, options⟩

/-! ## Stored names -/

/-- Tables of a group are stored under names that are made of their logical ones: there is a prefix,
or no table declares the name it is to be stored under. -/
def Group.StoredByName (group : Group κ) : Prop :=
  group.config.tablePrefix.getD "" ≠ "" ∨
    ∀ table ∈ group.tables.entries, table.2.option? storedNameOption = none

/-- What is stored under a prefix and a name of its own is stored apart. -/
private theorem nodup_stored {α : Type} {items : List α} {name stored : α → String} (start : String)
    (named : ∀ item ∈ items, stored item = start ++ name item) (distinct : (items.map name).Nodup) :
    (items.map stored).Nodup := by
  have prefixed : items.map stored = (items.map name).map (start ++ ·) := by
    rw [List.map_map]
    exact List.map_congr_left named
  rw [prefixed]
  exact distinct.map fun _ _ same => (String.append_right_inj start).1 same

namespace Builder

variable {callbacks : Callbacks κ ε} {builder : Builder κ} {group : Group κ}
  {world finished : World κ ε} {taken : List (Turn κ ε (String × Description κ))}

section Names

variable (apart : group.StoredByName)

include apart

variable (builder) in
private theorem storedName_eq {table : String × Description κ}
    (listed : table ∈ group.tables.entries) :
    (group.compileOptions builder table.1).storedName table.2 =
      group.config.tablePrefix.getD "" ++ table.1 := by
  have own : (group.compileOptions builder table.1).tableName table.2 = table.1 := rfl
  have shared : (group.compileOptions builder table.1).tablePrefix = group.config.tablePrefix := rfl
  rw [CompileOptions.storedName, own, shared]
  by_cases bare : group.config.tablePrefix.getD "" = ""
  · have undeclared := apart.resolve_left (not_not.2 bare) table listed
    rw [if_neg (not_not.2 bare), bare, String.empty_append, undeclared]
    rfl
  · rw [if_pos bare]

/-- A table of a turn is stored under the prefix and its logical name. -/
private theorem physicalName_of_mem
    (turns : TakenInTurn (builder.compileTable callbacks group) group.tables.entries world taken
      finished) {made : String × Handle} (given : made ∈ taken.flatMap Turn.tables) :
    made.2.definition.physicalName = group.config.tablePrefix.getD "" ++ made.1 := by
  obtain ⟨turn, listed, own⟩ := List.mem_flatMap.1 given
  obtain ⟨named, went⟩ := compiled_of_mem (turns.worked turn listed) own
  rw [stored_of_compiled went, storedName_eq builder apart (turns.mem listed), named]

end Names

/-- Tables of turns are in the order of the turns, at most one of each. -/
private theorem names_sublist (worked : ∀ turn ∈ taken,
    builder.compileTable callbacks group turn.item turn.found = (turn.result, turn.left)) :
    ((taken.flatMap Turn.tables).map Prod.fst).Sublist (taken.map fun turn => turn.item.1) := by
  induction taken with
  | nil => exact .refl _
  | cons turn rest ih =>
    rw [List.forall_mem_cons] at worked
    have own : (turn.tables.map Prod.fst).Sublist [turn.item.1] := by
      cases result : turn.result with
      | ok given =>
        obtain ⟨handle, tables, -⟩ := tables_of_worked worked.1 ⟨given, result⟩
        rw [tables]
        exact .refl _
      | error refusal =>
        rw [Turn.tables, result]
        exact List.nil_sublist _
    rw [List.flatMap_cons, List.map_append, List.map_cons, ← List.singleton_append]
    exact own.append (ih worked.2)

/-- Built tables are stored under names of their own, also if the build fails. -/
private theorem physicalNames_nodup (callbacks : Callbacks κ ε) (builder : Builder κ)
    (apart : group.StoredByName) (world : World κ ε) :
    (((builder.compilations callbacks group world).flatMap Turn.tables).map fun made =>
      made.2.definition.physicalName).Nodup := by
  obtain ⟨finished, goes⟩ := builder.build_goes callbacks group world
  have items := goes.turns.order.map Prod.fst
  rw [List.map_map] at items
  have distinct := ((names_sublist goes.turns.worked).trans items.sublist).nodup group.tables.distinct
  exact nodup_stored _ (fun made given => physicalName_of_mem apart goes.turns given) distinct

end Builder

/-! ## Migrations of a group -/

/-- Callbacks of a group that leave a store as it is. -/
structure Group.LeavesStore (callbacks : Callbacks κ ε) (group : Group κ) (number : Nat) : Prop where
  onDefine : ∀ table ∈ group.tables.entries, ∀ callback, table.2.onDefine? = some callback →
    ∀ handle world,
      World.store (callbacks.tableMethod callback handle [] world).2 number = world.store number
  onDefineTable : ∀ callback, group.onDefineTable = some callback → ∀ description handle world,
    World.store (callbacks.onDefineTable callback description handle world).2 number =
      world.store number
  onDefineModel : ∀ callback, group.onDefineModel = some callback → ∀ database extras world,
    World.store (callbacks.onDefineModel callback database extras world).2 number =
      world.store number

namespace Builder

variable {callbacks : Callbacks κ ε} {builder : Builder κ} {group : Group κ} {number : Nat}
  {world finished : World κ ε} {taken : List (Turn κ ε (String × Description κ))}

variable (builder group) in
/-- The builder's migrator is appointed for the tables that are selected. -/
theorem appointed_eq (logicalName : String) :
    (group.compileOptions builder logicalName).appointed =
      if builder.migrate.appliesTo logicalName then builder.migrator else none := rfl

/-- Whoever migrates for the builder, if anybody does, keeps indexes in a store. -/
def KeepsInStores (builder : Builder κ) : Prop :=
  ∀ migrator, builder.migrator = some migrator → ∃ number, migrator = .store number

/-- Steps of a table attach something, or they are its callback, that of its group or its
migration. -/
theorem forall_steps {P : FinishingStep κ → Prop} {table : String × Description κ}
    (attaching : ∀ step : FinishingStep κ, step.isCall = false → P step)
    (onDefine : ∀ callback, table.2.onDefine? = some callback → P (.onDefine callback))
    (onDefineTable : ∀ callback, group.onDefineTable = some callback → P (.onDefineTable callback))
    (migrate : ∀ migrator, builder.migrator = some migrator →
      P (.migrate migrator table.2.indexPlan)) :
    ∀ step ∈ (group.compileOptions builder table.1).attachments table.2 ++
      (group.compileOptions builder table.1).calls table.2, P step := by
  intro step asked
  rcases List.mem_append.1 asked with attached | calling
  · exact attaching step (CompileOptions.isCall_of_mem_attachments attached)
  · simp only [CompileOptions.calls, List.mem_append, List.mem_map, Option.mem_toList] at calling
    rcases calling with (⟨callback, declared, rfl⟩ | ⟨callback, declared, rfl⟩) | calling
    · exact onDefine callback declared
    · exact onDefineTable callback declared
    · split at calling
      · obtain ⟨migrator, supplied, rfl⟩ := List.mem_map.1 calling
        exact migrate migrator (Option.mem_toList.1 supplied)
      · cases calling

private theorem steps_leaveStore (leaves : group.LeavesStore callbacks number)
    (stored : builder.KeepsInStores) {table : String × Description κ}
    (listed : table ∈ group.tables.entries) :
    ∀ step ∈ (group.compileOptions builder table.1).attachments table.2 ++
      (group.compileOptions builder table.1).calls table.2, step.LeavesStore callbacks number := by
  refine forall_steps (fun step attaches => ?_) (leaves.onDefine table listed) leaves.onDefineTable
    stored
  cases step <;> trivial

variable (builder) in
/-- Concluding a build leaves the store as it is if the callback of the group does. -/
private theorem conclude_store (leaves : group.LeavesStore callbacks number)
    (tables : OrderedMap String Handle) (finished : World κ ε) :
    (builder.conclude callbacks group tables finished).2.store number = finished.store number := by
  rw [conclude]
  cases declared : group.onDefineModel with
  | none => rfl
  | some callback => exact leaves.onDefineModel callback declared builder.database group.extras _

/-- The migrations that a builder has tables go through, in table order. -/
def migrations (builder : Builder κ) (group : Group κ) (tables : List (String × Description κ)) :
    List (String × Plan) :=
  (tables.filter fun table => builder.migrate.appliesTo table.1).map fun table =>
    ((group.compileOptions builder table.1).storedName table.2, table.2.indexPlan)

/-- What became of a store: the migrations of tables have been carried out with that of the migrator,
and any other one is left alone. -/
structure Migrated (builder : Builder κ) (group : Group κ) (number : Nat)
    (tables : List (String × Description κ)) (before after : World κ ε) : Prop where
  own : builder.migrator = some (.store number) →
    after.store number = (before.store number).migrateAll (builder.migrations group tables)
  faultless : builder.migrator = some (.store number) →
    ∀ migration ∈ builder.migrations group tables, migration.2.Faultless
  others : builder.migrator ≠ some (.store number) → after.store number = before.store number

namespace Migrated

variable {before middle after : World κ ε} {first second : List (String × Description κ)}

theorem of_same (same : after.store number = before.store number) :
    builder.Migrated group number [] before after where
  own _ := same
  faultless _ := List.forall_mem_nil _
  others _ := same

theorem append (earlier : builder.Migrated group number first before middle)
    (later : builder.Migrated group number second middle after) :
    builder.Migrated group number (first ++ second) before after := by
  have parts : builder.migrations group (first ++ second) =
      builder.migrations group first ++ builder.migrations group second := by
    rw [migrations, List.filter_append, List.map_append]
    rfl
  refine ⟨fun supplied => ?_, fun supplied => ?_, fun other => ?_⟩
  · rw [parts, StoreMigrator.migrateAll_append, ← earlier.own supplied]
    exact later.own supplied
  · rw [parts, List.forall_mem_append]
    exact ⟨earlier.faultless supplied, later.faultless supplied⟩
  · rw [later.others other, earlier.others other]

/-- A compilation carries out the migration of its table if the builder has it do so. -/
private theorem of_compiled {table : String × Description κ} {handle : Handle}
    (leave : ∀ step ∈ (group.compileOptions builder table.1).attachments table.2 ++
      (group.compileOptions builder table.1).calls table.2, step.LeavesStore callbacks number)
    (went : compile callbacks builder.database builder.cache (group.compileOptions builder table.1)
      table.2 before = (.ok handle, after)) :
    builder.Migrated group number [table] before after := by
  obtain ⟨migrated, unmigrated⟩ := compile_migrates leave went
  rw [appointed_eq] at migrated unmigrated
  by_cases selected : builder.migrate.appliesTo table.1 = true
  · rw [if_pos selected] at migrated unmigrated
    have only : builder.migrations group [table] =
        [((group.compileOptions builder table.1).storedName table.2, table.2.indexPlan)] := by
      rw [migrations, List.filter_cons, if_pos selected]
      rfl
    refine ⟨fun supplied => ?_, fun supplied => ?_, unmigrated⟩
    · rw [only, StoreMigrator.migrateAll, migrated supplied]
      rfl
    · rw [only, List.forall_mem_singleton]
      exact StoreMigrator.faultless_of_migrated (migrated supplied)
  · rw [if_neg selected] at unmigrated
    have nothing : builder.migrations group [table] = [] := by
      rw [migrations, List.filter_cons, if_neg selected]
      rfl
    have alone : after.store number = before.store number := by
      refine unmigrated fun same => ?_
      cases same
    refine ⟨fun _ => ?_, fun _ => ?_, fun _ => alone⟩
    · rw [nothing]
      exact alone
    · rw [nothing]
      exact List.forall_mem_nil _

/-- Turns that succeed carry out the migrations of all their tables. -/
private theorem of_passed
    (each : ∀ turn ∈ taken, builder.Migrated group number [turn.item] turn.found turn.left)
    (passed : Passed world taken finished) :
    builder.Migrated group number (taken.map Turn.item) world finished := by
  induction passed with
  | nil world => exact .of_same rfl
  | @cons world finished turn rest handles found later ih =>
    rw [List.forall_mem_cons] at each
    have begun : builder.Migrated group number [] world turn.found := by
      rw [found]
      exact .of_same rfl
    have handed : builder.Migrated group number [] turn.left (turn.left.release world) :=
      .of_same rfl
    exact begun.append (each.1.append (handed.append (ih each.2)))

end Migrated

/-- A build that succeeds has carried out the migrations of all its tables. -/
theorem migrated_of_ok (leaves : group.LeavesStore callbacks number)
    (stored : builder.KeepsInStores) {tables : OrderedMap String Handle} {built : World κ ε}
    (went : builder.build callbacks group world = (.ok tables, built)) :
    builder.Migrated group number group.tables.entries world built := by
  obtain ⟨finished, turns, all, -, -, concluded⟩ := build_concluded went
  have each (turn) (listed : turn ∈ builder.compilations callbacks group world) :
      builder.Migrated group number [turn.item] turn.found turn.left := by
    have worked := turns.worked turn listed
    obtain ⟨handle, -, went⟩ := tables_of_worked worked (all turn listed)
    exact .of_compiled (steps_leaveStore leaves stored (turns.mem listed))
      (Prod.ext went (compiled worked).2.symm)
  have migrated := Migrated.of_passed each turns.passed
  rw [turns.complete all] at migrated
  have last : built.store number = finished.store number := by
    have kept := conclude_store builder leaves tables finished
    rwa [concluded] at kept
  have whole := migrated.append (.of_same last)
  rwa [List.append_nil] at whole

/-- Tables that are stored apart are migrated apart. -/
private theorem migrations_apart (builder : Builder κ) (apart : group.StoredByName) :
    ((builder.migrations group group.tables.entries).map Prod.fst).Nodup := by
  have selected : ((group.tables.entries.filter fun table =>
      builder.migrate.appliesTo table.1).map Prod.fst).Nodup :=
    (List.filter_sublist.map Prod.fst).nodup group.tables.distinct
  rw [migrations, List.map_map]
  exact nodup_stored _ (fun table listed => storedName_eq builder apart (List.mem_filter.1 listed).1)
    selected

end Builder

/-- Tables of a group with a prefix, or without declared physical names, are stored under names of
their own, whatever comes of the build. Let a migrator that keeps no unknown indexes be supplied, with
a store in any state that calls lead to, and let callbacks leave that store as it is. If the build
succeeds, each table that is selected for migration has in the store exactly the indexes that it
declares itself, with their columns and equal options. Under every physical name that is not one of
a selected table the records are what they were. -/
theorem group_indexes_exact (callbacks : Callbacks κ ε) (builder : Builder κ) (group : Group κ)
    (apart : group.StoredByName) {number : Nat} (calls : List StoreCall) {world : World κ ε}
    (supplied : builder.migrator = some (.store number))
    (reached : world.store number = ⟨.afterCalls calls, false⟩) :
    let made := (builder.compilations callbacks group world).flatMap Turn.tables
    (made.map fun table => table.2.definition.physicalName).Nodup ∧
    ∀ tables built, builder.build callbacks group world = (.ok tables, built) →
      group.LeavesStore callbacks number →
      let before := (world.store number).store
      let after := (built.store number).store
      tables.entries = made ∧
      (∀ table ∈ group.tables.entries, builder.migrate.appliesTo table.1 = true →
        ∃ handle, tables.get? table.1 = some handle ∧
          table.2.IndexedBy handle.definition.physicalName
            (after.indexes handle.definition.physicalName)) ∧
      ∀ physicalName, (∀ table ∈ group.tables.entries, builder.migrate.appliesTo table.1 = true →
          ∀ handle, tables.get? table.1 = some handle →
            handle.definition.physicalName ≠ physicalName) →
        after.indexes physicalName = before.indexes physicalName := by
  intro made
  refine ⟨Builder.physicalNames_nodup callbacks builder apart world, ?_⟩
  intro tables built went leaves before after
  obtain ⟨finished, turns, -, entries, keys, -⟩ := Builder.build_concluded went
  -- Every table of the group is given, and stored where its migration is carried out.
  have given (table) (listed : table ∈ group.tables.entries) : ∃ handle,
      tables.get? table.1 = some handle ∧ handle.definition.physicalName =
        (group.compileOptions builder table.1).storedName table.2 := by
    have known : table.1 ∈ tables.keys := keys ▸ List.mem_map_of_mem listed
    obtain ⟨entry, found, named⟩ := List.mem_map.1 known
    refine ⟨entry.2, ?_, ?_⟩
    · rw [OrderedMap.get?_eq_some_iff, ← named]
      exact found
    · rw [Builder.physicalName_of_mem apart turns (entries ▸ found), named,
        Builder.storedName_eq builder apart listed]
  have stored : builder.KeepsInStores := by
    intro migrator same
    cases supplied.symm.trans same
    exact ⟨number, rfl⟩
  have migrated := Builder.migrated_of_ok leaves stored went
  have faultless := migrated.faultless supplied
  have sound := IndexStore.sound_afterCalls calls
  obtain ⟨left, sound', kept⟩ := StoreMigrator.migrateAll_keeps false faultless sound
  obtain ⟨own, elsewhere⟩ := StoreMigrator.migrateAll_apart false faultless
    (Builder.migrations_apart builder apart) sound
  rw [kept] at own elsewhere
  have start : before = .afterCalls calls := congrArg StoreMigrator.store reached
  have ended : after = left := by
    have ran := migrated.own supplied
    rw [reached, kept] at ran
    exact congrArg StoreMigrator.store ran
  rw [start, ended]
  refine ⟨entries, fun table listed selected => ?_, fun physicalName other => ?_⟩
  · obtain ⟨handle, found, named⟩ := given table listed
    have migration : ((group.compileOptions builder table.1).storedName table.2,
        table.2.indexPlan) ∈ builder.migrations group group.tables.entries :=
      List.mem_map.2 ⟨table, List.mem_filter.2 ⟨listed, selected⟩, rfl⟩
    rw [← named] at migration
    exact ⟨handle, found, Description.indexedBy_of_reconciled (faultless _ migration) sound sound'
      (own _ migration)⟩
  · refine elsewhere physicalName fun migrating => ?_
    obtain ⟨migration, asked, same⟩ := List.mem_map.1 migrating
    obtain ⟨table, chosen, rfl⟩ := List.mem_map.1 asked
    obtain ⟨listed, selected⟩ := List.mem_filter.1 chosen
    obtain ⟨handle, found, named⟩ := given table listed
    exact other table listed selected handle found (named.trans same)

namespace Depot

open Ledger (idle)

/-- A table with an index, and with a physical name that the prefix of the group overrules. -/
def stock : Description String :=
  ⟨5, "stock", .ofList [("label", .field (.ofType "string")),
    ("by_label", .index (.on [.field "label"])), (storedNameOption, .option (.string "orders"))], []⟩

def depot : Group String :=
  { name := "depot", tables := .ofList [("stock", stock), ("orders", Market.orders)],
    config := { rawPrefix := some "depot_" }, onDefineModel := some "announce" }

def builder : Builder String :=
  { database := "main", migrate := .tables ["stock"], migrator := some (.store 0), cache := 0 }

/-- One table has an index that it no longer declares, and another one is not selected. -/
def earlier : List StoreCall :=
  [.create ⟨"by_age", "depot_stock", ["age"], .empty⟩,
    .create ⟨"by_item", "depot_orders", ["item"], .empty⟩]

def world : World String Unit :=
  { stores := .ofList [(0, ⟨.afterCalls earlier, false⟩)], application := () }

private theorem idle_leavesStore : depot.LeavesStore idle 0 :=
  ⟨fun _ _ _ _ _ _ => rfl, fun _ _ _ _ _ => rfl, fun _ _ _ _ _ => rfl⟩

/-- The selected table has its own index in place of the former one, and the other one keeps what it
had. -/
theorem group_indexes_exact_depot :
    ∃ tables handle, (builder.build idle depot world).1 = .ok tables ∧
      tables.get? "stock" = some handle ∧ handle.definition.physicalName = "depot_stock" ∧
      let after := ((builder.build idle depot world).2.store 0).store
      stock.IndexedBy "depot_stock" (after.indexes "depot_stock") ∧
      after.indexNames "depot_orders" = ["by_item"] := by
  obtain ⟨tables, went⟩ := refusalOf_eq_none_iff.1
    (by decide +kernel : refusalOf (builder.build idle depot world).1 = none)
  have ran : builder.build idle depot world = (.ok tables, (builder.build idle depot world).2) := by
    rw [← went, Prod.eta]
  have prefixed : depot.config.tablePrefix.getD "" ≠ "" := by decide +kernel
  obtain ⟨-, built⟩ := group_indexes_exact idle builder depot (Or.inl prefixed) earlier rfl
    (rfl : world.store 0 = ⟨.afterCalls earlier, false⟩)
  obtain ⟨entries, indexed, elsewhere⟩ := built tables _ ran idle_leavesStore
  have names (name handle) (found : tables.get? name = some handle) :
      (name, handle.definition.physicalName) ∈
        [("stock", "depot_stock"), ("orders", "depot_orders")] := by
    have all : ((builder.compilations idle depot world).flatMap Turn.tables).map (fun made =>
        (made.1, made.2.definition.physicalName)) =
          [("stock", "depot_stock"), ("orders", "depot_orders")] := by decide +kernel
    rw [← all, ← entries]
    exact List.mem_map_of_mem ((OrderedMap.get?_eq_some_iff ..).1 found)
  have selected : builder.migrate.appliesTo "stock" = true := by decide +kernel
  have unselected : builder.migrate.appliesTo "orders" = false := by decide +kernel
  obtain ⟨handle, found, declared⟩ := indexed ("stock", stock) List.mem_cons_self selected
  have own : handle.definition.physicalName = "depot_stock" := by
    simpa using names "stock" handle found
  have kept := elsewhere "depot_orders" fun table _ chosen handle' found' same => by
    have named := names table.1 handle' found'
    simp only [same, List.mem_cons, Prod.mk.injEq, String.reduceEq, and_false, and_true, false_or,
      List.not_mem_nil, or_false] at named
    rw [named, unselected] at chosen
    cases chosen
  refine ⟨tables, handle, went, found, own, own ▸ declared, ?_⟩
  rw [IndexStore.indexNames, kept]
  decide +kernel

end Depot
end SchemaCompiler
