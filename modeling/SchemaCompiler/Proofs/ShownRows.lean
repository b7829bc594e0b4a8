import SchemaCompiler.Proofs.OrderedMaps
import SchemaCompiler.Proofs.RowIds
import SchemaCompiler.Proofs.StoredValues

/-! Rows as a handle shows them. To show a row is to file what the getters make of it after its
columns (`withVirtuals_eq`). Getters see the stored row, so each virtual field has its own value
whatever else is computed. What is filed could still take the place of stored values; that it does so
for the id alone holds of rows that were stored by operations. Every other column of theirs is a
stored field of each handle of the table (`Databases.Reachable.stored_column`), and a field is not
stored and virtual at once. `shown_rows_exact` has both, and what selections show. -/
namespace SchemaCompiler

namespace TableDefinition

variable {definition : TableDefinition} {stored shown : Row} {name column : String} {getter : Getter}
  {value : Json}

/-! ## Virtual fields -/

/-- The names of the virtual fields, in field order. -/
def virtualNames (definition : TableDefinition) : List String :=
  definition.fields.filterMap fun
    | .virtual name _ => some name
    | _ => none

/-- The virtual fields by name, each with what its getter makes of a stored row. -/
def virtualColumns (definition : TableDefinition) (stored : Row) : List (String × Json) :=
  definition.fields.filterMap fun
    | .virtual name getter => some (name, getter stored)
    | _ => none

private theorem mem_virtualNames :
    name ∈ definition.virtualNames ↔ ∃ getter, .virtual name getter ∈ definition.fields := by
  unfold virtualNames
  rw [List.mem_filterMap]
  constructor
  · rintro ⟨field, declared, same⟩
    cases field with
    | virtual other getter =>
      cases same
      exact ⟨getter, declared⟩
    | plain | method => cases same
  · rintro ⟨getter, declared⟩
    exact ⟨_, declared, rfl⟩

private theorem mem_virtualColumns (declared : .virtual name getter ∈ definition.fields) :
    (name, getter stored) ∈ definition.virtualColumns stored :=
  List.mem_filterMap.2 ⟨_, declared, rfl⟩

theorem map_fst_virtualColumns :
    (definition.virtualColumns stored).map Prod.fst = definition.virtualNames := by
  rw [virtualColumns, virtualNames, List.map_filterMap]
  refine List.filterMap_congr fun field _ => ?_
  cases field <;> rfl

private theorem virtualNames_sublist : definition.virtualNames.Sublist definition.fieldNames := by
  unfold virtualNames fieldNames
  generalize definition.fields = fields
  induction fields with
  | nil => exact .slnil
  | cons field rest ih =>
    cases field with
    | virtual name getter => exact ih.cons_cons name
    | plain | method => exact ih.cons _

theorem virtualColumns_nodup (distinct : definition.fieldNames.Nodup) :
    ((definition.virtualColumns stored).map Prod.fst).Nodup := by
  rw [map_fst_virtualColumns]
  exact virtualNames_sublist.nodup distinct

/-! ## Showing a row -/

theorem withVirtuals_eq (definition : TableDefinition) (stored : Row) :
    definition.withVirtuals stored = stored.insertAll (definition.virtualColumns stored) := by
  unfold withVirtuals virtualColumns OrderedMap.insertAll
  rw [List.foldl_filterMap]
  congr 1
  funext row field
  cases field <;> rfl

/-- A virtual field has the value that its getter makes of the stored row. -/
private theorem get?_withVirtuals_of_virtual (distinct : definition.fieldNames.Nodup)
    (declared : .virtual name getter ∈ definition.fields) :
    (definition.withVirtuals stored).get? name = some (getter stored) := by
  have computed : Entries.get? name (definition.virtualColumns stored) = some (getter stored) :=
    (Entries.get?_eq_some_iff (virtualColumns_nodup distinct)).2 (mem_virtualColumns declared)
  rw [withVirtuals_eq, OrderedMap.get?_insertAll _ (virtualColumns_nodup distinct), computed,
    Option.some_or]

/-- A column that is no virtual field has its stored value. -/
private theorem get?_withVirtuals_of_not_virtual (distinct : definition.fieldNames.Nodup)
    (other : column ∉ definition.virtualNames) :
    (definition.withVirtuals stored).get? column = stored.get? column := by
  have absent : Entries.get? column (definition.virtualColumns stored) = none :=
    Entries.get?_eq_none_iff.2 (map_fst_virtualColumns ▸ other)
  rw [withVirtuals_eq, OrderedMap.get?_insertAll _ (virtualColumns_nodup distinct), absent,
    Option.none_or]

/-- The stored columns keep their places; virtual fields that are none of them go last. -/
theorem keys_withVirtuals (distinct : definition.fieldNames.Nodup) :
    (definition.withVirtuals stored).keys =
      stored.keys ++ definition.virtualNames.filter (· ∉ stored.keys) := by
  rw [withVirtuals_eq, OrderedMap.keys_insertAll _ (virtualColumns_nodup distinct),
    map_fst_virtualColumns]

/-- What a definition shows of a stored row. -/
structure Shows (definition : TableDefinition) (stored shown : Row) : Prop where
  computed : ∀ name getter, .virtual name getter ∈ definition.fields →
    shown.get? name = some (getter stored)
  kept : ∀ column, column ∉ definition.virtualNames → shown.get? column = stored.get? column
  /-- A virtual field that is named `id` has the place of the stored id. -/
  columns : shown.keys = stored.keys ++ definition.virtualNames.filter (· ≠ idColumn)

/-- If a row shares no column with the virtual fields except `id`, only that one is covered. -/
private theorem shows_withVirtuals (distinct : definition.fieldNames.Nodup)
    (shared : ∀ name ∈ definition.virtualNames, name ∈ stored.keys ↔ name = idColumn) :
    definition.Shows stored (definition.withVirtuals stored) where
  computed _ _ declared := get?_withVirtuals_of_virtual distinct declared
  kept _ other := get?_withVirtuals_of_not_virtual distinct other
  columns := by
    rw [keys_withVirtuals distinct]
    congr 1
    refine List.filter_congr fun name listed => ?_
    simp [shared name listed]

/-- An entry of the stored row is shown unchanged in its place, unless it is the id and a virtual
field is named so. -/
theorem Shows.entry (shows : definition.Shows stored shown) {place : Nat}
    (there : stored.entries[place]? = some (column, value)) :
    shown.entries[place]? = some (column, value) ∨
      column = idColumn ∧ ∃ getter, .virtual idColumn getter ∈ definition.fields := by
  obtain ⟨placed, held⟩ := OrderedMap.getElem?_entries_iff.1 there
  by_cases virtual : column ∈ definition.virtualNames
  · -- The virtual fields behind the stored columns are none of these, as a row has no column twice.
    have id : column = idColumn := by
      by_contra other
      have distinct := shown.keys_nodup
      rw [shows.columns] at distinct
      have behind : column ∈ definition.virtualNames.filter (· ≠ idColumn) :=
        List.mem_filter.2 ⟨virtual, by simpa using other⟩
      exact (List.nodup_append.1 distinct).2.2 _ (List.mem_of_getElem? placed) _ behind rfl
    exact Or.inr ⟨id, mem_virtualNames.1 (id ▸ virtual)⟩
  · refine Or.inl (OrderedMap.getElem?_entries_iff.2 ⟨?_, (shows.kept column virtual).trans held⟩)
    rw [shows.columns, List.getElem?_append_left (List.getElem?_eq_some_iff.1 placed).1, placed]

end TableDefinition

/-! ## Rows that were stored by operations -/

section Reached

variable {κ : Type} {databases : Databases κ} {name column : String} {handle : Handle} {id : UInt64}
  {row : Row} {value : Json}

/-- A column of a stored row is the id or a stored field of every handle of the table. -/
theorem Databases.Reachable.stored_column (reachable : Reachable databases)
    (made : handle ∈ (databases name).opened)
    (found : ((databases name).storage handle.name).rows.get? id = some row)
    (held : row.get? column = some value) :
    column = idColumn ∨
      ∃ field, FieldDefinition.plain field ∈ handle.definition.fields ∧ field.name = column := by
  refine or_iff_not_imp_left.2 fun other => ?_
  obtain ⟨writer, written, sameTable, -, field, declared, -⟩ :=
    reachable.valuesAdmitted name handle.name id row column value found held other
  have layout := (reachable.sound name).agree written made sameTable
  obtain ⟨listed, named⟩ := TableDefinition.mem_of_field? declared
  obtain ⟨field', listed', same, -⟩ := layout.plain listed
  exact ⟨field', listed', same.trans named⟩

/-- The one column that a stored row shares with the virtual fields of a handle is the id, if any. -/
private theorem Databases.Reachable.virtual_shared_iff (reachable : Reachable databases)
    (made : handle ∈ (databases name).opened)
    (found : ((databases name).storage handle.name).rows.get? id = some row)
    (virtual : column ∈ handle.definition.virtualNames) :
    column ∈ row.keys ↔ column = idColumn := by
  constructor
  · intro listed
    obtain ⟨value, held⟩ := row.mem_keys_iff.1 listed
    refine (reachable.stored_column made found held).resolve_right ?_
    rintro ⟨field, declared, same⟩
    obtain ⟨getter, declared'⟩ := TableDefinition.mem_virtualNames.1 virtual
    have consistent := (reachable.sound name).consistent handle made
    have stored := TableDefinition.field?_of_mem consistent declared
    have computed := TableDefinition.field?_of_mem consistent declared'
    change handle.definition.field? field.name = _ at stored
    change handle.definition.field? column = _ at computed
    rw [same, computed] at stored
    cases stored
  · rintro rfl
    have agree : ((databases name).storage handle.name).IdsAgree :=
      reachable.storage_invariant (P := Storage.IdsAgree) (fun _ _ none => nomatch none)
        (fun _ _ step => step.idsAgree) name handle.name
    exact row.mem_keys_iff.2 ⟨_, agree id row found⟩

end Reached

namespace Handle

variable {κ ε : Type} {handle : Handle} {world : World κ ε} {id : UInt64}

theorem get?_eq_none_iff :
    handle.get? world id = none ↔ id ∉ (world.storage handle).rows.keys := by
  rw [get?, Option.map_eq_none_iff, OrderedMap.get?_eq_none_iff]

/-- A selection looks the stored ids up in their order and keeps what the filter accepts. -/
private theorem select_eq (accepts : Row → Bool) :
    handle.select world accepts =
      ((world.storage handle).rows.keys.filterMap (handle.get? world)).filter accepts := by
  have shown : handle.get? world = fun id =>
      ((world.storage handle).rows.get? id).map handle.definition.withVirtuals := rfl
  rw [select, ← OrderedMap.filterMap_keys, List.map_filterMap, shown]

end Handle

variable {κ ε α : Type}

/-- What every handle shows of its table's rows, in every state of every run of definitions,
insertions, updates and deletions, through any handles and with whatever hooks do meanwhile.

An id that keys no row shows nothing. A stored row is shown with each virtual field of the handle set
to its getter's value for the stored row, and all else as it is stored (`TableDefinition.Shows`): no
stored column changes its place, and none its value unless it is the id and a virtual field is named
so. Any definition that has a virtual field shows the same value in it, whatever other fields it has
and in whatever order. A selection is the list of what the stored ids show, in storage order, less
the rows that the filter does not accept. -/
theorem shown_rows_exact (conduct : Conduct κ ε) (depth : Nat) (routine : Routine κ ε α) (own : ε) :
    let after := (routine.run (conduct.callbacks depth) { application := { own } }).2
    ∀ world : World κ (Observed κ ε), world.database ∈ after.database :: after.application.seen →
    ∀ handle ∈ (world.database handle.database).opened,
      let rows := (world.storage handle).rows
      (∀ id, handle.get? world id = none ↔ id ∉ rows.keys) ∧
      (∀ id stored, rows.get? id = some stored → ∃ shown,
        handle.get? world id = some shown ∧ handle.definition.Shows stored shown ∧
        (∀ (place : Nat) column value, stored.entries[place]? = some (column, value) →
          shown.entries[place]? = some (column, value) ∨
            column = idColumn ∧ ∃ getter, .virtual idColumn getter ∈ handle.definition.fields) ∧
        ∀ name getter, .virtual name getter ∈ handle.definition.fields →
          ∀ other : TableDefinition, other.fieldNames.Nodup → .virtual name getter ∈ other.fields →
            (other.withVirtuals stored).get? name = shown.get? name) ∧
      ∀ accepts, handle.select world accepts =
        (rows.keys.filterMap (handle.get? world)).filter accepts := by
  intro after world passed handle made rows
  have reachable : Databases.Reachable world.database :=
    Routine.run_reaches conduct depth routine _ rfl world.database passed
  have distinct := ((reachable.sound handle.database).consistent handle made).distinct
  refine ⟨fun id => Handle.get?_eq_none_iff, fun id stored found => ?_, Handle.select_eq⟩
  have shows : handle.definition.Shows stored (handle.definition.withVirtuals stored) :=
    TableDefinition.shows_withVirtuals distinct fun column virtual =>
      reachable.virtual_shared_iff made found virtual
  refine ⟨_, congrArg (Option.map handle.definition.withVirtuals) found, shows, ?_, ?_⟩
  · intro place column value there
    exact shows.entry there
  · intro name getter declared other distinct' declared'
    rw [shows.computed name getter declared]
    exact TableDefinition.get?_withVirtuals_of_virtual distinct' declared'

namespace Captioned

open Idle

/-- A table whose rows show their caption for an id, and their id for a number. -/
def photos : TableDefinition where
  name := "photos"
  fields := [
    .plain { name := "caption" },
    .virtual "id" fun row => row.valueAt "caption",
    .virtual "number" fun row => row.valueAt idColumn]

def album : Handle := ⟨⟨"main", 0⟩, photos⟩

def addPhoto : Routine Unit Unit Unit :=
  .define "main" photos fun _ =>
    .insert album.id (.ofList [("caption", .string "sea")]) fun _ => .finish (.ok ())

def world : World Unit (Observed Unit Unit) :=
  (addPhoto.run callbacks start).2

theorem opened_world : (world.database "main").opened = [album] := rfl

private theorem stored_world : ∃ stored, (world.storage album).rows.get? 1 = some stored ∧
    stored.get? "caption" = some (.string "sea") ∧ stored.get? idColumn = some (.ofUInt64 1) := by
  refine ⟨.ofList [("caption", .string "sea"), (idColumn, .ofUInt64 1)], ?_, rfl, rfl⟩
  rfl

/-- The caption takes the place of the id, and yet the number is the stored id. -/
theorem shown_rows_exact_captioned :
    album ∈ (world.database "main").opened ∧
    ∃ stored shown, (world.storage album).rows.get? 1 = some stored ∧
      album.get? world 1 = some shown ∧ album.get? world 2 = none ∧
      shown.keys = stored.keys ++ ["number"] ∧
      shown.get? idColumn = some (.string "sea") ∧ shown.get? "number" = some (.ofUInt64 1) ∧
      album.select world (fun row => row.contains "number") = [shown] := by
  have made : album ∈ (world.database "main").opened := by
    rw [opened_world]
    exact List.mem_cons_self
  have keys : (world.storage album).rows.keys = [1] := by decide +kernel
  obtain ⟨stored, found, caption, number⟩ := stored_world
  obtain ⟨absent, present, selected⟩ := shown_rows_exact conduct 1 addPhoto () world
    List.mem_cons_self album made
  obtain ⟨shown, given, shows, -, -⟩ := present 1 stored found
  have ofId : shown.get? idColumn = some (.string "sea") := by
    rw [shows.computed idColumn _ (List.mem_cons_of_mem _ List.mem_cons_self), Row.valueAt, caption]
    rfl
  have ofNumber : shown.get? "number" = some (.ofUInt64 1) := by
    rw [shows.computed "number" (fun row => row.valueAt idColumn)
      (List.mem_cons_of_mem _ (List.mem_cons_of_mem _ List.mem_cons_self)), Row.valueAt, number]
    rfl
  refine ⟨made, stored, shown, found, given, (absent 2).2 ?_, shows.columns, ofId, ofNumber, ?_⟩
  · rw [keys]
    decide
  · rw [selected, keys, List.filterMap_cons_some given, List.filterMap_nil]
    simp [OrderedMap.contains, ofNumber]

end Captioned
end SchemaCompiler
