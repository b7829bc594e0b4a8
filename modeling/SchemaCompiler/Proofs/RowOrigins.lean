import SchemaCompiler.Proofs.DefinitionRuns
import SchemaCompiler.Proofs.RowWrites

/-! Where stored rows come from. A row that is stored after a step was stored before, or is the row
of an insertion, or had the values of an update merged in (`Database.RowOrigin`). In each case the
handle that wrote it had admitted what it wrote, and what that means for the single values is said
here: a value that an insertion or an update brings to a column other than `id` passed every
validator of a stored field of that name (`Admits`), and an insertion leaves no required field
without a value. -/
namespace SchemaCompiler

open Effect

variable {κ : Type}

/-! ## Admitted values -/

namespace TableDefinition

variable {definition : TableDefinition} {isRow : RowLookup} {row values : Row} {column : String}
  {brought : Option UInt64}

/-- The definition stores a column of this name, and its validators accept the value. -/
def Admits (definition : TableDefinition) (isRow : RowLookup) (column : String) (value : Json) :
    Prop :=
  ∃ field, definition.field? column = some (.plain field) ∧
    ∀ validator ∈ field.validators, validator.check isRow value = .ok ()

theorem stores_iff : definition.stores column = true ↔
    ∃ field, definition.field? column = some (.plain field) := by
  unfold stores
  cases definition.field? column with
  | none => simp
  | some field => cases field <;> simp [FieldDefinition.isStored]

theorem checkColumns_ok_iff : definition.checkColumns values = .ok () ↔
    ∀ column ∈ values.keys, column = idColumn ∨ definition.stores column = true := by
  unfold checkColumns
  constructor
  · intro passed
    split at passed
    · cases passed
    · next none =>
      intro column listed
      have fine := List.find?_eq_none.1 none column listed
      simpa [or_iff_not_imp_left] using fine
  · intro fine
    have none : values.keys.find? (fun column =>
        !(column == idColumn || definition.stores column)) = none := by
      rw [List.find?_eq_none]
      intro column listed
      simpa [or_iff_not_imp_left] using fine column listed
    rw [none]

private theorem validateValue_ok {value : Json} {field : PlainField}
    (found : definition.field? column = some (.plain field))
    (passed : definition.validateValue isRow column value = .ok ()) :
    ∀ validator ∈ field.validators, validator.check isRow value = .ok () := by
  have judged : (definition.field? column).bind FieldDefinition.plain? = some field := by
    rw [found]
    rfl
  rw [validateValue, judged] at passed
  intro validator listed
  have accepted := forM_eq_ok_iff.1 passed validator listed
  split at accepted
  · next good => exact good
  · cases accepted

private theorem validate_ok {value : Json} (passed : definition.validate isRow row = .ok ())
    (found : row.get? column = some value) :
    definition.validateValue isRow column value = .ok () :=
  forM_eq_ok_iff.1 passed (column, value) ((row.get?_eq_some_iff column value).1 found)

/-- Every column of checked and validated values is `id` or admitted. -/
private theorem admits_of_checked {value : Json}
    (stored : column = idColumn ∨ definition.stores column = true)
    (passed : definition.validate isRow row = .ok ()) (found : row.get? column = some value)
    (other : column ≠ idColumn) : definition.Admits isRow column value := by
  obtain ⟨field, declared⟩ := stores_iff.1 (stored.resolve_left other)
  exact ⟨field, declared, validateValue_ok declared (validate_ok passed found)⟩

/-- Defaults are given to stored fields only. -/
theorem keys_withDefaults (listed : column ∈ (definition.withDefaults row).keys) :
    column ∈ row.keys ∨ ∃ field ∈ definition.plainFields, field.name = column := by
  unfold withDefaults at listed
  generalize definition.plainFields = fields at listed ⊢
  induction fields generalizing row with
  | nil => exact Or.inl listed
  | cons field rest ih =>
    rw [List.foldl_cons] at listed
    rcases ih listed with known | ⟨later, member, named⟩
    · split at known
      · split at known
        · exact Or.inl known
        · rw [OrderedMap.keys_insert] at known
          split at known
          · exact Or.inl known
          · rcases List.mem_append.1 known with known | added
            · exact Or.inl known
            · exact Or.inr ⟨field, List.mem_cons_self, (List.mem_singleton.1 added).symm⟩
      · exact Or.inl known
    · exact Or.inr ⟨later, List.mem_cons_of_mem _ member, named⟩

private theorem mem_plainFields {field : PlainField} :
    field ∈ definition.plainFields ↔ FieldDefinition.plain field ∈ definition.fields := by
  unfold plainFields
  rw [List.mem_filterMap]
  constructor
  · rintro ⟨found, listed, same⟩
    cases found <;> cases same
    exact listed
  · intro listed
    exact ⟨_, listed, rfl⟩

/-- In a consistent definition a field is the one that is found under its name. -/
theorem field?_of_mem (consistent : definition.Consistent) {field : FieldDefinition}
    (listed : field ∈ definition.fields) : definition.field? field.name = some field := by
  have distinct := consistent.distinct
  unfold fieldNames at distinct
  unfold field?
  generalize definition.fields = fields at listed distinct ⊢
  induction fields with
  | nil => cases listed
  | cons first rest ih =>
    obtain ⟨fresh, distinct⟩ := List.nodup_cons.1 distinct
    rcases List.mem_cons.1 listed with rfl | later
    · simp
    · have other : ¬ first.name = field.name := fun same =>
        fresh (same ▸ List.mem_map_of_mem later)
      simpa [other] using ih later distinct

theorem mem_of_field? {field : FieldDefinition} (found : definition.field? column = some field) :
    field ∈ definition.fields ∧ field.name = column := by
  unfold field? at found
  have named := List.find?_some found
  exact ⟨List.mem_of_find?_eq_some found, beq_iff_eq.1 named⟩

/-- Whatever an insertion fills in, every column of its row is `id` or admitted. -/
theorem admitInsertion_admits {value : Json} (consistent : definition.Consistent)
    (admitted : definition.admitInsertion isRow values = .ok (row, brought))
    (found : row.get? column = some value) (other : column ≠ idColumn) :
    definition.Admits isRow column value := by
  obtain ⟨columns, filled, -, valid, -⟩ := admitInsertion_ok_iff.1 admitted
  refine admits_of_checked ?_ valid found other
  have listed : column ∈ row.keys := row.mem_keys_iff.2 ⟨value, found⟩
  rw [filled] at listed
  rcases keys_withDefaults listed with given | ⟨field, declared, rfl⟩
  · exact checkColumns_ok_iff.1 columns column given
  · exact Or.inr (stores_iff.2 ⟨field, field?_of_mem consistent (mem_plainFields.1 declared)⟩)

/-- Every column of the values of an update is admitted; `id` is none of them. -/
theorem admitUpdate_admits {value : Json} (admitted : definition.admitUpdate isRow values = .ok ())
    (found : values.get? column = some value) :
    column ≠ idColumn ∧ definition.Admits isRow column value := by
  obtain ⟨key, columns, valid⟩ := admitUpdate_ok_iff.1 admitted
  have present : values.contains column = true := by
    rw [OrderedMap.contains, found]
    rfl
  have other : column ≠ idColumn := by
    rintro rfl
    rw [key] at present
    cases present
  refine ⟨other, admits_of_checked ?_ valid found other⟩
  exact checkColumns_ok_iff.1 columns column ((OrderedMap.contains_iff_mem_keys _ _).1 present)

/-- An admitted insertion has a value other than null in every required field. -/
theorem admitInsertion_required {field : PlainField}
    (admitted : definition.admitInsertion isRow values = .ok (row, brought))
    (declared : FieldDefinition.plain field ∈ definition.fields) (required : field.isRequired = true) :
    (row.valueAt field.name).isNull = false := by
  obtain ⟨-, -, passed, -⟩ := admitInsertion_ok_iff.1 admitted
  unfold checkRequired at passed
  split at passed
  · cases passed
  · next none =>
    have fine := List.find?_eq_none.1 none field (mem_plainFields.2 declared)
    simpa [required] using fine

end TableDefinition

/-! ## Rows across a step -/

/-- Where a row comes from that a table stores under an id after a step. -/
inductive Database.RowOrigin (table : String) (id : UInt64) (row : Row) (before after : Database κ) :
    Prop
  | kept (known : (before.storage table).rows.get? id = some row)
  | inserted {handle : Handle} {isRow : RowLookup} {values given : Row} {brought : Option UInt64}
      (opened : handle ∈ before.opened) (own : handle.name = table)
      (admitted : handle.definition.admitInsertion isRow values = .ok (given, brought))
      (stored : row = given.insert idColumn (.ofUInt64 id))
  | updated {handle : Handle} {isRow : RowLookup} {values old : Row} (ids : List UInt64)
      (opened : handle ∈ before.opened) (own : handle.name = table)
      (admitted : handle.definition.admitUpdate isRow values = .ok ())
      (written : after = before.setStorage table ((before.storage table).update ids values))
      (known : (before.storage table).rows.get? id = some old) (named : id ∈ ids)
      (merged : ∀ column, row.get? column = (values.get? column).or (old.get? column))

theorem Database.Step.rowOrigin {name : String} {before after : Database κ}
    (step : Step name before after) {table : String} {id : UInt64} {row : Row}
    (found : (after.storage table).rows.get? id = some row) :
    RowOrigin table id row before after := by
  cases step with
  | define definition =>
    rw [Database.storage, storages_defineTable] at found
    exact .kept found
  | @insert handle _ _ _ _ _ _ rows opened admitted filed =>
    rw [storage_setStorage] at found
    split at found
    · next own =>
      rw [Storage.get?_insert filed] at found
      split at found
      · next same =>
        cases found
        subst same
        exact .inserted opened own admitted (Storage.insert_ok_iff.1 filed).2.1
      · subst own
        exact .kept found
    · exact .kept found
  | @update handle _ values ids opened admitted =>
    by_cases own : handle.name = table
    · subst own
      rw [storage_setStorage_self, Storage.get?_update, Option.map_eq_some_iff] at found
      obtain ⟨old, known, merged⟩ := found
      by_cases named : id ∈ ids
      · refine .updated ids opened rfl admitted rfl known named fun column => ?_
        have some : ids.count id ≠ 0 := fun none => absurd named (List.count_eq_zero.1 none)
        rw [← merged, Row.get?_iterate_merge, if_neg some]
      · rw [List.count_eq_zero.2 named, Function.iterate_zero, id_eq] at merged
        exact .kept (merged ▸ known)
    · rw [storage_setStorage, if_neg own] at found
      exact .kept found
  | @delete handle ids opened =>
    rw [storage_setStorage] at found
    split at found
    · next own =>
      subst own
      rw [Storage.get?_delete] at found
      split at found
      · cases found
      · exact .kept found
    · exact .kept found
  | attach => exact .kept found

/-- A database that was reached by steps has been worked on by calls only. -/
theorem Databases.Reachable.sound {databases : Databases κ} (reachable : Reachable databases)
    (name : String) : Database.Sound name (databases name) := by
  obtain ⟨calls, same⟩ := reachable.afterCalls name
  rw [same]
  exact Database.Sound.afterCalls name calls

end SchemaCompiler
