import Mathlib.Logic.Relation
import SchemaCompiler.Proofs.OperationRuns

/-! How databases change while tables are defined and rows are written. A step is what one
definition or one write does to one database, given all that has been checked by then
(`Database.Step`). Between the checks of an operation and its write hooks may take any number of
steps, so a step asks nothing of the rows at the time of the checks. What a run of operations does
to the databases is then a sequence of steps, and an invariant has to survive single steps only
(`Databases.Reachable.invariant`). -/
namespace SchemaCompiler

variable {κ : Type}

/-- The databases by name. One that was not used yet is empty. -/
abbrev Databases (κ : Type) := String → Database κ

/-- What one definition, one write or one attachment does to the database of a name. -/
inductive Database.Step (name : String) (db : Database κ) : Database κ → Prop
  /-- Defining a table, whether accepted or not. -/
  | define (definition : TableDefinition) : Step name db (db.defineTable name definition).2
  /-- The write of an insertion: the row was admitted, and the id it brings is free by now. -/
  | insert {handle : Handle} {isRow : RowLookup} {values row stored : Row}
      {brought : Option UInt64} {id : UInt64} {rows : Storage} (opened : handle ∈ db.opened)
      (admitted : handle.definition.admitInsertion isRow values = .ok (row, brought))
      (filed : (db.storage handle.name).insert brought row = .ok (id, stored, rows)) :
      Step name db (db.setStorage handle.name rows)
  /-- The write of an update, whichever of the rows it selected are still there. -/
  | update {handle : Handle} {isRow : RowLookup} {values : Row} (ids : List UInt64)
      (opened : handle ∈ db.opened)
      (admitted : handle.definition.admitUpdate isRow values = .ok ()) :
      Step name db (db.setStorage handle.name ((db.storage handle.name).update ids values))
  /-- The write of a deletion. -/
  | delete {handle : Handle} (ids : List UInt64) (opened : handle ∈ db.opened) :
      Step name db (db.setStorage handle.name ((db.storage handle.name).delete ids))
  | attach {handle : Handle} (phase : Phase) (hook : Hook κ) (opened : handle ∈ db.opened) :
      Step name db (db.decorate handle.id.serial fun decoration => decoration.attach phase hook)

namespace Databases

/-- One database takes a step, the others stay as they are. -/
def Step (before after : Databases κ) : Prop :=
  ∃ name db, Database.Step name (before name) db ∧ after = Function.update before name db

/-- What any number of steps leads to. -/
abbrev Reaches : Databases κ → Databases κ → Prop := Relation.ReflTransGen Step

/-- What any number of steps leads to from databases that were not used before. -/
def Reachable (databases : Databases κ) : Prop := Reaches (fun _ => {}) databases

/-- What holds of an empty database and survives every step that can be taken from databases that
can be reached holds of every one of these. -/
theorem Reachable.invariant {P : String → Database κ → Prop} (start : ∀ name, P name {})
    (step : ∀ databases, Reachable databases → ∀ name after,
      Database.Step name (databases name) after → P name (databases name) → P name after)
    {databases : Databases κ} (reachable : Reachable databases) (name : String) :
    P name (databases name) := by
  induction reachable with
  | refl => exact start name
  | @tail before _ earlier taken ih =>
    obtain ⟨changed, db, made, rfl⟩ := taken
    by_cases same : name = changed
    · subst same
      rw [Function.update_self]
      exact step before earlier name db made ih
    · rwa [Function.update_of_ne same]

end Databases

/-! ## Handles -/

namespace Database

theorem opened_defineTable (db : Database κ) (name : String) (definition : TableDefinition) :
    db.opened <+: (db.defineTable name definition).2.opened := by
  unfold defineTable
  dsimp only
  split
  · exact List.prefix_rfl
  · exact List.prefix_append _ _

theorem storages_defineTable (db : Database κ) (name : String) (definition : TableDefinition) :
    (db.defineTable name definition).2.storages = db.storages := by
  unfold defineTable
  dsimp only
  split <;> rfl

/-- No handle that was made is ever forgotten. -/
theorem Step.opened {name : String} {before after : Database κ} (step : Step name before after) :
    before.opened <+: after.opened := by
  cases step with
  | define definition => exact before.opened_defineTable name definition
  | insert | update | delete | attach => exact List.prefix_rfl

end Database

/-- What survives every step of one database survives any number of steps of all. -/
theorem Databases.Reaches.keeps {name : String} {P : Database κ → Prop}
    (steady : ∀ {before after : Database κ}, Database.Step name before after → P before → P after)
    {before after : Databases κ} (reaches : Reaches before after) (start : P (before name)) :
    P (after name) := by
  induction reaches with
  | refl => exact start
  | tail _ taken ih =>
    obtain ⟨changed, db, step, rfl⟩ := taken
    by_cases same : name = changed
    · subst same
      rw [Function.update_self]
      exact steady step ih
    · rwa [Function.update_of_ne same]

theorem Databases.Reaches.opened {before after : Databases κ} (reaches : Reaches before after)
    {name : String} {handle : Handle} (made : handle ∈ (before name).opened) :
    handle ∈ (after name).opened :=
  reaches.keeps (P := fun db => handle ∈ db.opened) (fun step before => step.opened.subset before)
    made

/-- No table is ever taken out. -/
theorem Database.Step.registered {name : String} {before after : Database κ}
    (step : Database.Step name before after) {table : String} (known : table ∈ before.tables.keys) :
    table ∈ after.tables.keys := by
  cases step with
  | define definition =>
    unfold Database.defineTable
    dsimp only
    split
    · exact known
    · exact (OrderedMap.mem_keys_insert _ _ _ _).2 (Or.inr known)
  | insert | update | delete | attach => exact known

theorem Databases.Reaches.registered {before after : Databases κ} (reaches : Reaches before after)
    {name table : String} (known : table ∈ (before name).tables.keys) :
    table ∈ (after name).tables.keys :=
  reaches.keeps (P := fun db => table ∈ db.tables.keys) (fun step before => step.registered before)
    known

/-! ## Rows -/

/-- What one write does to the rows of a table. -/
inductive Storage.Step (storage : Storage) : Storage → Prop
  | insert {definition : TableDefinition} {isRow : RowLookup} {values row stored : Row}
      {brought : Option UInt64} {id : UInt64} {rows : Storage}
      (admitted : definition.admitInsertion isRow values = .ok (row, brought))
      (filed : storage.insert brought row = .ok (id, stored, rows)) : Step storage rows
  | update {definition : TableDefinition} {isRow : RowLookup} {values : Row} (ids : List UInt64)
      (admitted : definition.admitUpdate isRow values = .ok ()) :
      Step storage (storage.update ids values)
  | delete (ids : List UInt64) : Step storage (storage.delete ids)

/-- A step of a database leaves the rows of a table alone or is a write to them. -/
theorem Database.Step.storage {name : String} {before after : Database κ}
    (step : Step name before after) (table : String) :
    after.storage table = before.storage table ∨
      Storage.Step (before.storage table) (after.storage table) := by
  cases step with
  | define definition =>
    exact Or.inl (by rw [Database.storage, Database.storage, storages_defineTable])
  | @insert handle _ _ _ _ _ _ rows _ admitted filed =>
    rw [storage_setStorage]
    by_cases same : handle.name = table
    · subst same
      rw [if_pos rfl]
      exact Or.inr (.insert admitted filed)
    · exact Or.inl (if_neg same)
  | @update handle _ _ ids _ admitted =>
    rw [storage_setStorage]
    by_cases same : handle.name = table
    · subst same
      rw [if_pos rfl]
      exact Or.inr (.update ids admitted)
    · exact Or.inl (if_neg same)
  | @delete handle ids _ =>
    rw [storage_setStorage]
    by_cases same : handle.name = table
    · subst same
      rw [if_pos rfl]
      exact Or.inr (.delete ids)
    · exact Or.inl (if_neg same)
  | attach => exact Or.inl rfl

theorem Databases.Step.storage {before after : Databases κ} (step : Step before after)
    (name table : String) :
    (after name).storage table = (before name).storage table ∨
      Storage.Step ((before name).storage table) ((after name).storage table) := by
  obtain ⟨changed, db, taken, rfl⟩ := step
  by_cases same : name = changed
  · subst same
    rw [Function.update_self]
    exact taken.storage table
  · exact Or.inl (by rw [Function.update_of_ne same])

/-- What holds of a table without rows and survives every write holds of every table that can be
reached. -/
theorem Databases.Reachable.storage_invariant {P : Storage → Prop} (start : P {})
    (step : ∀ before after, Storage.Step before after → P before → P after)
    {databases : Databases κ} (reachable : Reachable databases) (name table : String) :
    P ((databases name).storage table) := by
  refine Reaches.keeps (P := fun db => P (db.storage table)) ?_ reachable start
  intro before after taken kept
  rcases taken.storage table with same | written
  · rw [same]
    exact kept
  · exact step _ _ written kept

end SchemaCompiler
