import Mathlib.Data.List.Count
import Mathlib.Logic.Function.Iterate
import SchemaCompiler.Proofs.EffectRuns
import SchemaCompiler.Table.Admission
import SchemaCompiler.Table.Storage

/-! What the checks of an operation establish and what its write does to the rows, one law for each
operation. An update that names an id several times merges its values in as often. No write changes
a row under a key that it was not given. -/
namespace SchemaCompiler

open Effect

/-! ## Admission -/

namespace TableDefinition

variable {definition : TableDefinition} {isRow : RowLookup} {values row : Row}
  {brought : Option UInt64} {id : UInt64}

/-- An insertion is admitted if its four checks pass, the last three on the row with defaults. -/
theorem admitInsertion_ok_iff :
    definition.admitInsertion isRow values = .ok (row, brought) ↔
      definition.checkColumns values = .ok () ∧ row = definition.withDefaults values ∧
        definition.checkRequired row = .ok () ∧ definition.validate isRow row = .ok () ∧
        definition.broughtId row = .ok brought := by
  simp only [admitInsertion, bind_eq_ok_iff]
  constructor
  · rintro ⟨_, columns, _, required, _, valid, id, shape, same⟩
    cases same
    exact ⟨columns, rfl, required, valid, shape⟩
  · rintro ⟨columns, rfl, required, valid, shape⟩
    exact ⟨(), columns, (), required, (), valid, brought, shape, rfl⟩

/-- An update is admitted if it leaves the id column alone and its two checks pass. -/
theorem admitUpdate_ok_iff :
    definition.admitUpdate isRow values = .ok () ↔
      values.contains idColumn = false ∧ definition.checkColumns values = .ok () ∧
        definition.validate isRow values = .ok () := by
  unfold admitUpdate
  cases key : values.contains idColumn with
  | true =>
    constructor
    · rintro ⟨⟩
    · rintro ⟨⟨⟩, _⟩
  | false =>
    simp only [Bool.false_eq_true, ↓reduceIte, bind_eq_ok_iff, true_and]
    exact ⟨fun ⟨_, columns, valid⟩ => ⟨columns, valid⟩,
      fun ⟨columns, valid⟩ => ⟨(), columns, valid⟩⟩

/-- There is an id after one that a row may bring. -/
private theorem broughtId_lt (shape : definition.broughtId row = .ok (some id)) :
    id.toNat + 1 < UInt64.size := by
  unfold broughtId at shape
  split at shape
  · cases shape
  · split at shape
    · split at shape
      · next fits => cases shape; exact fits
      · cases shape
    · cases shape

theorem admitInsertion_lt (admitted : definition.admitInsertion isRow values = .ok (row, some id)) :
    id.toNat + 1 < UInt64.size :=
  broughtId_lt (admitInsertion_ok_iff.mp admitted).2.2.2.2

end TableDefinition

/-! ## Merging -/

namespace Row

/-- What a merged row has in a column is what the values give for it, or else what was there. -/
theorem get?_merge (row values : Row) (column : String) :
    (row.merge values).get? column = (values.get? column).or (row.get? column) :=
  row.get?_insertAll values.distinct column

/-- Merging values in several times comes to the same as merging them in once. -/
theorem get?_iterate_merge (values : Row) (column : String) (times : Nat) (row : Row) :
    ((fun row : Row => row.merge values)^[times] row).get? column =
      if times = 0 then row.get? column else (values.get? column).or (row.get? column) := by
  induction times generalizing row with
  | zero => rfl
  | succ times ih =>
    rw [Function.iterate_succ_apply, ih, get?_merge, if_neg (Nat.succ_ne_zero times)]
    split
    · rfl
    · cases values.get? column <;> rfl

end Row

/-! ## Writing -/

namespace Storage

variable {storage after : Storage} {brought : Option UInt64} {row stored : Row} {id : UInt64}

/-- A row is stored under a free id that it brings, or else under the next one, free or not. -/
theorem insert_ok_iff :
    storage.insert brought row = .ok (id, stored, after) ↔
      (brought = some id ∧ id ∉ storage.rows.keys ∧ after.nextId = max storage.nextId (id + 1) ∨
        brought = none ∧ id = storage.nextId ∧ after.nextId = storage.nextId + 1) ∧
      stored = row.insert idColumn (.ofUInt64 id) ∧ after.rows = storage.rows.insert id stored := by
  obtain ⟨rows, nextId⟩ := after
  cases brought with
  | none =>
    simp only [insert, file, Except.ok.injEq, Prod.mk.injEq, Storage.mk.injEq, reduceCtorEq,
      false_and, false_or, true_and]
    constructor
    · rintro ⟨rfl, rfl, rfl, rfl⟩
      exact ⟨⟨rfl, rfl⟩, rfl, rfl⟩
    · rintro ⟨⟨rfl, rfl⟩, rfl, rfl⟩
      exact ⟨rfl, rfl, rfl, rfl⟩
  | some given =>
    simp only [insert, file]
    split
    · next taken =>
      constructor
      · rintro ⟨⟩
      · rintro ⟨⟨same, free, -⟩ | ⟨⟨⟩, _⟩, _⟩
        cases same
        exact absurd ((OrderedMap.contains_iff_mem_keys _ _).mp taken) free
    · next free =>
      rw [OrderedMap.contains_iff_mem_keys] at free
      simp only [Except.ok.injEq, Prod.mk.injEq, Storage.mk.injEq]
      constructor
      · rintro ⟨rfl, rfl, rfl, rfl⟩
        exact ⟨Or.inl ⟨rfl, free, rfl⟩, rfl, rfl⟩
      · rintro ⟨⟨same, -, rfl⟩ | ⟨⟨⟩, _⟩, rfl, rfl⟩
        cases same
        exact ⟨rfl, rfl, rfl, rfl⟩

/-- The row under an id that an insertion leaves, be it the new one or one it had nothing to do
with. -/
theorem get?_insert (filed : storage.insert brought row = .ok (id, stored, after)) (probe : UInt64) :
    after.rows.get? probe = if id = probe then some stored else storage.rows.get? probe := by
  rw [(insert_ok_iff.mp filed).2.2, OrderedMap.get?_insert]

/-- An update merges the values into the row of an id as often as the id is given. -/
theorem get?_update (ids : List UInt64) (values : Row) (probe : UInt64) :
    (storage.update ids values).rows.get? probe =
      (storage.rows.get? probe).map (fun row => row.merge values)^[ids.count probe] := by
  obtain ⟨rows, nextId⟩ := storage
  dsimp only [update]
  induction ids generalizing rows with
  | nil => simp
  | cons id rest ih =>
    rw [List.foldl_cons, ih]
    cases found : rows.get? id with
    | none =>
      by_cases same : id = probe
      · subst same
        simp [found]
      · simp [same]
    | some row =>
      by_cases same : id = probe
      · subst same
        simp [found]
      · simp [OrderedMap.get?_insert, same]

/-- Whatever ids an update is given, it neither adds nor moves nor drops a key. -/
theorem keys_update (ids : List UInt64) (values : Row) :
    (storage.update ids values).rows.keys = storage.rows.keys := by
  obtain ⟨rows, nextId⟩ := storage
  dsimp only [update]
  induction ids generalizing rows with
  | nil => rfl
  | cons id rest ih =>
    rw [List.foldl_cons, ih]
    cases found : rows.get? id with
    | none => rfl
    | some row =>
      have known : id ∈ rows.keys := rows.mem_keys_iff.2 ⟨row, found⟩
      dsimp only
      rw [OrderedMap.keys_insert, if_pos known]

theorem get?_delete (ids : List UInt64) (probe : UInt64) :
    (storage.delete ids).rows.get? probe = if probe ∈ ids then none else storage.rows.get? probe := by
  obtain ⟨rows, nextId⟩ := storage
  dsimp only [delete]
  induction ids generalizing rows with
  | nil => simp
  | cons id rest ih =>
    rw [List.foldl_cons, ih, OrderedMap.get?_erase]
    by_cases same : id = probe
    · simp [same]
    · simp [same, Ne.symm same]

/-- A deletion drops the ids it is given and keeps the other keys in their order. -/
theorem keys_delete (ids : List UInt64) :
    (storage.delete ids).rows.keys = storage.rows.keys.filter (· ∉ ids) := by
  obtain ⟨rows, nextId⟩ := storage
  dsimp only [delete]
  induction ids generalizing rows with
  | nil => exact (List.filter_eq_self.mpr fun key _ => by simp).symm
  | cons id rest ih =>
    rw [List.foldl_cons, ih, OrderedMap.keys_erase, List.filter_filter]
    refine List.filter_congr fun key _ => ?_
    by_cases same : key = id <;> simp [same]

end Storage
end SchemaCompiler
