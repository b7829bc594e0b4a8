import SchemaCompiler.Proofs.RowWrites

/-! Merging rows, and what it makes of updates and deletions. A merged row has the columns of the
first row in their places and the new ones of the second after them (`keys_merge`), and its values
are known (`get?_merge`). From these two facts merging in turn is merging at once (`merge_assoc`), so
that an update changes each row of its ids once, however often the id is given, and no other
(`entries_update`), and two updates of the same ids are one (`update_update`). -/
namespace SchemaCompiler

namespace Row

/-- The columns that are there keep their places; the others go last. -/
theorem keys_merge (row values : Row) :
    (row.merge values).keys = row.keys ++ values.keys.filter (· ∉ row.keys) :=
  row.keys_insertAll values.distinct

theorem mem_keys_merge {row values : Row} {column : String} :
    column ∈ (row.merge values).keys ↔ column ∈ row.keys ∨ column ∈ values.keys := by
  rw [keys_merge, List.mem_append, List.mem_filter, decide_eq_true_iff]
  by_cases there : column ∈ row.keys <;> simp [there]

/-- Merging in turn is merging at once, also in the order of the columns. -/
theorem merge_assoc (first second third : Row) :
    (first.merge second).merge third = first.merge (second.merge third) := by
  apply OrderedMap.ext_get?
  · simp only [keys_merge, List.filter_append, List.filter_filter, List.append_assoc]
    congr 2
    apply List.filter_congr
    intro column listed
    by_cases inFirst : column ∈ first.keys <;> by_cases inSecond : column ∈ second.keys <;>
      simp [inFirst, inSecond]
  · intro column
    simp only [get?_merge, Option.or_assoc]

/-- A row that was merged in changes nothing the second time. -/
theorem merge_merge_self (row values : Row) : (row.merge values).merge values = row.merge values := by
  apply OrderedMap.ext_get?
  · have none_new : values.keys.filter (· ∉ (row.merge values).keys) = [] := by
      rw [List.filter_eq_nil_iff]
      intro column listed
      simp [mem_keys_merge, listed]
    rw [keys_merge, none_new, List.append_nil]
  · intro column
    rw [get?_merge, get?_merge]
    cases values.get? column <;> rfl

/-- Values that are merged in several times are merged in. -/
theorem iterate_merge (values : Row) (times : Nat) (row : Row) :
    (fun row : Row => row.merge values)^[times + 1] row = row.merge values := by
  induction times with
  | zero => rfl
  | succ times ih => rw [Function.iterate_succ_apply', ih, merge_merge_self]

end Row

namespace Storage

variable {storage : Storage}

/-- An update merges the values into each row that has one of the ids, once, and leaves the others
and the order of all. -/
theorem entries_update (ids : List UInt64) (values : Row) :
    (storage.update ids values).rows.entries =
      storage.rows.entries.map fun entry =>
        if entry.1 ∈ ids then (entry.1, entry.2.merge values) else entry := by
  have merged (id : UInt64) : (storage.update ids values).rows.get? id =
      (storage.rows.get? id).map fun row => if id ∈ ids then row.merge values else row := by
    rw [get?_update]
    by_cases named : id ∈ ids
    · obtain ⟨times, counted⟩ := Nat.exists_eq_add_one.2 (List.count_pos_iff.2 named)
      simp only [counted, named, ↓reduceIte]
      exact congrArg (Option.map · _) (funext (Row.iterate_merge values times))
    · simp [List.count_eq_zero.2 named, named]
  rw [OrderedMap.entries_eq_map _ (keys_update ids values) merged]
  refine List.map_congr_left fun entry _ => ?_
  by_cases named : entry.1 ∈ ids <;> simp [named]

/-- A deletion leaves the rows that have none of the ids, as they are and in their order. -/
theorem entries_delete (ids : List UInt64) :
    (storage.delete ids).rows.entries = storage.rows.entries.filter (·.1 ∉ ids) := by
  obtain ⟨rows, nextId⟩ := storage
  dsimp only [delete]
  induction ids generalizing rows with
  | nil => exact (List.filter_eq_self.2 fun entry _ => by simp).symm
  | cons id rest ih =>
    have erased : (rows.erase id).entries = rows.entries.filter (·.1 ≠ id) := rfl
    rw [List.foldl_cons, ih, erased, List.filter_filter]
    apply List.filter_congr
    intro entry _
    by_cases same : entry.1 = id <;> simp [same]

/-- Ids without a row make no difference to an update. -/
theorem update_existing (ids : List UInt64) (values : Row) :
    storage.update (storage.existing ids) values = storage.update ids values := by
  have rows : (storage.update (storage.existing ids) values).rows =
      (storage.update ids values).rows := by
    apply OrderedMap.ext
    rw [entries_update, entries_update]
    refine List.map_congr_left fun entry listed => ?_
    have known : entry.1 ∈ storage.rows.keys := List.mem_map_of_mem listed
    simp [existing, OrderedMap.contains_iff_mem_keys, known]
  exact congrArg (Storage.mk · storage.nextId) rows

theorem delete_existing (ids : List UInt64) :
    storage.delete (storage.existing ids) = storage.delete ids := by
  have rows : (storage.delete (storage.existing ids)).rows = (storage.delete ids).rows := by
    apply OrderedMap.ext
    rw [entries_delete, entries_delete]
    refine List.filter_congr fun entry listed => ?_
    have known : entry.1 ∈ storage.rows.keys := List.mem_map_of_mem listed
    simp [existing, OrderedMap.contains_iff_mem_keys, known]
  exact congrArg (Storage.mk · storage.nextId) rows

theorem existing_update (ids others : List UInt64) (values : Row) :
    (storage.update ids values).existing others = storage.existing others := by
  unfold existing
  refine List.filter_congr fun id _ => ?_
  rw [Bool.eq_iff_iff, OrderedMap.contains_iff_mem_keys, OrderedMap.contains_iff_mem_keys,
    keys_update]

/-- Two updates of the same ids are one with the merged values. -/
theorem update_update (ids : List UInt64) (first second : Row) :
    (storage.update ids first).update ids second = storage.update ids (first.merge second) := by
  have rows : ((storage.update ids first).update ids second).rows =
      (storage.update ids (first.merge second)).rows := by
    apply OrderedMap.ext
    rw [entries_update, entries_update, entries_update, List.map_map]
    refine List.map_congr_left fun entry _ => ?_
    by_cases named : entry.1 ∈ ids <;> simp [named, Row.merge_assoc]
  exact congrArg (Storage.mk · storage.nextId) rows

end Storage
end SchemaCompiler
