import Mathlib.Data.List.Dedup
import SchemaCompiler.Proofs.RowIds

/-! The number that an update or a deletion gives. It is taken from the caller's list before the
write: the ids that key a row, as often as they are given. The rows that the write touches are those
of the same ids, each once. So the number is that of the touched rows if and only if no id of a row
is given twice (`counts_rows_iff`). -/
namespace SchemaCompiler

variable {κ ε : Type}

namespace Storage

variable {storage : Storage} {ids : List UInt64}

/-- The keys of the rows that have one of the ids. -/
def keyed (storage : Storage) (ids : List UInt64) : List UInt64 :=
  storage.rows.keys.filter (· ∈ ids)

private theorem mem_existing_iff {id : UInt64} :
    id ∈ storage.existing ids ↔ id ∈ ids ∧ id ∈ storage.rows.keys := by
  rw [existing, List.mem_filter, OrderedMap.contains_iff_mem_keys]

/-- The given ids that key a row are the keys of the rows meant, with repetitions. -/
private theorem keyed_perm_existing : (storage.keyed ids).Perm (storage.existing ids).dedup := by
  have distinct : (storage.keyed ids).Nodup := storage.rows.keys_nodup.filter _
  refine (List.perm_ext_iff_of_nodup distinct (List.nodup_dedup _)).2 fun id => ?_
  rw [List.mem_dedup, mem_existing_iff, keyed, List.mem_filter, decide_eq_true_iff, and_comm]

variable (storage ids) in
private theorem length_existing_eq_iff :
    (storage.existing ids).length = (storage.keyed ids).length ↔ (storage.existing ids).Nodup := by
  rw [keyed_perm_existing.length_eq]
  constructor
  · intro same
    rw [← (List.dedup_sublist (storage.existing ids)).eq_of_length same.symm]
    exact List.nodup_dedup _
  · intro distinct
    rw [distinct.dedup]

variable (storage ids) in
/-- A deletion takes out the rows of its ids and no other. -/
private theorem size_delete_existing :
    (storage.delete (storage.existing ids)).rows.size + (storage.keyed ids).length =
      storage.rows.size := by
  have left : (storage.delete (storage.existing ids)).rows.keys =
      storage.rows.keys.filter (· ∉ ids) := by
    rw [keys_delete]
    refine List.filter_congr fun key listed => ?_
    simp [mem_existing_iff, listed]
  have split : storage.rows.keys.length = (storage.rows.keys.filter (· ∈ ids)).length +
      (storage.rows.keys.filter fun key => !decide (key ∈ ids)).length :=
    List.length_eq_length_filter_add _
  rw [← OrderedMap.length_keys, ← OrderedMap.length_keys, left, keyed, split, Nat.add_comm]
  simp

end Storage

namespace Handle

variable {callbacks : Callbacks κ ε} {handle : Handle} {within : World κ ε → Prop}
  {world : World κ ε} {ids : List UInt64} {values : Row} {count : Nat}

private theorem delete_counts (unaborted : handle.Unaborted callbacks .delete within world)
    (ran : (handle.delete callbacks ids world).1 = .ok count) :
    count = ((world.storage handle).existing ids).length ∧
      (handle.delete callbacks ids world).2.storage handle =
        (world.storage handle).delete ((world.storage handle).existing ids) := by
  rw [delete_run] at ran ⊢
  dsimp only at ran ⊢
  by_cases none : ((world.storage handle).existing ids).isEmpty = true
  · rw [if_pos none] at ran ⊢
    cases ran
    rw [List.isEmpty_iff.1 none]
    exact ⟨rfl, rfl⟩
  · rw [if_neg none] at ran ⊢
    obtain ⟨told, rows, written, left⟩ := staged_unaborted unaborted _ _ _ ran
    cases written
    exact ⟨rfl, left⟩

private theorem update_counts (unaborted : handle.Unaborted callbacks .update within world)
    (ran : (handle.update callbacks ids values world).1 = .ok count) :
    count = ((world.storage handle).existing ids).length ∧
      (handle.update callbacks ids values world).2.storage handle =
        (world.storage handle).update ((world.storage handle).existing ids) values := by
  rw [update_run] at ran ⊢
  cases admitted : handle.definition.admitUpdate world.isRow values with
  | error refusal =>
    rw [admitted] at ran
    cases ran
  | ok =>
    rw [admitted] at ran
    dsimp only at ran ⊢
    by_cases none : ((world.storage handle).existing ids).isEmpty = true
    · rw [if_pos none] at ran ⊢
      cases ran
      rw [List.isEmpty_iff.1 none]
      exact ⟨rfl, rfl⟩
    · rw [if_neg none] at ran ⊢
      obtain ⟨told, rows, written, left⟩ := staged_unaborted unaborted _ _ _ ran
      cases written
      exact ⟨rfl, left⟩

/-- What an update and a deletion count whose hooks neither abort nor touch the table, for any ids
in any order, unknown and repeated ones included.

Each gives the number of the ids that key a row, as often as they are given. A deletion takes out
each row of these ids, and the number is how many rows are fewer if and only if none of the ids is
repeated. So it is with an update and the number of rows that have one of the ids; it leaves all
keys. -/
theorem counts_rows_iff (updating : handle.Unaborted callbacks .update within world)
    (deleting : handle.Unaborted callbacks .delete within world) (ids : List UInt64) (values : Row)
    (count : Nat) :
    let before := world.storage handle
    ((handle.delete callbacks ids world).1 = .ok count →
      let after := (handle.delete callbacks ids world).2.storage handle
      count = (before.existing ids).length ∧
      after.rows.size + (before.keyed ids).length = before.rows.size ∧
      (count = before.rows.size - after.rows.size ↔ (before.existing ids).Nodup)) ∧
    ((handle.update callbacks ids values world).1 = .ok count →
      let after := (handle.update callbacks ids values world).2.storage handle
      count = (before.existing ids).length ∧ after.rows.keys = before.rows.keys ∧
      (count = (before.keyed ids).length ↔ (before.existing ids).Nodup)) := by
  dsimp only
  constructor
  · intro ran
    obtain ⟨counted, left⟩ := delete_counts deleting ran
    have fewer := (world.storage handle).size_delete_existing ids
    have exact := (world.storage handle).length_existing_eq_iff ids
    rw [left]
    refine ⟨counted, fewer, ?_⟩
    rw [← exact, counted]
    omega
  · intro ran
    obtain ⟨counted, left⟩ := update_counts updating ran
    rw [left, counted]
    exact ⟨rfl, Storage.keys_update _ _, Storage.length_existing_eq_iff _ _⟩

end Handle

namespace Wrapping

open Idle

private theorem unaborted_filled (rows : List Row) (event : Event)
    (none : ((filled rows).decoration notes).attached.isEmpty = true) :
    notes.Unaborted callbacks event (fun _ => True) (filled rows) :=
  .of_no_hooks fun timing => by rw [Decoration.hooks, List.isEmpty_iff.mp none, List.filterMap_nil]

/-- An id without a row is in neither number. -/
theorem counts_rows_unknown :
    (notes.delete callbacks [7, 1] (filled one)).1 = .ok 1 ∧
    (notes.update callbacks [7, 1] .empty (filled one)).1 = .ok 1 ∧
    ((notes.delete callbacks [7, 1] (filled one)).2.storage notes).rows.size + 1 =
      ((filled one).storage notes).rows.size := by
  have unaborted (event : Event) := unaborted_filled one event (by decide +kernel)
  have counts := Handle.counts_rows_iff (unaborted .update) (unaborted .delete) [7, 1] .empty 1
  have deleted : (notes.delete callbacks [7, 1] (filled one)).1 = .ok 1 := by decide +kernel
  have updated : (notes.update callbacks [7, 1] .empty (filled one)).1 = .ok 1 := by decide +kernel
  exact ⟨deleted, updated, (counts.1 deleted).2.1⟩

/-- A repeated id counts twice, and only one row goes or changes. -/
theorem repeated_id_counts_twice :
    Databases.Reachable (filled one).database ∧
    notes.Unaborted callbacks .delete (fun _ => True) (filled one) ∧
    notes.Unaborted callbacks .update (fun _ => True) (filled one) ∧
    (notes.delete callbacks [1, 1] (filled one)).1 = .ok 2 ∧
    ((filled one).storage notes).rows.size = 1 ∧
    ((notes.delete callbacks [1, 1] (filled one)).2.storage notes).rows.size = 0 ∧
    (notes.update callbacks [1, 1] .empty (filled one)).1 = .ok 2 ∧
    (((filled one).storage notes).keyed [1, 1]).length = 1 := by
  have passed := Routine.run_reaches conduct 1 (fill one) start rfl
  have unaborted (event : Event) := unaborted_filled one event (by decide +kernel)
  exact ⟨passed _ List.mem_cons_self, unaborted .delete, unaborted .update, by decide +kernel,
    by decide +kernel, by decide +kernel, by decide +kernel, by decide +kernel⟩

end Wrapping
end SchemaCompiler
