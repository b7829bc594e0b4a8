import SchemaCompiler.Proofs.HookRoutines
import SchemaCompiler.Proofs.QuietHooks
import SchemaCompiler.Proofs.RowWrites

/-! Row ids. An id is kept twice, as the key of a row and in the row's `id` column, and the two
agree in every state of every run (`stored_ids_agree`): a write either sets both or leaves both. A
row without an id gets the number at which the counter of its table stands. The counter stays ahead
of all keys until a row is stored under the last number there is; then it starts over, and an
insertion may take the place of a stored row (`insert_appends_iff`). -/
namespace SchemaCompiler

variable {κ ε α : Type}

/-! ## Keys and id columns -/

/-- Every row says in its `id` column under which key it is stored. -/
def Storage.IdsAgree (storage : Storage) : Prop :=
  ∀ id row, storage.rows.get? id = some row → row.get? idColumn = some (.ofUInt64 id)

theorem Storage.Step.idsAgree {before after : Storage} (step : Storage.Step before after)
    (agree : before.IdsAgree) : after.IdsAgree := by
  intro probe row found
  cases step with
  | insert admitted filed =>
    rw [Storage.get?_insert filed] at found
    split at found
    · next same =>
      cases found
      rw [(Storage.insert_ok_iff.mp filed).2.1, OrderedMap.get?_insert_self, same]
    · exact agree probe row found
  | @update _ _ values ids admitted =>
    rw [Storage.get?_update, Option.map_eq_some_iff] at found
    obtain ⟨old, known, rfl⟩ := found
    have unnamed : values.get? idColumn = none := by
      simpa [OrderedMap.contains] using (TableDefinition.admitUpdate_ok_iff.mp admitted).1
    rw [Row.get?_iterate_merge, unnamed, Option.none_or, ite_self]
    exact agree probe old known
  | delete ids =>
    rw [Storage.get?_delete] at found
    split at found
    · cases found
    · exact agree probe row found

/-- In every state of every run of definitions, insertions, updates and deletions, through any
handles and with whatever hooks do on any tables meanwhile, the keys of a table are distinct and
each row holds its key in its `id` column. The write of an update keeps the keys as they are and
that of a deletion only drops some, also if the ids were selected from rows that are gone by now. -/
theorem stored_ids_agree (conduct : Conduct κ ε) (depth : Nat) (routine : Routine κ ε α) (own : ε) :
    let after := (routine.run (conduct.callbacks depth) { application := { own } }).2
    (∀ databases ∈ after.database :: after.application.seen, ∀ name table,
      let rows := ((databases name).storage table).rows
      rows.keys.Nodup ∧
        ∀ id row, rows.get? id = some row → row.get? idColumn = some (.ofUInt64 id)) ∧
    ∀ (storage : Storage) (ids : List UInt64) (values : Row),
      (storage.update ids values).rows.keys = storage.rows.keys ∧
        (storage.delete ids).rows.keys.Sublist storage.rows.keys := by
  refine ⟨fun databases passed name table => ?_, fun storage ids values => ?_⟩
  · have reachable : Databases.Reachable databases :=
      Routine.run_reaches conduct depth routine _ rfl databases passed
    refine ⟨OrderedMap.keys_nodup _, ?_⟩
    refine reachable.storage_invariant (P := Storage.IdsAgree) ?_ ?_ name table
    · exact fun id row found => nomatch found
    · exact fun before after step => step.idsAgree
  · refine ⟨Storage.keys_update ids values, ?_⟩
    rw [Storage.keys_delete]
    exact List.filter_sublist

/-! ## The counter -/

/-- The last number that can be an id. No row may bring it. -/
def lastId : UInt64 := 0xFFFFFFFFFFFFFFFF

private theorem ne_lastId {id : UInt64} (followed : id.toNat + 1 < UInt64.size) : id ≠ lastId := by
  rintro rfl
  exact absurd followed (by decide)

private theorem lt_add_one_of_ne_lastId {id : UInt64} (notLast : id ≠ lastId) : id < id + 1 := by
  unfold lastId at notLast
  grind

/-- Every key is behind the counter. -/
def Storage.CounterAhead (storage : Storage) : Prop :=
  ∀ id ∈ storage.rows.keys, id < storage.nextId

/-- Until a row is stored under the last number, the counter stays ahead. -/
theorem Storage.Step.counterAhead {before after : Storage} (step : Storage.Step before after)
    (ahead : before.CounterAhead) (unused : lastId ∉ after.rows.keys) : after.CounterAhead := by
  intro key listed
  cases step with
  | @insert _ _ _ row stored brought id _ admitted filed =>
    obtain ⟨counted, -, rows⟩ := Storage.insert_ok_iff.mp filed
    rw [rows] at listed unused
    have known : key ∈ before.rows.keys ∨ key = id := by
      rw [OrderedMap.keys_insert] at listed
      split at listed
      · exact Or.inl listed
      · simpa using listed
    have present : id ∈ (before.rows.insert id stored).keys :=
      (OrderedMap.mem_keys_iff _).2 ⟨stored, OrderedMap.get?_insert_self ..⟩
    rcases counted with ⟨rfl, -, counter⟩ | ⟨-, rfl, counter⟩
    · have next := lt_add_one_of_ne_lastId (ne_lastId (TableDefinition.admitInsertion_lt admitted))
      rw [counter, UInt64.max_def]
      rcases known with old | rfl
      · have behind := ahead key old
        grind
      · grind
    · -- The number just handed out is not the last, so the counter does not start over.
      have next := lt_add_one_of_ne_lastId fun last => unused (last ▸ present)
      rw [counter]
      rcases known with old | rfl
      · exact UInt64.lt_trans (ahead key old) next
      · exact next
  | update ids admitted =>
    rw [Storage.keys_update] at listed
    exact ahead key listed
  | delete ids =>
    rw [Storage.keys_delete] at listed
    exact ahead key (List.mem_filter.mp listed).1

/-- What can be reached as long as a table has not stored a row under the last number. -/
def Databases.ReachableBelowLast (name table : String) (databases : Databases κ) : Prop :=
  Relation.ReflTransGen
    (fun before after => Step before after ∧ lastId ∉ ((after name).storage table).rows.keys)
    (fun _ => {}) databases

theorem Databases.ReachableBelowLast.counterAhead {name table : String} {databases : Databases κ}
    (reachable : ReachableBelowLast name table databases) :
    ((databases name).storage table).CounterAhead := by
  induction reachable with
  | refl => exact fun _ listed => nomatch listed
  | tail _ taken ih =>
    obtain ⟨step, unused⟩ := taken
    rcases step.storage name table with same | written
    · rw [same]
      exact ih
    · exact written.counterAhead ih unused

namespace Handle

variable {callbacks : Callbacks κ ε} {handle : Handle} {within : World κ ε → Prop}
  {world : World κ ε} {values : Row} {id : UInt64}

/-- An insertion that gives an id has admitted its row, and has written it to the rows as they were. -/
private theorem insert_ok_quiet (quiet : handle.Quiet callbacks .insert within world)
    (ran : (handle.insert callbacks values world).1 = .ok (some id)) :
    ∃ row brought stored,
      handle.definition.admitInsertion world.isRow values = .ok (row, brought) ∧
        (world.storage handle).insert brought row =
          .ok (id, stored, (handle.insert callbacks values world).2.storage handle) := by
  rw [insert_run] at ran ⊢
  cases admitted : handle.definition.admitInsertion world.isRow values with
  | error refusal =>
    rw [admitted] at ran
    cases ran
  | ok checked =>
    obtain ⟨row, brought⟩ := checked
    rw [admitted] at ran
    dsimp only at ran ⊢
    rcases staged_quiet quiet (.insert row) none (handle.insertion row brought) with
      ⟨-, ⟨_, failed⟩ | aborted⟩ | ⟨value, told, rows, written, kept, ⟨_, failed⟩ | gave⟩
    · rw [failed] at ran
      cases ran
    · rw [aborted] at ran
      cases ran
    · rw [failed] at ran
      cases ran
    · rw [gave] at ran
      cases ran
      rw [kept]
      unfold insertion at written
      split at written
      · cases written
      · next filed =>
        cases written
        exact ⟨row, brought, _, rfl, filed⟩

/-- An insertion whose hooks spare the table adds its row after the rows that are there, which stay
as they are, if and only if the row brings its id or the counter stands at a free number. The
counter does as long as the table has never stored a row under the last number. -/
theorem insert_appends_iff (quiet : handle.Quiet callbacks .insert within world)
    (ran : (handle.insert callbacks values world).1 = .ok (some id)) :
    let before := world.storage handle
    let after := (handle.insert callbacks values world).2.storage handle
    ((id ∉ before.rows.keys ∧ ∃ row brought,
        handle.definition.admitInsertion world.isRow values = .ok (row, brought) ∧
          after.rows.entries = before.rows.entries ++ [(id, row.insert idColumn (.ofUInt64 id))]) ↔
      (∃ row, handle.definition.admitInsertion world.isRow values = .ok (row, some id)) ∨
        before.nextId ∉ before.rows.keys) ∧
    (Databases.ReachableBelowLast handle.database handle.name world.database →
      before.nextId ∉ before.rows.keys) := by
  obtain ⟨row, brought, stored, admitted, filed⟩ := insert_ok_quiet quiet ran
  obtain ⟨counted, rfl, rows⟩ := Storage.insert_ok_iff.mp filed
  dsimp only
  constructor
  · have free_iff : id ∉ (world.storage handle).rows.keys ↔
        (∃ row, handle.definition.admitInsertion world.isRow values = .ok (row, some id)) ∨
          (world.storage handle).nextId ∉ (world.storage handle).rows.keys := by
      rcases counted with ⟨rfl, free, -⟩ | ⟨rfl, rfl, -⟩
      · exact ⟨fun _ => Or.inl ⟨row, admitted⟩, fun _ => free⟩
      · constructor
        · exact Or.inr
        · rintro (⟨_, brings⟩ | free)
          · rw [admitted] at brings
            cases brings
          · exact free
    rw [← free_iff]
    constructor
    · exact And.left
    · intro free
      refine ⟨free, row, brought, admitted, ?_⟩
      rw [rows, OrderedMap.entries_insert_of_not_mem _ _ free]
  · intro reachable listed
    exact absurd (reachable.counterAhead _ listed) (UInt64.lt_irrefl _)

end Handle

namespace Wrapping

open Idle

/-- A table of one column. -/
def notes : Handle := ⟨⟨"main", 0⟩, { name := "notes", fields := [.plain { name := "text" }] }⟩

/-- Defines the table and inserts rows one by one. -/
def fill (rows : List Row) : Routine Unit Unit Unit :=
  .define "main" notes.definition fun _ =>
    rows.foldr (fun row next => .insert notes.id row fun _ => next) (.finish (.ok ()))

def filled (rows : List Row) : World Unit (Observed Unit Unit) :=
  ((fill rows).run callbacks start).2

private theorem quiet_filled {rows : List Row}
    (none : ((filled rows).decoration notes).attached.isEmpty = true) :
    notes.Quiet callbacks .insert (fun _ => True) (filled rows) :=
  .of_no_hooks fun timing => by rw [Decoration.hooks, List.isEmpty_iff.mp none, List.filterMap_nil]

def kept : Row := .ofList [("text", .string "kept")]

/-- One row, so far. -/
def one : List Row := [kept]

/-- The table once it is defined. -/
def defined : Database Unit := (({} : Database Unit).defineTable "main" notes.definition).2

private theorem reachable_one :
    Databases.ReachableBelowLast "main" "notes" (filled one).database := by
  have empty : Databases.ReachableBelowLast "main" "notes"
      (Function.update (fun _ => {}) "main" defined) :=
    .single ⟨⟨"main", _, .define notes.definition, rfl⟩, List.not_mem_nil⟩
  let db := defined.setStorage "notes" ((filled one).storage notes)
  have admitted : notes.definition.admitInsertion start.isRow kept = .ok (kept, none) := rfl
  have filed : (defined.storage "notes").insert none kept =
      .ok (1, _, (filled one).storage notes) := rfl
  have left : (filled one).database = (start.setDatabase "main" db).database := rfl
  refine empty.tail ⟨⟨"main", db, .insert List.mem_cons_self admitted filed, ?_⟩, by decide +kernel⟩
  rw [Function.update_idem, left]
  exact World.database_setDatabase "main" _

/-- The second row of a table gets the number two and comes after the first. -/
theorem insert_appends_second :
    let draft : Row := .ofList [("text", .string "draft")]
    let after := (notes.insert callbacks draft (filled one)).2.storage notes
    notes.Quiet callbacks .insert (fun _ => True) (filled one) ∧
    (notes.insert callbacks draft (filled one)).1 = .ok (some 2) ∧
    Databases.ReachableBelowLast "main" "notes" (filled one).database ∧
    ((filled one).storage notes).rows.keys = [1] ∧
    after.rows.entries = ((filled one).storage notes).rows.entries ++
      [(2, draft.insert idColumn (.ofUInt64 2))] := by
  intro draft after
  have quiet : notes.Quiet callbacks .insert (fun _ => True) (filled one) :=
    quiet_filled (by decide +kernel)
  have ran : (notes.insert callbacks draft (filled one)).1 = .ok (some 2) := by decide +kernel
  have exact := Handle.insert_appends_iff quiet ran
  obtain ⟨-, row, brought, admitted, appended⟩ := exact.1.mpr (Or.inr (exact.2 reachable_one))
  have same : notes.definition.admitInsertion (filled one).isRow draft = .ok (draft, none) := rfl
  cases admitted.symm.trans same
  exact ⟨quiet, ran, reachable_one, by decide +kernel, appended⟩

/-- Rows that make the counter start over: the last one gets the number zero. -/
def rows : List Row :=
  [kept, .ofList [(idColumn, .ofUInt64 (lastId - 1))], .empty, .empty]

/-- The next row takes the place of the first one, which is lost. -/
theorem insert_replaces_first :
    Databases.Reachable (filled rows).database ∧
    notes.Quiet callbacks .insert (fun _ => True) (filled rows) ∧
    (notes.insert callbacks .empty (filled rows)).1 = .ok (some 1) ∧
    ((filled rows).storage notes).rows.keys = [1, lastId - 1, lastId, 0] ∧
    ((notes.insert callbacks .empty (filled rows)).2.storage notes).rows.keys =
      [1, lastId - 1, lastId, 0] ∧
    (((filled rows).storage notes).rows.get? 1).any (·.contains "text") = true ∧
    (((notes.insert callbacks .empty (filled rows)).2.storage notes).rows.get? 1).any
      (·.contains "text") = false := by
  have passed := Routine.run_reaches conduct 1 (fill rows) start rfl
  exact ⟨passed _ List.mem_cons_self, quiet_filled (by decide +kernel), by decide +kernel,
    by decide +kernel, by decide +kernel, by decide +kernel, by decide +kernel⟩

end Wrapping
end SchemaCompiler
