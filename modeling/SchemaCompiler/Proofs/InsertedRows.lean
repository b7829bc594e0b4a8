import SchemaCompiler.Proofs.RowAdmission

/-! Insertions whose hooks all let them proceed and do not touch the table. Such an insertion is a
decision on the values, the definition and the keys that are taken: it stores a row exactly if the
values are `Insertable`, the row is read off them, and otherwise it names the first condition that
they do not meet (`insert_stores_iff`). -/
namespace SchemaCompiler

open Effect

variable {κ ε : Type}

namespace Handle

variable {callbacks : Callbacks κ ε} {handle : Handle} {within : World κ ε → Prop}
  {world : World κ ε} {isRow : RowLookup} {values : Row} {rows : Storage}

/-- What an insertion comes to with which no hook interferes: its checks, then its write. -/
def decided (handle : Handle) (isRow : RowLookup) (values : Row) (rows : Storage) :
    Except RowError (Option UInt64 × HookArgs × Storage) := do
  let (row, brought) ← handle.definition.admitInsertion isRow values
  handle.insertion row brought rows

variable (values) in
private theorem insert_decided (proceeding : handle.Proceeding callbacks .insert within world) :
    let run := handle.insert callbacks values world
    let outcome := handle.decided world.isRow values (world.storage handle)
    run.1 = outcome.map Prod.fst ∧
      run.2.storage handle = (outcome.toOption.map (·.2.2)).getD (world.storage handle) := by
  dsimp only
  rw [insert_run, decided]
  cases handle.definition.admitInsertion world.isRow values with
  | error refusal => exact ⟨rfl, rfl⟩
  | ok admitted =>
    obtain ⟨row, brought⟩ := admitted
    exact staged_proceeding proceeding (.insert row) none (handle.insertion row brought)

theorem insertion_ok_iff {row : Row} {brought given : Option UInt64} {told : HookArgs}
    {after : Storage} :
    handle.insertion row brought rows = .ok (given, told, after) ↔
      ∃ id stored, rows.insert brought row = .ok (id, stored, after) ∧ given = some id ∧
        told = .inserted stored id := by
  unfold insertion
  cases filed : rows.insert brought row with
  | error id => simp
  | ok outcome =>
    obtain ⟨id, stored, later⟩ := outcome
    simp only [Except.ok.injEq, Prod.mk.injEq]
    constructor
    · rintro ⟨rfl, rfl, rfl⟩
      exact ⟨id, stored, ⟨rfl, rfl, rfl⟩, rfl, rfl⟩
    · rintro ⟨_, _, ⟨rfl, rfl, rfl⟩, rfl, rfl⟩
      exact ⟨rfl, rfl, rfl⟩

/-- All that a write can be refused for is an id that is taken. -/
theorem insertion_error_iff {row : Row} {brought : Option UInt64} {refusal : RowError} :
    handle.insertion row brought rows = .error refusal ↔
      ∃ id, brought = some id ∧ id ∈ rows.rows.keys ∧ refusal = .duplicateKey handle.name id := by
  unfold insertion Storage.insert
  cases brought with
  | none => simp
  | some id =>
    simp only [Option.some.injEq, exists_eq_left']
    rw [← OrderedMap.contains_iff_mem_keys]
    by_cases taken : rows.rows.contains id = true
    · simp [taken, eq_comm]
    · simp [taken]

private theorem decided_ok (consistent : handle.definition.Consistent) {given : Option UInt64}
    {told : HookArgs} {after : Storage}
    (stored : handle.decided isRow values rows = .ok (given, told, after)) :
    let filled := handle.definition.withDefaults values
    handle.definition.Insertable isRow rows.rows.keys values ∧
    ∃ id, given = some id ∧
      (filled.get? idColumn = some (.ofUInt64 id) ∨
        (∀ value, filled.get? idColumn = some value → value = .null) ∧ id = rows.nextId) ∧
      after.rows = rows.rows.insert id (filled.insert idColumn (.ofUInt64 id)) := by
  obtain ⟨⟨row, brought⟩, admitted, written⟩ := bind_eq_ok_iff.1 stored
  obtain ⟨columns, rfl, required, valid, shape⟩ := TableDefinition.admitInsertion_ok_iff.1 admitted
  rw [TableDefinition.checkColumns_passes_iff consistent] at columns
  rw [TableDefinition.checkRequired_passes_iff] at required
  rw [TableDefinition.validate_passes_iff consistent] at valid
  obtain ⟨id, _, filed, rfl, rfl⟩ := insertion_ok_iff.1 written
  obtain ⟨counted, rfl, kept⟩ := Storage.insert_ok_iff.1 filed
  rcases counted with ⟨rfl, free, -⟩ | ⟨rfl, rfl, -⟩
  · obtain ⟨given, small⟩ := TableDefinition.broughtId_some_iff.1 shape
    refine ⟨⟨columns, required, valid, ?_, ?_⟩, id, rfl, Or.inl given, kept⟩
    · intro value found _
      rw [given] at found
      cases found
      exact ⟨id, rfl, small⟩
    · intro other found
      rw [given, Option.some.injEq, Json.ofUInt64_inj] at found
      exact found ▸ free
  · have missing := TableDefinition.broughtId_none_iff.1 shape
    refine ⟨⟨columns, required, valid, ?_, ?_⟩, rows.nextId, rfl, Or.inr ⟨missing, rfl⟩, kept⟩
    · exact fun value found present => absurd (missing value found) present
    · intro other found
      cases missing _ found

private theorem decided_error_iff (consistent : handle.definition.Consistent) {refusal : RowError} :
    handle.decided isRow values rows = .error refusal ↔
      handle.definition.Refused isRow rows.rows.keys values refusal := by
  unfold decided
  rw [bind_eq_error_iff, TableDefinition.admitInsertion_error_iff]
  dsimp only
  rw [TableDefinition.checkColumns_error_iff consistent,
    TableDefinition.checkColumns_passes_iff consistent, TableDefinition.checkRequired_error_iff,
    TableDefinition.checkRequired_passes_iff, TableDefinition.validate_error_iff consistent,
    TableDefinition.validate_passes_iff consistent, TableDefinition.broughtId_error_iff]
  constructor
  · rintro ((⟨column, first, rfl⟩ | ⟨columns, ⟨field, first, rfl⟩ | ⟨required,
      ⟨field, value, validator, reason, first, declared, judge, refuses, rfl⟩ |
      ⟨valid, value, given, present, unusable, rfl⟩⟩⟩) | ⟨⟨row, brought⟩, admitted, refused⟩)
    · exact .column first
    · exact .required columns first
    · exact .validator columns required first declared judge refuses
    · exact .id columns required valid given present unusable
    · obtain ⟨id, rfl, taken, rfl⟩ := insertion_error_iff.1 refused
      obtain ⟨columns, rfl, required, valid, shape⟩ :=
        TableDefinition.admitInsertion_ok_iff.1 admitted
      rw [TableDefinition.checkColumns_passes_iff consistent] at columns
      rw [TableDefinition.checkRequired_passes_iff] at required
      rw [TableDefinition.validate_passes_iff consistent] at valid
      obtain ⟨given, small⟩ := TableDefinition.broughtId_some_iff.1 shape
      exact .key columns required valid given small taken
  · intro refused
    cases refused with
    | column first => exact Or.inl (Or.inl ⟨_, first, rfl⟩)
    | required columns first => exact Or.inl (Or.inr ⟨columns, Or.inl ⟨_, first, rfl⟩⟩)
    | validator columns required first declared judge refuses =>
      exact Or.inl (Or.inr ⟨columns, Or.inr ⟨required,
        Or.inl ⟨_, _, _, _, first, declared, judge, refuses, rfl⟩⟩⟩)
    | id columns required valid given present unusable =>
      exact Or.inl (Or.inr ⟨columns, Or.inr ⟨required,
        Or.inr ⟨valid, _, given, present, unusable, rfl⟩⟩⟩)
    | @key id columns required valid given usable taken =>
      have admitted : handle.definition.admitInsertion isRow values =
          .ok (handle.definition.withDefaults values, some id) :=
        TableDefinition.admitInsertion_ok_iff.2
          ⟨(TableDefinition.checkColumns_passes_iff consistent).2 columns, rfl,
            TableDefinition.checkRequired_passes_iff.2 required,
            (TableDefinition.validate_passes_iff consistent).2 valid,
            TableDefinition.broughtId_some_iff.2 ⟨given, usable⟩⟩
      exact Or.inr ⟨_, admitted, insertion_error_iff.2 ⟨id, rfl, taken, rfl⟩⟩

/-- An insertion whose hooks all proceed and do not touch the table, for every table, every handle
on it and all values.

The row with its defaults has the supplied columns first, in their order and with their values,
nulls included, and then the defaults of the other fields in field order. The insertion gives an id
exactly if the values are insertable. Then it stores that row under the id, which is the one that
the row brings or, if it brings none, the next one; the row's `id` column holds the id, in the place
that it has or as the last column. Otherwise the insertion leaves the rows alone and is refused for
the first condition that is not met: columns, required fields, validators, the shape of the id, a
free key. -/
theorem insert_stores_iff (consistent : handle.definition.Consistent)
    (proceeding : handle.Proceeding callbacks .insert within world) (values : Row) :
    let definition := handle.definition
    let before := world.storage handle
    let filled := definition.withDefaults values
    let run := handle.insert callbacks values world
    let after := run.2.storage handle
    filled.entries = values.entries ++ definition.defaulted values ∧
    (∀ column value, values.get? column = some value → filled.get? column = some value) ∧
    ((∃ id, run.1 = .ok (some id)) ↔ definition.Insertable world.isRow before.rows.keys values) ∧
    (∀ id, run.1 = .ok (some id) → ∃ stored, after.rows = before.rows.insert id stored ∧
      stored.entries =
        (if idColumn ∈ filled.keys then
          filled.entries.map fun entry =>
            if entry.1 = idColumn then (idColumn, .ofUInt64 id) else entry
        else filled.entries ++ [(idColumn, .ofUInt64 id)]) ∧
      (filled.get? idColumn = some (.ofUInt64 id) ∨
        (∀ value, filled.get? idColumn = some value → value = .null) ∧ id = before.nextId)) ∧
    (∀ refusal, run.1 = .error refusal ↔
      definition.Refused world.isRow before.rows.keys values refusal) ∧
    (∀ refusal, run.1 = .error refusal → after = before) ∧ run.1 ≠ .ok none := by
  dsimp only
  obtain ⟨outcome, left⟩ := insert_decided values proceeding
  have refused_iff (refusal : RowError) :
      handle.decided world.isRow values (world.storage handle) = .error refusal ↔ _ :=
    decided_error_iff consistent
  rw [outcome, left]
  refine ⟨TableDefinition.entries_withDefaults consistent,
    fun column value given => TableDefinition.get?_withDefaults consistent given, ?_⟩
  cases ended : handle.decided world.isRow values (world.storage handle) with
  | error refusal =>
    have refused := (refused_iff refusal).1 ended
    refine ⟨iff_of_false ?_ refused.not_insertable, ?_, ?_, ?_, ?_⟩
    · rintro ⟨id, ⟨⟩⟩
    · rintro id ⟨⟩
    · intro other
      rw [← refused_iff, ended]
      exact ⟨fun same => by cases same; rfl, fun same => by cases same; rfl⟩
    · exact fun _ _ => rfl
    · rintro ⟨⟩
  | ok stored =>
    obtain ⟨given, told, after⟩ := stored
    obtain ⟨insertable, id, rfl, counted, kept⟩ := decided_ok consistent ended
    refine ⟨iff_of_true ⟨id, rfl⟩ insertable, ?_, ?_, ?_, ?_⟩
    · rintro _ ⟨⟩
      refine ⟨_, kept, ?_, counted⟩
      split
      · next known => exact OrderedMap.entries_insert_of_mem _ _ known
      · next fresh => exact OrderedMap.entries_insert_of_not_mem _ _ fresh
    · intro other
      refine iff_of_false ?_ fun refused => refused.not_insertable insertable
      rintro ⟨⟩
    · rintro _ ⟨⟩
    · rintro ⟨⟩

end Handle

namespace Shelved

open Idle

def title : PlainField := { name := "title", options := .ofList [("required", .bool true)] }

def shelf : PlainField where
  name := "shelf"
  options := .ofList [("default", .string "A")]
  validators := [.oneOf "shelves" [.string "A", .string "B"]]

def note : PlainField := { name := "note", options := .ofList [("default", .string "new")] }

def books : Handle :=
  ⟨⟨"main", 0⟩, { name := "books", fields := [.plain title, .plain shelf, .plain note] }⟩

/-- The table has one row. -/
def world : World Unit (Observed Unit Unit) :=
  ((Routine.define "main" books.definition fun _ =>
      .insert books.id (.ofList [("title", .string "Emma")]) fun _ => .finish (.ok ())).run
    callbacks start).2

/-- The id comes first and the note is null on purpose. -/
def values : Row := .ofList [("id", .ofUInt64 7), ("note", .null), ("title", .string "Persuasion")]

theorem proceeding_world : books.Proceeding callbacks .insert (fun _ => True) world :=
  .of_no_hooks fun timing => by
    have none : (world.decoration books).attached = [] := List.isEmpty_iff.1 (by decide +kernel)
    rw [Decoration.hooks, none, List.filterMap_nil]

/-- Of the defaults only the shelf is filled in, after what was given. -/
theorem insert_stores_shelved :
    books.definition.Consistent ∧ books.Proceeding callbacks .insert (fun _ => True) world ∧
    (books.insert callbacks values world).1 = .ok (some 7) ∧
    books.definition.Insertable world.isRow (world.storage books).rows.keys values ∧
    ∃ stored, ((books.insert callbacks values world).2.storage books).rows =
        (world.storage books).rows.insert 7 stored ∧
      stored.entries = [("id", .ofUInt64 7), ("note", .null), ("title", .string "Persuasion"),
        ("shelf", .string "A")] := by
  have consistent : books.definition.Consistent :=
    TableDefinition.consistent_of_faultless (by decide +kernel)
  have exact := Handle.insert_stores_iff consistent proceeding_world values
  have ran : (books.insert callbacks values world).1 = .ok (some 7) := by decide +kernel
  obtain ⟨stored, kept, entries, -⟩ := exact.2.2.2.1 7 ran
  exact ⟨consistent, proceeding_world, ran, exact.2.2.1.1 ⟨7, ran⟩, stored, kept, entries.trans rfl⟩

end Shelved
end SchemaCompiler
