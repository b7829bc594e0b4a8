import SchemaCompiler.Proofs.HookRoutines
import SchemaCompiler.Proofs.RowOrigins

/-! What stored rows hold. Each write is checked by the handle it is made through, and checks only
what it brings, so what holds of whole rows is said value by value: apart from the id, every value
of a stored row was admitted by some handle of its table (`Database.ValuesAdmitted`). As all handles
of a table lay it out in the same way, no other column is ever stored, and if they carry the same
validators, every value passes them (`stored_values_accepted`).

Required fields are looked at by insertions alone. So a stored row can lack one, but only after an
update that gave null for it (`required_value_lost_iff`). -/
namespace SchemaCompiler

variable {κ ε α : Type}

/-! ## Values and validators -/

/-- Every value of a stored row, other than its id, was admitted by a handle of the table. -/
def Database.ValuesAdmitted (db : Database κ) : Prop :=
  ∀ table id row column value, (db.storage table).rows.get? id = some row →
    row.get? column = some value → column ≠ idColumn →
      ∃ handle ∈ db.opened, handle.name = table ∧
        ∃ isRow, handle.definition.Admits isRow column value

theorem Database.Step.valuesAdmitted {name : String} {before after : Database κ}
    (sound : Database.Sound name before) (step : Database.Step name before after)
    (admitted : before.ValuesAdmitted) : after.ValuesAdmitted := by
  intro table id row column value found held other
  have stays : ∀ handle ∈ before.opened, handle ∈ after.opened :=
    fun handle made => step.opened.subset made
  cases step.rowOrigin found with
  | kept known =>
    obtain ⟨handle, made, own⟩ := admitted table id row column value known held other
    exact ⟨handle, stays handle made, own⟩
  | @inserted handle isRow values given brought opened own passed stored =>
    rw [stored, OrderedMap.get?_insert, if_neg (Ne.symm other)] at held
    have admits :=
      TableDefinition.admitInsertion_admits (sound.consistent handle opened) passed held other
    exact ⟨handle, stays handle opened, own, isRow, admits⟩
  | @updated handle isRow values old ids opened own passed written known named merged =>
    rw [merged] at held
    cases brought : values.get? column with
    | none =>
      rw [brought, Option.none_or] at held
      obtain ⟨handle, made, own⟩ := admitted table id old column value known held other
      exact ⟨handle, stays handle made, own⟩
    | some new =>
      rw [brought, Option.some_or] at held
      cases held
      have admits := (TableDefinition.admitUpdate_admits passed brought).2
      exact ⟨handle, stays handle opened, own, isRow, admits⟩

theorem Databases.Reachable.valuesAdmitted {databases : Databases κ}
    (reachable : Reachable databases) (name : String) : (databases name).ValuesAdmitted := by
  refine reachable.invariant (P := fun _ db => db.ValuesAdmitted) ?_ ?_ name
  · intro _ table id row column value found
    cases found
  · intro before earlier name after step admitted
    exact step.valuesAdmitted (earlier.sound name) admitted

/-- The validators of a stored column. -/
def TableDefinition.validators (definition : TableDefinition) (column : String) : List Validator :=
  match definition.field? column with
  | some (.plain field) => field.validators
  | _ => []

/-- All handles of a table carry the same validators, and these judge a value by itself. -/
structure Database.UniformValidators (db : Database κ) (table : String) : Prop where
  same : ∀ a ∈ db.opened, ∀ b ∈ db.opened, a.name = table → b.name = table →
    ∀ column, a.definition.validators column = b.definition.validators column
  pure : ∀ handle ∈ db.opened, handle.name = table →
    ∀ column, ∀ validator ∈ handle.definition.validators column, validator.isPure = true

/-- In every state of every run of definitions, insertions, updates and deletions, through any
handles and with whatever hooks do meanwhile: a column of a stored row is `id`, or else every handle
of the table has a stored field of that name and no other field of it. If all handles of the table
carry the same validators, each a function of the value alone, then these accept the value, whatever
other rows there are. -/
theorem stored_values_accepted (conduct : Conduct κ ε) (depth : Nat) (routine : Routine κ ε α)
    (own : ε) :
    let after := (routine.run (conduct.callbacks depth) { application := { own } }).2
    ∀ databases ∈ after.database :: after.application.seen, ∀ name table,
    ∀ handle ∈ (databases name).opened, handle.name = table →
    ∀ id row, ((databases name).storage table).rows.get? id = some row →
    ∀ column value, row.get? column = some value →
      column = idColumn ∨
      ∃ field, FieldDefinition.plain field ∈ handle.definition.fields ∧ field.name = column ∧
        (∀ other ∈ handle.definition.fields, other.name = column → other = .plain field) ∧
        ((databases name).UniformValidators table →
          ∀ validator ∈ field.validators, ∀ isRow, validator.check isRow value = .ok ()) := by
  intro after databases passed name table handle made named id row found column value held
  have reachable : Databases.Reachable databases :=
    Routine.run_reaches conduct depth routine _ rfl databases passed
  have sound := reachable.sound name
  by_cases other : column = idColumn
  · exact Or.inl other
  obtain ⟨writer, written, sameTable, isRow, field, declared, accepted⟩ :=
    reachable.valuesAdmitted name table id row column value found held other
  -- The handle that admitted the value lays the table out as the given one does.
  have layout := sound.agree written made (sameTable.trans named.symm)
  obtain ⟨listed, same⟩ := TableDefinition.mem_of_field? declared
  change field.name = column at same
  subst same
  obtain ⟨field', listed', same, -⟩ := layout.plain listed
  have consistent := sound.consistent handle made
  have declared' : handle.definition.field? field.name = some (.plain field') := by
    rw [← same]
    exact TableDefinition.field?_of_mem consistent listed'
  refine Or.inr ⟨field', listed', same, ?_, ?_⟩
  · intro rival rivalListed rivalNamed
    have found := TableDefinition.field?_of_mem consistent rivalListed
    rw [rivalNamed, declared'] at found
    exact (Option.some.inj found).symm
  · intro uniform validator carried now
    have carries : validator ∈ handle.definition.validators field.name := by
      rw [TableDefinition.validators, declared']
      exact carried
    rw [Validator.check_of_isPure (uniform.pure handle made named _ validator carries) now isRow]
    rw [← uniform.same writer written handle made sameTable named, TableDefinition.validators,
      declared] at carries
    exact accepted validator carries

namespace Painted

open Idle

/-- A column with a default and a validator. -/
def color : PlainField where
  name := "color"
  options := .ofList [("default", .string "red")]
  validators := [.oneOf "palette" [.string "red", .string "blue"]]

def paints : TableDefinition := { name := "paints", fields := [.plain color] }

/-- Two handles on one table. -/
def first : Handle := ⟨⟨"main", 0⟩, paints⟩

def second : Handle := ⟨⟨"main", 1⟩, paints⟩

/-- A row gets the default through one handle and another color through the other. -/
def paint : Routine Unit Unit Unit :=
  .insert first.id .empty fun _ =>
    .update second.id [1] (.ofList [("color", .string "blue")]) fun _ => .finish (.ok ())

def repaint : Routine Unit Unit Unit :=
  .define "main" paints fun _ => .define "main" paints fun _ => paint

def world : World Unit (Observed Unit Unit) := (repaint.run callbacks start).2

/-- The world in which the two handles are made. -/
def opened : World Unit (Observed Unit Unit) :=
  (defineTable "main" paints (defineTable "main" paints start.observe).2.observe).2

def row : Row := .ofList [("color", .string "blue"), (idColumn, .ofUInt64 1)]

private theorem database_world : world.database "main" =
    { opened.database "main" with
      storages := .ofList [("paints", { nextId := 2, rows := .ofList [(1, row)] })] } := by
  have begun : repaint.run callbacks start = paint.run callbacks opened := rfl
  rw [world, begun]
  rfl

theorem opened_world : (world.database "main").opened = [first, second] := by
  rw [database_world]
  rfl

private theorem uniform_world : (world.database "main").UniformValidators "paints" := by
  have validators (handle : Handle) (made : handle ∈ (world.database "main").opened) :
      handle.definition = paints := by
    rw [opened_world] at made
    simp only [List.mem_cons, List.not_mem_nil, or_false] at made
    rcases made with rfl | rfl <;> rfl
  constructor
  · intro a made b made' _ _ column
    rw [validators a made, validators b made']
  · intro handle made _ column validator carried
    rw [validators handle made] at carried
    by_cases own : "color" = column
    · subst own
      have single : validator = .oneOf "palette" [.string "red", .string "blue"] := by
        simpa [TableDefinition.validators, TableDefinition.field?, paints, color,
          FieldDefinition.name] using carried
      rw [single]
      rfl
    · simp [TableDefinition.validators, TableDefinition.field?, paints, color,
        FieldDefinition.name, own] at carried

/-- The color that was set through the second handle passes the validators of the first. -/
theorem stored_values_accepted_painted :
    (world.database "main").UniformValidators "paints" ∧
    ((world.database "main").storage "paints").rows.get? 1 = some row ∧
    row.get? "color" = some (.string "blue") ∧
      ∃ field, FieldDefinition.plain field ∈ first.definition.fields ∧ field.name = "color" ∧
        ∀ validator ∈ field.validators, ∀ isRow, validator.check isRow (.string "blue") = .ok () := by
  have found : ((world.database "main").storage "paints").rows.get? 1 = some row := by
    rw [database_world]
    rfl
  have made : first ∈ (world.database "main").opened := by
    rw [opened_world]
    exact List.mem_cons_self
  have accepted := stored_values_accepted conduct 1 repaint () _ List.mem_cons_self "main"
    "paints" first made rfl 1 row found "color" (.string "blue") rfl
  obtain ⟨field, listed, named, -, passes⟩ := accepted.resolve_left (by decide)
  exact ⟨uniform_world, found, rfl, field, listed, named, passes uniform_world⟩

end Painted

/-! ## Required fields -/

/-- The step from one state of the databases to the other is an update that was admitted and gives
null for a column of a stored row. -/
def Databases.Nulls (name table column : String) (id : UInt64) (before after : Databases κ) : Prop :=
  ∃ (handle : Handle) (isRow : RowLookup) (ids : List UInt64) (values : Row),
    handle ∈ (before name).opened ∧ handle.name = table ∧
    handle.definition.admitUpdate isRow values = .ok () ∧
    after = Function.update before name
      ((before name).setStorage table (((before name).storage table).update ids values)) ∧
    values.get? column = some .null ∧ id ∈ ids ∧
    id ∈ ((before name).storage table).rows.keys

/-- Such an update was made at some time on the way to the databases. -/
def Databases.EverNulled (name table column : String) (id : UInt64) (databases : Databases κ) :
    Prop :=
  ∃ earlier later, Reachable earlier ∧ Nulls name table column id earlier later ∧
    Reaches later databases

/-- A stored row has a value other than null in a column, unless an update has nulled it. -/
def Databases.KeptUnlessNulled (name table column : String) (id : UInt64) (row : Row)
    (databases : Databases κ) : Prop :=
  (row.valueAt column).isNull = false ∨ EverNulled name table column id databases

namespace Databases

variable {name table column : String} {id : UInt64} {row : Row} {before after : Databases κ}

theorem EverNulled.step (nulled : EverNulled name table column id before) (taken : Step before after) :
    EverNulled name table column id after := by
  obtain ⟨earlier, later, reachable, nulls, reaches⟩ := nulled
  exact ⟨earlier, later, reachable, nulls, reaches.tail taken⟩

/-- An update that gives null for a column of a stored row is written as it says. -/
theorem Nulls.written (nulls : Nulls name table column id before after) :
    ∃ row, ((after name).storage table).rows.get? id = some row ∧ row.get? column = some .null := by
  obtain ⟨handle, isRow, ids, values, -, -, -, rfl, given, named, listed⟩ := nulls
  rw [Function.update_self, Database.storage_setStorage_self, Storage.get?_update]
  cases known : ((before name).storage table).rows.get? id with
  | none => exact absurd listed ((OrderedMap.get?_eq_none_iff _ _).1 known)
  | some row =>
    refine ⟨_, rfl, ?_⟩
    have some : ids.count id ≠ 0 := fun none => absurd named (List.count_eq_zero.1 none)
    rw [Row.get?_iterate_merge, if_neg some, given, Option.some_or]

/-- Each required field of a handle is kept by the rows of its table, unless an update nulls it. -/
def RequiredKept (databases : Databases κ) : Prop :=
  ∀ name table id row, ((databases name).storage table).rows.get? id = some row →
    ∃ handle ∈ (databases name).opened, handle.name = table ∧
      ∀ field, FieldDefinition.plain field ∈ handle.definition.fields → field.isRequired = true →
        KeptUnlessNulled name table field.name id row databases

theorem RequiredKept.step (reachable : Reachable before) (kept : RequiredKept before)
    (taken : Step before after) : RequiredKept after := by
  intro name table id row found
  have stays (handle : Handle) (made : handle ∈ (before name).opened) :
      handle ∈ (after name).opened := Reaches.opened (.single taken) made
  have later (column : String) (row : Row)
      (earlier : KeptUnlessNulled name table column id row before) :
      KeptUnlessNulled name table column id row after := earlier.imp_right fun nulled => nulled.step taken
  have as_before (known : ((before name).storage table).rows.get? id = some row) :
      ∃ handle ∈ (after name).opened, handle.name = table ∧
        ∀ field, FieldDefinition.plain field ∈ handle.definition.fields → field.isRequired = true →
          KeptUnlessNulled name table field.name id row after := by
    obtain ⟨handle, made, own, required⟩ := kept name table id row known
    exact ⟨handle, stays handle made, own, fun field declared asked =>
      later _ row (required field declared asked)⟩
  have step := taken
  obtain ⟨changed, db, made, written⟩ := step
  by_cases same : name = changed
  · subst same
    rw [written, Function.update_self] at found
    cases made.rowOrigin found with
    | kept known => exact as_before known
    | @inserted handle isRow values given brought opened own passed stored =>
      refine ⟨handle, stays handle opened, own, fun field declared asked => Or.inl ?_⟩
      have present := TableDefinition.admitInsertion_required passed declared asked
      rw [stored, Row.valueAt, OrderedMap.get?_insert]
      split
      · rfl
      · exact present
    | @updated handle isRow values old ids opened own passed changed known named merged =>
      obtain ⟨writer, writerMade, writerOwn, required⟩ := kept name table id old known
      refine ⟨writer, stays writer writerMade, writerOwn, fun field declared asked => ?_⟩
      unfold KeptUnlessNulled Row.valueAt
      rw [merged]
      cases given : values.get? field.name with
      | none => exact later _ old (required field declared asked)
      | some value =>
        cases value with
        | null =>
          have listed : id ∈ ((before name).storage table).rows.keys :=
            (OrderedMap.mem_keys_iff _).2 ⟨old, known⟩
          refine Or.inr ⟨before, after, reachable, ?_, .refl⟩
          exact ⟨handle, isRow, ids, values, opened, own, passed, changed ▸ written, given, named, listed⟩
        | _ => exact Or.inl rfl
  · rw [written, Function.update_of_ne same] at found
    exact as_before found

theorem Reachable.requiredKept {databases : Databases κ} (reachable : Reachable databases) :
    RequiredKept databases := by
  induction reachable with
  | refl =>
    intro name table id row found
    cases found
  | tail earlier taken ih => exact ih.step earlier taken

end Databases

/-- In every state of every run of definitions, insertions, updates and deletions, through any
handles and with whatever hooks do meanwhile: a stored row that lacks a value for a required field
of a handle of its table got null there from an update, at some earlier step of the run, and no
other operation does that. Whenever an update gives null for a column of a stored row, required or
not, the row lacks the value from then on. -/
theorem required_value_lost_iff (conduct : Conduct κ ε) (depth : Nat) (routine : Routine κ ε α)
    (own : ε) :
    let after := (routine.run (conduct.callbacks depth) { application := { own } }).2
    (∀ databases ∈ after.database :: after.application.seen, ∀ name table,
      ∀ handle ∈ (databases name).opened, handle.name = table →
      ∀ field, FieldDefinition.plain field ∈ handle.definition.fields → field.isRequired = true →
      ∀ id row, ((databases name).storage table).rows.get? id = some row →
        (row.valueAt field.name).isNull = true →
        Databases.EverNulled name table field.name id databases) ∧
    ∀ (before now : Databases κ) name table column id,
      Databases.Nulls name table column id before now →
        ∃ row, ((now name).storage table).rows.get? id = some row ∧
          (row.valueAt column).isNull = true := by
  intro after
  constructor
  · intro databases passed name table handle made named field declared required id row found lacks
    have reachable : Databases.Reachable databases :=
      Routine.run_reaches conduct depth routine _ rfl databases passed
    obtain ⟨writer, written, sameTable, kept⟩ := reachable.requiredKept name table id row found
    have layout := (reachable.sound name).agree made written (named.trans sameTable.symm)
    obtain ⟨other, listed, same, required'⟩ := layout.plain declared
    have here := kept other listed (required'.trans required)
    rw [same] at here
    rcases here with present | nulled
    · rw [lacks] at present
      cases present
    · exact nulled
  · intro before now name table column id nulls
    obtain ⟨row, found, null⟩ := nulls.written
    refine ⟨row, found, ?_⟩
    rw [Row.valueAt, null]
    rfl

namespace Blanked

open Idle

/-- A table of one column, which is required. -/
def text : PlainField := { name := "text", options := .ofList [("required", .bool true)] }

def notes : Handle := ⟨⟨"main", 0⟩, { name := "notes", fields := [.plain text] }⟩

/-- A row is stored with its text, and an update takes that away. -/
def blank : Routine Unit Unit Unit :=
  .define "main" notes.definition fun _ =>
    .insert notes.id (.ofList [("text", .string "kept")]) fun _ =>
      .update notes.id [1] (.ofList [("text", .null)]) fun _ => .finish (.ok ())

def world : World Unit (Observed Unit Unit) :=
  (blank.run callbacks start).2

theorem opened_world : notes ∈ (world.database "main").opened := by
  have opened : (world.database "main").opened = [notes] := rfl
  rw [opened]
  exact List.mem_cons_self

private theorem blank_row :
    ∃ row, ((world.database "main").storage "notes").rows.get? 1 = some row ∧
      (row.valueAt "text").isNull = true :=
  (Option.any_eq_true _ _).1 (by decide +kernel)

/-- A stored row lacks the required text, although no row can be inserted without one. -/
theorem update_blanks_required :
    Databases.Reachable world.database ∧ notes ∈ (world.database "main").opened ∧
    FieldDefinition.plain text ∈ notes.definition.fields ∧ text.isRequired = true ∧
    (∃ row, ((world.database "main").storage "notes").rows.get? 1 = some row ∧
      (row.valueAt "text").isNull = true) ∧
    (notes.insert callbacks .empty world).1 =
      .error (.validation "notes" "text" "required" "value is required") := by
  have passed := Routine.run_reaches conduct 1 blank start rfl
  exact ⟨passed _ List.mem_cons_self, opened_world, List.mem_cons_self, by decide, blank_row,
    by decide +kernel⟩

/-- It was the update that took the text away. -/
theorem required_value_lost_blanked :
    notes ∈ (world.database "main").opened ∧ text.isRequired = true ∧
    (∃ row, ((world.database "main").storage "notes").rows.get? 1 = some row ∧
      (row.valueAt "text").isNull = true) ∧
    Databases.EverNulled "main" "notes" "text" 1 world.database := by
  obtain ⟨row, found, lacks⟩ := blank_row
  have lost := required_value_lost_iff conduct 1 blank ()
  refine ⟨opened_world, by decide, ⟨row, found, lacks⟩, ?_⟩
  exact lost.1 _ List.mem_cons_self "main" "notes" notes opened_world rfl text List.mem_cons_self
    (by decide) 1 row found lacks

end Blanked
end SchemaCompiler
