import SchemaCompiler.Proofs.CommandRuns
import SchemaCompiler.Proofs.InsertedRows
import SchemaCompiler.Proofs.RowIds

/-! Which hooks a command calls, with what, and in which order. What the hooks are told and when the
write goes through is said of the command, apart from its run: `asks`, `KeyFree`, `Writes`. If hooks
do not touch the table, a command that passes its checks and selects a row calls its before hooks in
turn, writes exactly if they all proceed and its key is free, and only then calls its after hooks in
turn (`hooks_called_in_turn`). A command that does not get so far calls none. -/
namespace SchemaCompiler

open Effect

variable {κ ε α : Type}

namespace RowCommand

/-! ## What a command is about -/

/-- The checks pass, and there is a row to insert, update or delete. -/
def Goes (handle : Handle) (isRow : RowLookup) (rows : Storage) : RowCommand α → Prop
  | insert values => ∃ admitted, handle.definition.admitInsertion isRow values = .ok admitted
  | update ids values =>
    handle.definition.admitUpdate isRow values = .ok () ∧ ∃ id ∈ ids, id ∈ rows.rows.keys
  | delete ids => ∃ id ∈ ids, id ∈ rows.rows.keys

/-- What the hooks before the write are told: the new row with its defaults and no id, or the ids that
key a row, with the values if there are any. -/
def asks (handle : Handle) (rows : Storage) : RowCommand α → HookArgs
  | insert values => ⟨some (handle.definition.withDefaults values), []⟩
  | update ids values => ⟨some values, rows.existing ids⟩
  | delete ids => ⟨none, rows.existing ids⟩

/-- The id that an insertion brings is free. The others bring none. -/
def KeyFree (handle : Handle) (rows : Storage) : RowCommand α → Prop
  | insert values => ∀ id, (handle.definition.withDefaults values).get? idColumn =
      some (.ofUInt64 id) → id ∉ rows.rows.keys
  | update .. | delete _ => True

/-- What a command gives, tells the hooks after its write, and makes of the rows. An insertion tells
the row as it is stored and its id alone; the others tell what they have asked. -/
def Writes (handle : Handle) (rows : Storage) : RowCommand α → α → HookArgs → Storage → Prop
  | insert values, given, tells, after => ∃ id,
      let stored := (handle.definition.withDefaults values).insert idColumn (.ofUInt64 id)
      given = some id ∧ tells = ⟨some stored, [id]⟩ ∧ after.rows = rows.rows.insert id stored
  | update ids values, count, tells, after =>
      count = (rows.existing ids).length ∧ tells = ⟨some values, rows.existing ids⟩ ∧
        after = rows.update (rows.existing ids) values
  | delete ids, count, tells, after =>
      count = (rows.existing ids).length ∧ tells = ⟨none, rows.existing ids⟩ ∧
        after = rows.delete (rows.existing ids)

variable {handle : Handle} {command : RowCommand α} {isRow : RowLookup} {rows : Storage}
  {stages : Stages α}

/-- Some row is selected if and only if one of the ids keys a row. -/
theorem existing_ne_nil_iff {ids : List UInt64} :
    rows.existing ids ≠ [] ↔ ∃ id ∈ ids, id ∈ rows.rows.keys := by
  simp [Storage.existing, OrderedMap.contains_iff_mem_keys]

/-- A command has stages before it if and only if it goes. -/
theorem goes_iff : command.Goes handle isRow rows ↔
    ∃ stages, command.prepare handle isRow rows = .ok (some stages) := by
  cases command with
  | insert values =>
    simp only [Goes, prepare_insert_iff]
    constructor
    · rintro ⟨⟨row, brought⟩, admitted⟩
      exact ⟨_, row, brought, admitted, rfl⟩
    · rintro ⟨_, row, brought, admitted, -⟩
      exact ⟨_, admitted⟩
  | update ids values =>
    rw [Goes, ← existing_ne_nil_iff]
    simp only [prepare_update_iff]
    constructor
    · rintro ⟨admitted, known⟩
      exact ⟨_, admitted, known, rfl⟩
    · rintro ⟨_, admitted, known, -⟩
      exact ⟨admitted, known⟩
  | delete ids =>
    rw [Goes, ← existing_ne_nil_iff]
    simp only [prepare_delete_iff]
    constructor
    · intro known
      exact ⟨_, known, rfl⟩
    · rintro ⟨_, known, -⟩
      exact known

variable (rows) in
/-- The write of an insertion is refused if and only if it brings an id that is taken. -/
private theorem insertion_refused_iff {values : Row} {brought : Option UInt64}
    (shape : handle.definition.broughtId (handle.definition.withDefaults values) = .ok brought) :
    (∃ refusal, handle.insertion (handle.definition.withDefaults values) brought rows =
      .error refusal) ↔ ¬ (insert values).KeyFree handle rows := by
  simp only [Handle.insertion_error_iff, KeyFree, not_forall, not_not]
  constructor
  · rintro ⟨refusal, id, rfl, taken, -⟩
    exact ⟨id, (TableDefinition.broughtId_some_iff.1 shape).1, taken⟩
  · rintro ⟨id, given, taken⟩
    cases brought with
    | none => cases TableDefinition.broughtId_none_iff.1 shape _ given
    | some other =>
      have same := (TableDefinition.broughtId_some_iff.1 shape).1
      rw [given, Option.some.injEq, Json.ofUInt64_inj] at same
      exact ⟨_, id, congrArg some same.symm, taken, rfl⟩

/-- What the stages of a command are. -/
theorem prepared (ready : command.prepare handle isRow rows = .ok (some stages)) :
    stages.asks = command.asks handle rows ∧
      match stages.write rows with
      | .error refusal => ¬ command.KeyFree handle rows ∧ ∃ id, refusal = .duplicateKey handle.name id
      | .ok (value, tells, after) =>
        command.KeyFree handle rows ∧ command.Writes handle rows value tells after := by
  cases command with
  | insert values =>
    obtain ⟨row, brought, admitted, rfl⟩ := prepare_insert_iff.1 ready
    obtain ⟨-, rfl, -, -, shape⟩ := TableDefinition.admitInsertion_ok_iff.1 admitted
    refine ⟨rfl, ?_⟩
    have refused_iff := insertion_refused_iff rows shape
    dsimp only
    cases written : handle.insertion (handle.definition.withDefaults values) brought rows with
    | error refusal =>
      obtain ⟨id, -, -, rfl⟩ := Handle.insertion_error_iff.1 written
      exact ⟨refused_iff.1 ⟨_, written⟩, id, rfl⟩
    | ok outcome =>
      obtain ⟨value, tells, after⟩ := outcome
      rw [written] at refused_iff
      obtain ⟨id, stored, filed, rfl, rfl⟩ := Handle.insertion_ok_iff.1 written
      obtain ⟨-, rfl, kept⟩ := Storage.insert_ok_iff.1 filed
      refine ⟨?_, id, rfl, rfl, kept⟩
      by_contra taken
      obtain ⟨_, ⟨⟩⟩ := refused_iff.2 taken
  | update ids values =>
    obtain ⟨-, -, rfl⟩ := prepare_update_iff.1 ready
    exact ⟨rfl, trivial, rfl, rfl, rfl⟩
  | delete ids =>
    obtain ⟨-, rfl⟩ := prepare_delete_iff.1 ready
    exact ⟨rfl, trivial, rfl, rfl, rfl⟩

/-! ## The turns -/

variable {callbacks : Callbacks κ ε} {within : World κ ε → Prop} {world : World κ ε}

section Quiet

variable {asked told : List (HookCall κ)} {middle last : World κ ε} {value : α} {tells : HookArgs}
  {rows : Storage}

theorem Asked.spared (quiet : handle.Quiet callbacks command.event within world)
    (asks : command.Asked callbacks handle world stages asked middle) :
    handle.Spared within (world.hold handle) middle :=
  asks.turn.spared quiet (fun _ listed => listed) quiet.start

/-- The write is refused exactly if the key was not free at the start, and for that. -/
theorem Asked.written (quiet : handle.Quiet callbacks command.event within world)
    (asks : command.Asked callbacks handle world stages asked middle) :
    match stages.write (middle.storage handle) with
    | .error refusal => ¬ command.KeyFree handle (world.storage handle) ∧
        ∃ id, refusal = .duplicateKey handle.name id
    | .ok (value, tells, after) => command.KeyFree handle (world.storage handle) ∧
        command.Writes handle (world.storage handle) value tells after := by
  have same : middle.storage handle = world.storage handle := (asks.spared quiet).rows
  rw [same]
  exact (prepared asks.checked).2

/-- What has been written is what the command leaves. -/
theorem Told.spared (quiet : handle.Quiet callbacks command.event within world)
    (asks : command.Asked callbacks handle world stages asked middle)
    (tell : command.Told callbacks handle stages middle value tells rows told last) :
    (last.release world).storage handle = rows := by
  have spared := asks.spared quiet
  have attached : middle.decoration handle = world.decoration handle := spared.decoration
  have turn := tell.turn
  rw [attached] at turn
  exact (turn.spared quiet (fun _ listed => listed) (quiet.write middle rows spared.within)).rows.trans
    World.storage_setStorage_self

/-- The turns that a command takes which goes. It leaves the rows as they were or as it has written
them. -/
private theorem Course.in_turn (quiet : handle.Quiet callbacks command.event within world)
    {result : Except RowError α} {later : World κ ε}
    (course : command.Course callbacks handle world asked told result later)
    (goes : command.Goes handle world.isRow (world.storage handle)) :
    let before := world.storage handle
    let hooks := fun timing => (world.decoration handle).hooks (.ofParts timing command.event)
    let after := later.storage handle
    ∃ middle,
      CalledInTurn callbacks .before (command.asks handle before) (hooks .before) (world.hold handle)
        asked middle ∧
      let writes := (∀ call ∈ asked, call.outcome = .ok .proceed) ∧ command.KeyFree handle before
      (¬ writes → told = [] ∧ later = middle.release world ∧ after = before) ∧
      (writes → ∃ value tells last, command.Writes handle before value tells after ∧
        CalledInTurn callbacks .after tells (hooks .after) (middle.setStorage handle after) told last ∧
        later = last.release world ∧
        (result = .ok value ↔ ∀ call ∈ told, ∀ failure, call.outcome ≠ .error failure)) := by
  intro before hooks after
  obtain ⟨stages, ready⟩ := goes_iff.1 goes
  have turn {stages middle} (asks : command.Asked callbacks handle world stages asked middle) :
      CalledInTurn callbacks .before (command.asks handle before) (hooks .before) (world.hold handle)
        asked middle := (prepared asks.checked).1 ▸ asks.turn
  have attached {stages middle} (asks : command.Asked callbacks handle world stages asked middle) :
      (fun timing => (middle.decoration handle).hooks (.ofParts timing command.event)) = hooks :=
    congrArg (fun decoration timing => Decoration.hooks decoration (.ofParts timing command.event))
      (asks.spared quiet).decoration
  cases course with
  | refused checked =>
    rw [checked] at ready
    cases ready
  | idle checked =>
    rw [checked] at ready
    cases ready
  | @stopped _ _ middle _ asks failed =>
    refine ⟨middle, turn asks, fun _ => ⟨rfl, rfl, (asks.spared quiet).rows⟩, fun writes => ?_⟩
    obtain ⟨call, listed, outcome⟩ := failed
    rw [writes.1 call listed] at outcome
    cases outcome
  | @aborted _ _ middle asks aborts =>
    refine ⟨middle, turn asks, fun _ => ⟨rfl, rfl, (asks.spared quiet).rows⟩, fun writes => ?_⟩
    obtain ⟨call, listed, outcome⟩ := aborts
    rw [writes.1 call listed] at outcome
    cases outcome
  | @barred _ _ middle _ asks proceeds refused =>
    refine ⟨middle, turn asks, fun _ => ⟨rfl, rfl, (asks.spared quiet).rows⟩, fun writes => ?_⟩
    have taken := asks.written quiet
    rw [refused] at taken
    exact absurd writes.2 taken.1
  | @failed stages _ _ middle last value args rows failure asks proceeds tells failed =>
    have wrote := asks.written quiet
    rw [tells.written] at wrote
    have left : after = rows := tells.spared quiet asks
    refine ⟨middle, turn asks, fun unwritten => absurd ⟨proceeds, wrote.1⟩ unwritten, fun _ => ?_⟩
    refine ⟨value, args, last, left ▸ wrote.2, ?_, rfl, ?_⟩
    · rw [left, ← attached asks]
      exact tells.turn
    · obtain ⟨call, listed, outcome⟩ := failed
      exact iff_of_false (by rintro ⟨⟩) fun unfailed => unfailed call listed failure outcome
  | @finished stages _ _ middle last value args rows asks proceeds tells unfailed =>
    have wrote := asks.written quiet
    rw [tells.written] at wrote
    have left : after = rows := tells.spared quiet asks
    refine ⟨middle, turn asks, fun unwritten => absurd ⟨proceeds, wrote.1⟩ unwritten, fun _ => ?_⟩
    refine ⟨value, args, last, left ▸ wrote.2, ?_, rfl, iff_of_true rfl unfailed⟩
    rw [left, ← attached asks]
    exact tells.turn

end Quiet

theorem Course.unasked {asked told : List (HookCall κ)} {result : Except RowError α}
    {later : World κ ε} (course : command.Course callbacks handle world asked told result later)
    (stays : ¬ command.Goes handle world.isRow (world.storage handle)) :
    asked = [] ∧ told = [] ∧ later = world := by
  cases course with
  | refused => exact ⟨rfl, rfl, rfl⟩
  | idle => exact ⟨rfl, rfl, rfl⟩
  | stopped asks | aborted asks | barred asks | failed asks | finished asks =>
    exact absurd (goes_iff.2 ⟨_, asks.checked⟩) stays

/-- Which hooks a command calls that do not touch its table, for every command through every handle,
any number of hooks at each phase and any answers they give.

A command that its checks refuse, or that selects no row, calls no hook and changes nothing. Any other
tells each before hook in the order of attachment the same, up to the first that aborts it or fails.
It writes exactly if none does and its key is free. Only then are the after hooks told what was
written, each the same, in the order of attachment and up to the first that fails. They do not undo
the write, and the command gives its result exactly if none of them fails. -/
theorem hooks_called_in_turn (command : RowCommand α)
    (quiet : handle.Quiet callbacks command.event within world) :
    let before := world.storage handle
    let hooks := fun timing => (world.decoration handle).hooks (.ofParts timing command.event)
    let run := command.run callbacks handle world
    let after := run.2.storage handle
    ∃ asked told, command.Course callbacks handle world asked told run.1 run.2 ∧
      (¬ command.Goes handle world.isRow before → asked = [] ∧ told = [] ∧ run.2 = world) ∧
      (command.Goes handle world.isRow before → ∃ middle,
        CalledInTurn callbacks .before (command.asks handle before) (hooks .before)
          (world.hold handle) asked middle ∧
        let writes := (∀ call ∈ asked, call.outcome = .ok .proceed) ∧ command.KeyFree handle before
        (¬ writes → told = [] ∧ run.2 = middle.release world ∧ after = before) ∧
        (writes → ∃ value tells last, command.Writes handle before value tells after ∧
          CalledInTurn callbacks .after tells (hooks .after) (middle.setStorage handle after) told
            last ∧
          run.2 = last.release world ∧
          (run.1 = .ok value ↔ ∀ call ∈ told, ∀ failure, call.outcome ≠ .error failure))) := by
  obtain ⟨asked, told, course⟩ := command.run_course callbacks handle world
  exact ⟨asked, told, course, course.unasked, course.in_turn quiet⟩

end RowCommand

namespace Noting

/-- Hooks that write their names down and which ids they were told. The ones named `veto` abort, and
the ones named `fail` fail. -/
def callbacks : Callbacks String (List (String × List UInt64)) :=
  { Callbacks.refused String (List (String × List UInt64)) with
    hook := fun name args world =>
      (if name = "veto" then .ok .abort else if name = "fail" then .error ⟨"failed"⟩ else .ok .proceed,
        { world with application := world.application ++ [(name, args.ids)] }) }

def notes : Handle := Wrapping.notes

/-- Defines the table, inserts three rows and then attaches hooks. -/
def world (attached : List (Phase × String)) : World String (List (String × List UInt64)) :=
  let defined := (defineTable "main" notes.definition { application := [] }).2
  let filled := ["first", "second", "third"].foldl
    (fun world text => (notes.insert callbacks (.ofList [("text", .string text)]) world).2) defined
  attached.foldl
    (fun world entry => world.decorate notes fun decoration =>
      decoration.attach entry.1 ⟨world.hooksMade, .call entry.2⟩)
    filled

theorem databases_call (hook : Hook String) (args : HookArgs)
    (now : World String (List (String × List UInt64))) :
    (hook.call callbacks args now).2.databases = now.databases := by
  unfold Hook.call
  cases hook.action with
  | call | observe => rfl
  | bound callback table phase =>
    dsimp only
    rw [bind_run, get_run]
    dsimp only
    split <;> rfl

theorem quiet_world (attached : List (Phase × String)) (event : Event) :
    notes.Quiet callbacks event (fun _ => True) (world attached) :=
  .of_databases_kept databases_call

/-- An abort does not end the calls after the write, and a failure does. -/
theorem told_up_to_failure :
    let world := world [(.beforeDelete, "check"), (.afterDelete, "veto"), (.afterDelete, "fail"),
      (.afterDelete, "never")]
    let run := (RowCommand.delete [1]).run callbacks notes world
    notes.Quiet callbacks .delete (fun _ => True) world ∧
    (RowCommand.delete [1]).Goes notes world.isRow (world.storage notes) ∧
    run.2.application = [("check", [1]), ("veto", [1]), ("fail", [1])] ∧
    ∃ middle told last, run.2 = World.release last world ∧
      CalledInTurn callbacks .after (.delete [1]) ((world.decoration notes).hooks .afterDelete)
        (World.setStorage middle notes (run.2.storage notes)) told last := by
  intro world run
  have quiet : notes.Quiet callbacks .delete (fun _ => True) world := quiet_world _ .delete
  have goes : (RowCommand.delete [1]).Goes notes world.isRow (world.storage notes) :=
    ⟨1, by decide, by decide +kernel⟩
  refine ⟨quiet, goes, by decide +kernel, ?_⟩
  obtain ⟨asked, told, -, -, turns⟩ := RowCommand.hooks_called_in_turn (.delete [1]) quiet
  obtain ⟨middle, -, unwritten, written⟩ := turns goes
  by_cases writes : (∀ call ∈ asked, call.outcome = .ok .proceed) ∧
      (RowCommand.delete [1]).KeyFree notes (world.storage notes)
  · obtain ⟨_, _, last, ⟨-, rfl, -⟩, telling, left, -⟩ := written writes
    exact ⟨middle, told, last, left, telling⟩
  · have kept := congrArg (·.rows.keys) (unwritten writes).2.2
    exact absurd kept (by decide +kernel)

end Noting
end SchemaCompiler
