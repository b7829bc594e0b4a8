import Mathlib.Logic.Relation
import SchemaCompiler.Proofs.QuietHooks

/-! The course that a command on rows takes. Insertions, updates and deletions are one kind of thing
here (`RowCommand`): each is refused by its checks, or has nothing to do, or goes through its stages
(`run_eq`). What hooks are called on the way, and what they answer, is told along with it: hooks of a
phase take turns, up to the first whose answer ends the phase (`CalledInTurn`). A command then has
seven ways to end, and every run of one takes one of them (`run_course`). To other tables than its own
a command does nothing itself (`run_elsewhere`). -/
namespace SchemaCompiler

open Effect

variable {κ ε α : Type}

/-! ## Commands -/

/-- A request to insert, update or delete rows, with the type of what it gives. -/
inductive RowCommand : Type → Type where
  | insert (values : Row) : RowCommand (Option UInt64)
  | update (ids : List UInt64) (values : Row) : RowCommand Nat
  | delete (ids : List UInt64) : RowCommand Nat

namespace RowCommand

def event : RowCommand α → Event
  | insert _ => .insert
  | update .. => .update
  | delete _ => .delete

/-- Carries the command out through a handle. -/
def run (callbacks : Callbacks κ ε) (handle : Handle) : RowCommand α → Action κ ε RowError α
  | insert values => handle.insert callbacks values
  | update ids values => handle.update callbacks ids values
  | delete ids => handle.delete callbacks ids

/-- What the command gives when it has not written. -/
def unwritten : RowCommand α → α
  | insert _ => none
  | update .. => 0
  | delete _ => 0

/-- What is left of a command whose checks are passed: what its before hooks are told, and its write,
which decides on the result and on what the after hooks are told. -/
structure Stages (α : Type) where
  asks : HookArgs
  write : Storage → Except RowError (α × HookArgs × Storage)

/-- The stages that lie before a command, given the rows at its start. There are none if its checks
refuse it, or if it selects no row. -/
def prepare (handle : Handle) (isRow : RowLookup) (rows : Storage) :
    RowCommand α → Except RowError (Option (Stages α))
  | insert values =>
    (handle.definition.admitInsertion isRow values).map fun admitted =>
      some ⟨.insert admitted.1, handle.insertion admitted.1 admitted.2⟩
  | update ids values =>
    (handle.definition.admitUpdate isRow values).map fun _ =>
      let known := rows.existing ids
      if known.isEmpty then none
      else some ⟨.update known values,
        fun rows => .ok (known.length, .update known values, rows.update known values)⟩
  | delete ids =>
    let known := rows.existing ids
    .ok <| if known.isEmpty then none
      else some ⟨.delete known, fun rows => .ok (known.length, .delete known, rows.delete known)⟩

theorem run_eq (callbacks : Callbacks κ ε) (handle : Handle) (command : RowCommand α)
    (world : World κ ε) :
    command.run callbacks handle world =
      match command.prepare handle world.isRow (world.storage handle) with
      | .error refusal => (.error refusal, world)
      | .ok none => (.ok command.unwritten, world)
      | .ok (some stages) =>
        handle.staged callbacks command.event stages.asks command.unwritten stages.write world := by
  cases command with
  | insert values =>
    rw [run, Handle.insert_run, prepare]
    cases handle.definition.admitInsertion world.isRow values <;> rfl
  | update ids values =>
    rw [run, Handle.update_run, prepare]
    cases handle.definition.admitUpdate world.isRow values with
    | error refusal => rfl
    | ok =>
      simp only [Except.map]
      cases ((world.storage handle).existing ids).isEmpty <;> rfl
  | delete ids =>
    rw [run, Handle.delete_run, prepare]
    dsimp only
    cases ((world.storage handle).existing ids).isEmpty <;> rfl

section Preparation

/-! Which commands have stages before them, and which. -/

variable {handle : Handle} {isRow : RowLookup} {rows : Storage} {ids : List UInt64} {values : Row}

theorem prepare_insert_iff {stages : Stages (Option UInt64)} :
    (insert values).prepare handle isRow rows = .ok (some stages) ↔
      ∃ row brought, handle.definition.admitInsertion isRow values = .ok (row, brought) ∧
        ⟨.insert row, handle.insertion row brought⟩ = stages := by
  rw [prepare, map_eq_ok_iff]
  simp

theorem prepare_update_iff {stages : Stages Nat} :
    (update ids values).prepare handle isRow rows = .ok (some stages) ↔
      let known := rows.existing ids
      handle.definition.admitUpdate isRow values = .ok () ∧ known ≠ [] ∧
        ⟨.update known values,
          fun rows => .ok (known.length, .update known values, rows.update known values)⟩ =
            stages := by
  rw [prepare, map_eq_ok_iff]
  constructor
  · rintro ⟨⟨⟩, admitted, ready⟩
    simpa [admitted] using ready
  · rintro ⟨admitted, known, rfl⟩
    exact ⟨(), admitted, by simp [known]⟩

theorem prepare_delete_iff {stages : Stages Nat} :
    (delete ids).prepare handle isRow rows = .ok (some stages) ↔
      let known := rows.existing ids
      known ≠ [] ∧ ⟨.delete known,
        fun rows => .ok (known.length, .delete known, rows.delete known)⟩ = stages := by
  rw [prepare]
  simp

end Preparation

/-- Without hooks a command is its checks and its write. -/
theorem run_unhooked (callbacks : Callbacks κ ε) {handle : Handle} {command : RowCommand α}
    {world : World κ ε}
    (none : ∀ timing, (world.decoration handle).hooks (.ofParts timing command.event) = []) :
    command.run callbacks handle world =
      match command.prepare handle world.isRow (world.storage handle) with
      | .error refusal => (.error refusal, world)
      | .ok .none => (.ok command.unwritten, world)
      | .ok (some stages) =>
        match stages.write (world.storage handle) with
        | .error refusal => (.error refusal, world)
        | .ok (value, _, rows) => (.ok value, world.setStorage handle rows) := by
  rw [run_eq]
  cases command.prepare handle world.isRow (world.storage handle) with
  | error refusal => rfl
  | ok ready =>
    cases ready with
    | none => rfl
    | some stages => exact Handle.staged_unhooked none stages.asks command.unwritten stages.write

end RowCommand

/-! ## Hooks that take turns -/

/-- A hook that was called, and what came of it. -/
structure HookCall (κ : Type) where
  hook : Hook κ
  outcome : Except CallbackError HookFlow

/-- Whether no hook is called any more at a phase after one has answered so. Before the write an abort
or a failure ends the calls, and after it a failure only. -/
def Timing.EndsAt : Timing → Except CallbackError HookFlow → Prop
  | .before, outcome => outcome ≠ .ok .proceed
  | .after, outcome => ∃ failure, outcome = .error failure

/-- Hooks are called one after the other, with the same arguments and each in the world that the one
before it left, up to and including the first that ends the calls. -/
inductive CalledInTurn (callbacks : Callbacks κ ε) (timing : Timing) (args : HookArgs) :
    List (Hook κ) → World κ ε → List (HookCall κ) → World κ ε → Prop where
  | none {world : World κ ε} : CalledInTurn callbacks timing args [] world [] world
  | last {hook : Hook κ} {rest : List (Hook κ)} {outcome : Except CallbackError HookFlow}
      {before after : World κ ε} (called : hook.call callbacks args before = (outcome, after))
      (ends : timing.EndsAt outcome) :
      CalledInTurn callbacks timing args (hook :: rest) before [⟨hook, outcome⟩] after
  | next {hook : Hook κ} {rest : List (Hook κ)} {outcome : Except CallbackError HookFlow}
      {calls : List (HookCall κ)} {before middle after : World κ ε}
      (called : hook.call callbacks args before = (outcome, middle))
      (goesOn : ¬ timing.EndsAt outcome)
      (later : CalledInTurn callbacks timing args rest middle calls after) :
      CalledInTurn callbacks timing args (hook :: rest) before (⟨hook, outcome⟩ :: calls) after

namespace CalledInTurn

variable {callbacks : Callbacks κ ε} {timing : Timing} {args : HookArgs} {hooks : List (Hook κ)}
  {calls : List (HookCall κ)} {before after : World κ ε}

/-- If no answer ends the calls, all hooks are called. -/
theorem all_called (turn : CalledInTurn callbacks timing args hooks before calls after)
    (goesOn : ∀ call ∈ calls, ¬ timing.EndsAt call.outcome) : calls.map HookCall.hook = hooks := by
  induction turn with
  | none => rfl
  | last called ends => exact absurd ends (goesOn _ List.mem_cons_self)
  | next called _ later ih =>
    rw [List.forall_mem_cons] at goesOn
    rw [List.map_cons, ih goesOn.2]

/-- Quiet hooks spare the table in turn. -/
theorem spared {handle : Handle} {event : Event} {within : World κ ε → Prop} {world : World κ ε}
    (quiet : handle.Quiet callbacks event within world) {phase : Timing}
    (turn : CalledInTurn callbacks timing args hooks before calls after)
    (listed : ∀ hook ∈ hooks, hook ∈ (world.decoration handle).hooks (.ofParts phase event))
    (inside : within before) : handle.Spared within before after := by
  induction turn with
  | none => exact .refl inside
  | last called _ =>
    have first := quiet.call (listed _ List.mem_cons_self) args inside
    rwa [called] at first
  | next called _ _ ih =>
    rw [List.forall_mem_cons] at listed
    have first := quiet.call listed.1 args inside
    rw [called] at first
    exact first.trans (ih listed.2 first.within)

end CalledInTurn

namespace Handle

variable (callbacks : Callbacks κ ε) (args : HookArgs)

/-- Before hooks take turns, and their last answer decides. -/
private theorem runBefore_inTurn (hooks : List (Hook κ)) (world : World κ ε) :
    ∃ calls, CalledInTurn callbacks .before args hooks world calls
        (runBefore callbacks args hooks world).2 ∧
      match (runBefore callbacks args hooks world).1 with
      | .error refusal =>
        ∃ failure, refusal = .callback failure ∧ ∃ call ∈ calls, call.outcome = .error failure
      | .ok true => ∃ call ∈ calls, call.outcome = .ok .abort
      | .ok false => ∀ call ∈ calls, call.outcome = .ok .proceed := by
  induction hooks generalizing world with
  | nil => exact ⟨[], .none, List.forall_mem_nil _⟩
  | cons hook rest ih =>
    rw [runBefore_cons]
    cases called : hook.call callbacks args world using outcome_cases with
    | error failure =>
      exact ⟨_, .last called (by rintro ⟨⟩), failure, rfl, _, List.mem_cons_self, rfl⟩
    | ok flow middle =>
      cases flow with
      | abort => exact ⟨_, .last called (by rintro ⟨⟩), _, List.mem_cons_self, rfl⟩
      | proceed =>
        obtain ⟨calls, turn, answered⟩ := ih middle
        refine ⟨_, .next called (fun ends => ends rfl) turn, ?_⟩
        dsimp only
        generalize (runBefore callbacks args rest middle).1 = result at answered ⊢
        match result with
        | .error refusal =>
          obtain ⟨failure, same, call, listed, failed⟩ := answered
          exact ⟨failure, same, call, List.mem_cons_of_mem _ listed, failed⟩
        | .ok true =>
          obtain ⟨call, listed, aborted⟩ := answered
          exact ⟨call, List.mem_cons_of_mem _ listed, aborted⟩
        | .ok false => exact List.forall_mem_cons.2 ⟨rfl, answered⟩

/-- After hooks take turns, and the one that fails decides. -/
private theorem runAfter_inTurn (hooks : List (Hook κ)) (world : World κ ε) :
    ∃ calls, CalledInTurn callbacks .after args hooks world calls
        (runAfter callbacks args hooks world).2 ∧
      match (runAfter callbacks args hooks world).1 with
      | .error refusal =>
        ∃ failure, refusal = .callback failure ∧ ∃ call ∈ calls, call.outcome = .error failure
      | .ok () => ∀ call ∈ calls, ∀ failure, call.outcome ≠ .error failure := by
  induction hooks generalizing world with
  | nil => exact ⟨[], .none, List.forall_mem_nil _⟩
  | cons hook rest ih =>
    rw [runAfter_cons]
    cases called : hook.call callbacks args world using outcome_cases with
    | error failure =>
      exact ⟨_, .last called ⟨failure, rfl⟩, failure, rfl, _, List.mem_cons_self, rfl⟩
    | ok flow middle =>
      obtain ⟨calls, turn, answered⟩ := ih middle
      refine ⟨_, .next called (by rintro ⟨failure, ⟨⟩⟩) turn, ?_⟩
      dsimp only
      generalize (runAfter callbacks args rest middle).1 = result at answered ⊢
      match result with
      | .error refusal =>
        obtain ⟨failure, same, call, listed, failed⟩ := answered
        exact ⟨failure, same, call, List.mem_cons_of_mem _ listed, failed⟩
      | .ok () =>
        refine List.forall_mem_cons.2 ⟨?_, answered⟩
        rintro failure ⟨⟩

end Handle

/-! ## Courses -/

namespace RowCommand

/-- The checks of a command are passed, and its before hooks are called. -/
structure Asked (callbacks : Callbacks κ ε) (handle : Handle) (command : RowCommand α)
    (world : World κ ε) (stages : Stages α) (asked : List (HookCall κ)) (middle : World κ ε) :
    Prop where
  checked : command.prepare handle world.isRow (world.storage handle) = .ok (some stages)
  turn : CalledInTurn callbacks .before stages.asks
    ((world.decoration handle).hooks (.ofParts .before command.event)) (world.hold handle) asked
    middle

/-- A command writes to the rows as they are by then, and its after hooks are called. -/
structure Told (callbacks : Callbacks κ ε) (handle : Handle) (command : RowCommand α)
    (stages : Stages α) (middle : World κ ε) (value : α) (tells : HookArgs) (rows : Storage)
    (told : List (HookCall κ)) (last : World κ ε) : Prop where
  written : stages.write (middle.storage handle) = .ok (value, tells, rows)
  turn : CalledInTurn callbacks .after tells
    ((middle.decoration handle).hooks (.ofParts .after command.event))
    (middle.setStorage handle rows) told last

/-- How a command goes: which hooks it calls before its write and after it, what it gives, and the
world it leaves. -/
inductive Course (callbacks : Callbacks κ ε) (handle : Handle) (command : RowCommand α)
    (world : World κ ε) :
    List (HookCall κ) → List (HookCall κ) → Except RowError α → World κ ε → Prop where
  /-- The checks refuse it. -/
  | refused {refusal : RowError}
      (checked : command.prepare handle world.isRow (world.storage handle) = .error refusal) :
      Course callbacks handle command world [] [] (.error refusal) world
  /-- It selects no row. -/
  | idle (checked : command.prepare handle world.isRow (world.storage handle) = .ok none) :
      Course callbacks handle command world [] [] (.ok command.unwritten) world
  /-- A before hook fails. -/
  | stopped {stages : Stages α} {asked : List (HookCall κ)} {middle : World κ ε}
      {failure : CallbackError}
      (asks : command.Asked callbacks handle world stages asked middle)
      (failed : ∃ call ∈ asked, call.outcome = .error failure) :
      Course callbacks handle command world asked [] (.error (.callback failure))
        (middle.release world)
  /-- A before hook aborts it. -/
  | aborted {stages : Stages α} {asked : List (HookCall κ)} {middle : World κ ε}
      (asks : command.Asked callbacks handle world stages asked middle)
      (aborts : ∃ call ∈ asked, call.outcome = .ok .abort) :
      Course callbacks handle command world asked [] (.ok command.unwritten) (middle.release world)
  /-- All before hooks let it proceed, and the write is refused. -/
  | barred {stages : Stages α} {asked : List (HookCall κ)} {middle : World κ ε} {refusal : RowError}
      (asks : command.Asked callbacks handle world stages asked middle)
      (proceeds : ∀ call ∈ asked, call.outcome = .ok .proceed)
      (refused : stages.write (middle.storage handle) = .error refusal) :
      Course callbacks handle command world asked [] (.error refusal) (middle.release world)
  /-- It has written, and then an after hook fails. -/
  | failed {stages : Stages α} {asked told : List (HookCall κ)} {middle last : World κ ε} {value : α}
      {args : HookArgs} {rows : Storage} {failure : CallbackError}
      (asks : command.Asked callbacks handle world stages asked middle)
      (proceeds : ∀ call ∈ asked, call.outcome = .ok .proceed)
      (tells : command.Told callbacks handle stages middle value args rows told last)
      (failed : ∃ call ∈ told, call.outcome = .error failure) :
      Course callbacks handle command world asked told (.error (.callback failure))
        (last.release world)
  /-- It has written, and no after hook fails. -/
  | finished {stages : Stages α} {asked told : List (HookCall κ)} {middle last : World κ ε}
      {value : α} {args : HookArgs} {rows : Storage}
      (asks : command.Asked callbacks handle world stages asked middle)
      (proceeds : ∀ call ∈ asked, call.outcome = .ok .proceed)
      (tells : command.Told callbacks handle stages middle value args rows told last)
      (unfailed : ∀ call ∈ told, ∀ failure, call.outcome ≠ .error failure) :
      Course callbacks handle command world asked told (.ok value) (last.release world)

/-- Every run of a command takes a course. -/
theorem run_course (callbacks : Callbacks κ ε) (handle : Handle) (command : RowCommand α)
    (world : World κ ε) :
    ∃ asked told, command.Course callbacks handle world asked told
      (command.run callbacks handle world).1 (command.run callbacks handle world).2 := by
  rw [run_eq]
  cases checked : command.prepare handle world.isRow (world.storage handle) with
  | error refusal => exact ⟨[], [], .refused checked⟩
  | ok ready =>
    cases ready with
    | none => exact ⟨[], [], .idle checked⟩
    | some stages =>
      obtain ⟨asked, asking, answered⟩ := Handle.runBefore_inTurn callbacks stages.asks
        ((world.decoration handle).hooks (.ofParts .before command.event)) (world.hold handle)
      dsimp only [Handle.staged]
      generalize Handle.runBefore callbacks stages.asks
        ((world.decoration handle).hooks (.ofParts .before command.event)) (world.hold handle) =
          before at asking answered ⊢
      cases before using outcome_cases with
      | error refusal middle =>
        obtain ⟨failure, rfl, failed⟩ := answered
        exact ⟨asked, [], .stopped ⟨checked, asking⟩ failed⟩
      | ok stopped middle =>
        cases stopped with
        | true => exact ⟨asked, [], .aborted ⟨checked, asking⟩ answered⟩
        | false =>
          dsimp only
          cases written : stages.write (middle.storage handle) with
          | error refusal => exact ⟨asked, [], .barred ⟨checked, asking⟩ answered written⟩
          | ok outcome =>
            obtain ⟨value, tells, rows⟩ := outcome
            obtain ⟨told, telling, ended⟩ := Handle.runAfter_inTurn callbacks tells
              ((middle.decoration handle).hooks (.ofParts .after command.event))
              (middle.setStorage handle rows)
            dsimp only
            generalize Handle.runAfter callbacks tells
              ((middle.decoration handle).hooks (.ofParts .after command.event))
              (middle.setStorage handle rows) = after at telling ended ⊢
            cases after using outcome_cases with
            | error refusal last =>
              obtain ⟨failure, rfl, failed⟩ := ended
              exact ⟨asked, told, .failed ⟨checked, asking⟩ answered ⟨written, telling⟩ failed⟩
            | ok => exact ⟨asked, told, .finished ⟨checked, asking⟩ answered ⟨written, telling⟩ ended⟩

/-! ## Other tables -/

/-- A hook that a command may call through a handle changes the rows of some table so. -/
def HookChange (callbacks : Callbacks κ ε) (handle : Handle) (event : Event)
    (within : World κ ε → Prop) (world : World κ ε) (database table : String)
    (rows later : Storage) : Prop :=
  ∃ timing, ∃ hook ∈ (world.decoration handle).hooks (.ofParts timing event), ∃ args now,
    within now ∧ rows = (now.database database).storage table ∧
      later = ((hook.call callbacks args now).2.database database).storage table

/-- Hooks that leave the rows of a table as they are do so in turn. -/
theorem unchanged_of_spared {callbacks : Callbacks κ ε} {handle : Handle} {event : Event}
    {within : World κ ε → Prop} {world : World κ ε} {database table : String} {rows later : Storage}
    (spared : ∀ rows later, HookChange callbacks handle event within world database table rows later →
      later = rows)
    (reached : Relation.ReflTransGen
      (HookChange callbacks handle event within world database table) rows later) :
    later = rows := by
  induction reached with
  | refl => rfl
  | tail _ change ih => exact (spared _ _ change).trans ih

/-- All that a command does to the rows of another table is what its hooks do to them. -/
theorem run_elsewhere {callbacks : Callbacks κ ε} {handle : Handle} {within : World κ ε → Prop}
    {world : World κ ε} (command : RowCommand α)
    (quiet : handle.Quiet callbacks command.event within world) {database table : String}
    (other : (database, table) ≠ (handle.database, handle.name)) :
    Relation.ReflTransGen
      (HookChange callbacks handle command.event within world database table)
      ((world.database database).storage table)
      (((command.run callbacks handle world).2.database database).storage table) := by
  rw [run_eq]
  cases command.prepare handle world.isRow (world.storage handle) with
  | error refusal => exact .refl
  | ok ready =>
    cases ready with
    | none => exact .refl
    | some stages =>
      have kept : ∃ after,
          (within after ∧ after.decoration handle = world.decoration handle ∧
            Relation.ReflTransGen
              (HookChange callbacks handle command.event within world database table)
              ((world.database database).storage table)
              ((after.database database).storage table)) ∧
          (handle.staged callbacks command.event stages.asks command.unwritten stages.write
            world).2 = after.release world := by
        refine Handle.staged_keeps ⟨quiet.start, rfl, .refl⟩ ?_ ?_
        · rintro now ⟨-, attached, -⟩ timing hook listed args later ⟨inside, kept, reached⟩
          rw [attached] at listed
          refine ⟨quiet.stays timing hook listed args later inside,
            (quiet.decoration timing hook listed args later inside).trans kept, reached.tail ?_⟩
          exact ⟨timing, hook, listed, args, later, inside, rfl, rfl⟩
        · rintro now ⟨inside, kept, reached⟩ value told rows -
          refine ⟨quiet.write now rows inside, World.decoration_setStorage.trans kept, ?_⟩
          rwa [World.rows_setStorage_of_ne other]
      obtain ⟨after, ⟨-, -, reached⟩, left⟩ := kept
      dsimp only
      rw [left]
      exact reached

end RowCommand
end SchemaCompiler
