import SchemaCompiler.Proofs.HookTurns

/-! What a command leaves that does not get to its end. The write is a single step, so the rows are
those of the start or those that the command leaves when nothing is attached to its handle
(`World.unhooked`): the latter if it is an after hook that fails. The error itself tells how far a
command came that was refused: `RowError.OfRequest` for one that no hook was asked about, and a
duplicate key for one that all before hooks let proceed (`command_interrupted`). -/
namespace SchemaCompiler

open Effect

variable {κ ε α : Type}

/-- The errors that a request itself is refused with, whatever the rows and the hooks. -/
def RowError.OfRequest : RowError → Prop
  | unknownColumn .. | keyUpdate _ | validation .. | invalidId .. => True
  | rowNotFound .. | duplicateKey .. | unknownMethod .. | callback _ => False

/-- One of the hooks that were called has failed with this error. -/
def RaisedIn (calls : List (HookCall κ)) (refusal : RowError) : Prop :=
  ∃ call ∈ calls, ∃ failure, call.outcome = .error failure ∧ refusal = .callback failure

/-- A world in which no hook is attached to a handle. -/
def World.unhooked (world : World κ ε) (handle : Handle) : World κ ε :=
  world.decorate handle fun decoration => { decoration with attached := [] }

/-! ## Checks -/

namespace TableDefinition

variable {definition : TableDefinition} {isRow : RowLookup} {values row : Row} {refusal : RowError}

private theorem checkColumns_ofRequest (refused : definition.checkColumns values = .error refusal) :
    refusal.OfRequest := by
  unfold checkColumns at refused
  split at refused
  · cases refused
    trivial
  · cases refused

private theorem checkRequired_ofRequest (refused : definition.checkRequired row = .error refusal) :
    refusal.OfRequest := by
  unfold checkRequired at refused
  split at refused
  · cases refused
    trivial
  · cases refused

private theorem validate_ofRequest (refused : definition.validate isRow row = .error refusal) :
    refusal.OfRequest := by
  obtain ⟨-, ⟨column, value⟩, -, -, -, failed⟩ := forM_eq_error_iff.1 refused
  unfold validateValue at failed
  split at failed
  · cases failed
  · obtain ⟨-, validator, -, -, -, judged⟩ := forM_eq_error_iff.1 failed
    split at judged
    · cases judged
    · cases judged
      trivial

private theorem broughtId_ofRequest (refused : definition.broughtId row = .error refusal) :
    refusal.OfRequest := by
  obtain ⟨value, -, -, -, rfl⟩ := broughtId_error_iff.1 refused
  trivial

private theorem admitInsertion_ofRequest
    (refused : definition.admitInsertion isRow values = .error refusal) :
    refusal.OfRequest := by
  rcases admitInsertion_error_iff.1 refused with columns | ⟨-, required | ⟨-, valid | ⟨-, shape⟩⟩⟩
  · exact checkColumns_ofRequest columns
  · exact checkRequired_ofRequest required
  · exact validate_ofRequest valid
  · exact broughtId_ofRequest shape

private theorem admitUpdate_ofRequest
    (refused : definition.admitUpdate isRow values = .error refusal) :
    refusal.OfRequest := by
  unfold admitUpdate at refused
  split at refused
  · cases refused
    trivial
  · rcases bind_eq_error_iff.1 refused with columns | ⟨-, -, valid⟩
    · exact checkColumns_ofRequest columns
    · exact validate_ofRequest valid

end TableDefinition

namespace RowCommand

variable {callbacks : Callbacks κ ε} {handle : Handle} {within : World κ ε → Prop}
  {world middle last : World κ ε} {command : RowCommand α} {isRow : RowLookup} {rows : Storage}
  {stages : Stages α} {asked told : List (HookCall κ)} {value : α} {tells : HookArgs}
  {refusal : RowError}

/-- What the checks refuse a command with. -/
private theorem prepare_ofRequest (refused : command.prepare handle isRow rows = .error refusal) :
    refusal.OfRequest := by
  cases command with
  | insert values => exact TableDefinition.admitInsertion_ofRequest (map_eq_error_iff.1 refused)
  | update ids values => exact TableDefinition.admitUpdate_ofRequest (map_eq_error_iff.1 refused)
  | delete ids => cases refused

/-- A command that goes and writes gives something else than one that does not write. -/
private theorem Writes.ne_unwritten {after : Storage} (goes : command.Goes handle isRow rows)
    (writes : command.Writes handle rows value tells after) : value ≠ command.unwritten := by
  have counted {ids : List UInt64} (known : ∃ id ∈ ids, id ∈ rows.rows.keys) :
      (rows.existing ids).length ≠ 0 := by
    rw [ne_eq, List.length_eq_zero_iff]
    exact existing_ne_nil_iff.2 known
  cases command with
  | insert values =>
    obtain ⟨id, rfl, -⟩ := writes
    rintro ⟨⟩
  | update ids values =>
    obtain ⟨rfl, -⟩ := writes
    exact counted goes.2
  | delete ids =>
    obtain ⟨rfl, -⟩ := writes
    exact counted goes

/-! ## Nothing attached -/

/-- What a command writes with quiet hooks it writes with none. -/
private theorem Told.run_alone (quiet : handle.Quiet callbacks command.event within world)
    (asks : command.Asked callbacks handle world stages asked middle)
    (tell : command.Told callbacks handle stages middle value tells rows told last) :
    let alone := command.run callbacks handle (world.unhooked handle)
    alone.1 = .ok value ∧ value ≠ command.unwritten ∧
      (last.release world).storage handle = alone.2.storage handle := by
  have same : middle.storage handle = world.storage handle := (asks.spared quiet).rows
  have written := tell.written
  have wrote := asks.written quiet
  rw [written] at wrote
  rw [same] at written
  have kept : (world.unhooked handle).storage handle = world.storage handle :=
    World.storage_decorate _
  have stored : (world.unhooked handle).isRow = world.isRow := World.isRow_decorate _
  have none (timing : Timing) :
      ((world.unhooked handle).decoration handle).hooks (.ofParts timing command.event) = [] := by
    rw [World.unhooked, World.decoration_decorate]
    rfl
  have alone := run_unhooked callbacks none
  simp only [kept, stored, asks.checked, written] at alone
  rw [alone]
  refine ⟨rfl, wrote.2.ne_unwritten (goes_iff.2 ⟨stages, asks.checked⟩), ?_⟩
  rw [tell.spared quiet asks, World.storage_setStorage_self]

/-! ## Interruptions -/

section Courses

variable {result : Except RowError α} {later : World κ ε}

/-- A command that gives what it gives unwritten, or fails other than by an after hook, leaves the
rows. -/
theorem Course.kept (quiet : handle.Quiet callbacks command.event within world)
    (course : command.Course callbacks handle world asked told result later)
    (interrupted : result = .ok command.unwritten ∨
      ∃ refusal, result = .error refusal ∧ ¬ RaisedIn told refusal) :
    later.storage handle = world.storage handle := by
  cases course with
  | refused | idle => rfl
  | stopped asks | aborted asks | barred asks => exact (asks.spared quiet).rows
  | failed asks proceeds tells failed =>
    rcases interrupted with ⟨⟨⟩⟩ | ⟨_, ⟨⟩, unraised⟩
    obtain ⟨call, listed, outcome⟩ := failed
    exact absurd ⟨call, listed, _, outcome, rfl⟩ unraised
  | finished asks proceeds tells =>
    rcases interrupted with ⟨⟨⟩⟩ | ⟨_, ⟨⟩, _⟩
    exact absurd rfl (tells.run_alone quiet asks).2.1

/-- A command that gives anything else, or fails by an after hook, has written what it writes with
nothing attached. -/
theorem Course.written (quiet : handle.Quiet callbacks command.event within world)
    (course : command.Course callbacks handle world asked told result later)
    (wrote : (∃ value, result = .ok value ∧ value ≠ command.unwritten) ∨
      ∃ refusal, result = .error refusal ∧ RaisedIn told refusal) :
    let alone := command.run callbacks handle (world.unhooked handle)
    ∃ value, value ≠ command.unwritten ∧ alone.1 = .ok value ∧
      (∀ given, result = .ok given → given = value) ∧
      later.storage handle = alone.2.storage handle := by
  have uncalled {refusal : RowError} : ¬ RaisedIn ([] : List (HookCall κ)) refusal := by
    rintro ⟨call, ⟨⟩, -⟩
  cases course with
  | refused | stopped | barred =>
    rcases wrote with ⟨_, ⟨⟩, _⟩ | ⟨_, ⟨⟩, raised⟩
    exact absurd raised uncalled
  | idle | aborted =>
    rcases wrote with ⟨_, ⟨⟩, other⟩ | ⟨_, ⟨⟩, _⟩
    exact absurd rfl other
  | @failed _ _ _ _ _ value _ _ _ asks proceeds tells failed =>
    obtain ⟨succeeds, other, rows⟩ := tells.run_alone quiet asks
    refine ⟨value, other, succeeds, ?_, rows⟩
    rintro _ ⟨⟩
  | @finished _ _ _ _ _ value _ _ asks proceeds tells =>
    obtain ⟨succeeds, other, rows⟩ := tells.run_alone quiet asks
    refine ⟨value, other, succeeds, ?_, rows⟩
    rintro _ ⟨⟩
    rfl

/-- A command that is refused for what was requested has not begun. -/
private theorem Course.unbegun (quiet : handle.Quiet callbacks command.event within world)
    (course : command.Course callbacks handle world asked told (.error refusal) later)
    (ofRequest : refusal.OfRequest) : asked = [] ∧ told = [] ∧ later = world := by
  cases course with
  | refused => exact ⟨rfl, rfl, rfl⟩
  | stopped | failed => cases ofRequest
  | barred asks proceeds refused =>
    have barred := asks.written quiet
    rw [refused] at barred
    obtain ⟨-, id, rfl⟩ := barred
    cases ofRequest

/-- A command that is refused for a key that is taken has got to its write. -/
private theorem Course.barred_of_duplicateKey {table : String} {id : UInt64}
    (course : command.Course callbacks handle world asked told (.error (.duplicateKey table id))
      later) :
    asked.map HookCall.hook = (world.decoration handle).hooks (.ofParts .before command.event) ∧
      told = [] := by
  cases course with
  | refused checked => cases prepare_ofRequest checked
  | barred asks proceeds =>
    exact ⟨asks.turn.all_called fun call listed ends => ends (proceeds call listed), rfl⟩

end Courses

/-- What an insertion, update or deletion leaves that does not get to its end, for any table and any
hooks that do not touch it.

If it gives nothing, or no row is affected, or if it is refused by anything but an after hook, the
rows and the next id are as before. If an after hook fails, and so when it succeeds, they are what the
command leaves when nothing is attached to its handle, and then it does succeed. A command that is
refused for what was requested has called no hook and changed nothing. One that is refused for a key
that is taken has called all its before hooks and none of those after the write. -/
theorem command_interrupted (command : RowCommand α)
    (quiet : handle.Quiet callbacks command.event within world) :
    let before := world.storage handle
    let run := command.run callbacks handle world
    let after := run.2.storage handle
    let alone := command.run callbacks handle (world.unhooked handle)
    ∃ asked told, command.Course callbacks handle world asked told run.1 run.2 ∧
      (run.1 = .ok command.unwritten → after = before) ∧
      (∀ value, run.1 = .ok value → value ≠ command.unwritten →
        alone.1 = .ok value ∧ after = alone.2.storage handle) ∧
      ∀ refusal, run.1 = .error refusal →
        (¬ RaisedIn told refusal → after = before) ∧
        (RaisedIn told refusal →
          (∃ value, value ≠ command.unwritten ∧ alone.1 = .ok value) ∧
            after = alone.2.storage handle) ∧
        (refusal.OfRequest → asked = [] ∧ told = [] ∧ run.2 = world) ∧
        (∀ table id, refusal = .duplicateKey table id →
          asked.map HookCall.hook =
            (world.decoration handle).hooks (.ofParts .before command.event) ∧ told = []) := by
  intro before run after alone
  obtain ⟨asked, told, course⟩ := command.run_course callbacks handle world
  refine ⟨asked, told, course, fun none => course.kept quiet (.inl none), ?_, ?_⟩
  · intro value gave other
    obtain ⟨_, -, succeeds, same, rows⟩ := course.written quiet (.inl ⟨value, gave, other⟩)
    exact ⟨same value gave ▸ succeeds, rows⟩
  · intro refusal failed
    refine ⟨fun unraised => course.kept quiet (.inr ⟨refusal, failed, unraised⟩), ?_, ?_, ?_⟩
    · intro raised
      obtain ⟨value, other, succeeds, -, rows⟩ :=
        course.written quiet (.inr ⟨refusal, failed, raised⟩)
      exact ⟨⟨value, other, succeeds⟩, rows⟩
    · intro ofRequest
      rw [failed] at course
      exact course.unbegun quiet ofRequest
    · rintro table id rfl
      rw [failed] at course
      exact course.barred_of_duplicateKey

end RowCommand

namespace Noting

/-- The row is gone although the hook after the deletion fails. -/
theorem deleted_despite_failure :
    let world := world [(.beforeDelete, "check"), (.afterDelete, "fail")]
    let run := (RowCommand.delete [1]).run callbacks notes world
    let alone := (RowCommand.delete [1]).run callbacks notes (world.unhooked notes)
    notes.Quiet callbacks .delete (fun _ => True) world ∧
    run.1 = .error (.callback ⟨"failed"⟩) ∧
    (run.2.storage notes).rows.keys = [2, 3] ∧ (world.storage notes).rows.keys = [1, 2, 3] ∧
    (∃ value, value ≠ 0 ∧ alone.1 = .ok value) ∧ run.2.storage notes = alone.2.storage notes := by
  intro world run alone
  have quiet : notes.Quiet callbacks .delete (fun _ => True) world := quiet_world _ .delete
  have failed : run.1 = .error (.callback ⟨"failed"⟩) := by decide +kernel
  have gone : (run.2.storage notes).rows.keys = [2, 3] := by decide +kernel
  have there : (world.storage notes).rows.keys = [1, 2, 3] := by decide +kernel
  obtain ⟨asked, told, -, -, -, refused⟩ := RowCommand.command_interrupted (.delete [1]) quiet
  obtain ⟨kept, written, -, -⟩ := refused _ failed
  have raised : RaisedIn told (.callback ⟨"failed"⟩) := by
    by_contra unraised
    have same : run.2.storage notes = world.storage notes := kept unraised
    rw [same, there] at gone
    cases gone
  exact ⟨quiet, failed, gone, there, written raised⟩

end Noting
end SchemaCompiler
