import Mathlib.Logic.Function.Basic
import SchemaCompiler.Proofs.EffectRuns
import SchemaCompiler.Table.Operation

/-! What insertion, update and deletion come to when they run. Once their checks are passed, the
three go through the same stages: the before hooks, the write, the after hooks (`Handle.staged`).
They differ in their checks and in what they write (`insert_run`, `update_run`, `delete_run`), so
what hooks can make of an operation is proved for the stages, once. -/
namespace SchemaCompiler

open Effect

variable {κ ε e α : Type}

/-! ## Parts of the world -/

namespace Database

variable {db : Database κ} {table other : String} {rows : Storage}

theorem storage_setStorage :
    (db.setStorage table rows).storage other = if table = other then rows else db.storage other := by
  unfold storage setStorage
  rw [OrderedMap.get?_insert]
  split <;> rfl

@[simp] theorem storage_setStorage_self : (db.setStorage table rows).storage table = rows := by
  rw [storage_setStorage, if_pos rfl]

end Database

namespace World

variable {world after : World κ ε} {handle other : Handle} {rows : Storage}

@[simp] theorem database_setDatabase (name : String) (db : Database κ) :
    (world.setDatabase name db).database = Function.update world.database name db := by
  funext probe
  unfold database setDatabase
  rw [OrderedMap.get?_insert, Function.update_apply]
  by_cases same : name = probe
  · simp [same]
  · simp [same, Ne.symm same]

@[simp] theorem storage_setStorage_self : (world.setStorage handle rows).storage handle = rows := by
  simp [storage, setStorage]

/-- Writing rows leaves hooks and methods alone. -/
@[simp] theorem decoration_setStorage :
    (world.setStorage handle rows).decoration other = world.decoration other := by
  unfold decoration setStorage
  rw [database_setDatabase, Function.update_apply]
  split
  · next same => rw [same]; rfl
  · rfl

/-- Writing rows leaves those of all other tables alone. -/
theorem rows_setStorage_of_ne {name table : String}
    (other : (name, table) ≠ (handle.database, handle.name)) :
    ((world.setStorage handle rows).database name).storage table =
      (world.database name).storage table := by
  unfold setStorage
  rw [database_setDatabase, Function.update_apply]
  split
  · next same =>
    subst same
    have apart : handle.name ≠ table := fun same => other (congrArg (Prod.mk handle.database) same.symm)
    exact Database.storage_setStorage.trans (if_neg apart)
  · rfl

/-- Of two writes to one table the later stays. -/
theorem setStorage_setStorage (first second : Storage) :
    (world.setStorage handle first).setStorage handle second = world.setStorage handle second := by
  unfold setStorage
  rw [database_setDatabase, Function.update_self]
  simp only [setDatabase, Database.setStorage, OrderedMap.insert_insert]

/-- Validators find the same rows after a write that leaves all keys. -/
theorem isRow_setStorage (keys : rows.rows.keys = (world.storage handle).rows.keys) :
    (world.setStorage handle rows).isRow = world.isRow := by
  funext table id
  unfold isRow
  by_cases own : (table.handle.database, table.table) = (handle.database, handle.name)
  · obtain ⟨database, name⟩ := Prod.ext_iff.1 own
    dsimp only at database name
    rw [database, name, Bool.eq_iff_iff, OrderedMap.contains_iff_mem_keys,
      OrderedMap.contains_iff_mem_keys]
    change id ∈ ((world.setStorage handle rows).storage handle).rows.keys ↔ _
    rw [storage_setStorage_self, keys]
    rfl
  · rw [rows_setStorage_of_ne own]

@[simp] theorem decoration_decorate (world : World κ ε) (handle : Handle)
    (change : Decoration κ → Decoration κ) :
    (world.decorate handle change).decoration handle = change (world.decoration handle) := by
  unfold decorate decoration
  rw [database_setDatabase, Function.update_self]
  unfold Database.decoration Database.decorate
  rw [OrderedMap.get?_insert_self]
  rfl

/-- Attaching leaves the rows of all tables alone. -/
theorem rows_decorate (change : Decoration κ → Decoration κ) (name table : String) :
    ((world.decorate handle change).database name).storage table =
      (world.database name).storage table := by
  unfold decorate
  rw [database_setDatabase, Function.update_apply]
  split
  · next same => rw [same]; rfl
  · rfl

@[simp] theorem storage_decorate (change : Decoration κ → Decoration κ) :
    (world.decorate handle change).storage other = world.storage other :=
  rows_decorate change other.database other.name

@[simp] theorem isRow_decorate (change : Decoration κ → Decoration κ) :
    (world.decorate handle change).isRow = world.isRow := by
  funext table id
  exact congrArg (·.rows.contains id) (rows_decorate change table.handle.database table.table)

/-- The world while an operation works on a handle. -/
def hold (world : World κ ε) (handle : Handle) : World κ ε :=
  { world with inUse := handle :: world.inUse }

/-- The world when an operation is over that began in another one. -/
def release (after before : World κ ε) : World κ ε := { after with inUse := before.inUse }

@[simp] theorem storage_hold : (world.hold handle).storage other = world.storage other := rfl

@[simp] theorem decoration_hold :
    (world.hold handle).decoration other = world.decoration other := rfl

@[simp] theorem isRow_hold : (world.hold handle).isRow = world.isRow := rfl

@[simp] theorem release_hold : (world.hold handle).release world = world := rfl

end World

theorem holding_run (handle : Handle) (action : Action κ ε e α) (world : World κ ε) :
    holding [handle] action world =
      ((action (world.hold handle)).1, (action (world.hold handle)).2.release world) := rfl

/-! ## Hooks in turn -/

namespace Handle

variable {callbacks : Callbacks κ ε} {handle : Handle}

theorem runBefore_cons (args : HookArgs) (hook : Hook κ) (rest : List (Hook κ))
    (world : World κ ε) :
    runBefore callbacks args (hook :: rest) world =
      match hook.call callbacks args world with
      | (.error refusal, after) => (.error (.callback refusal), after)
      | (.ok .abort, after) => (.ok true, after)
      | (.ok .proceed, after) => runBefore callbacks args rest after := by
  rw [runBefore, bind_run, adapt_run]
  cases hook.call callbacks args world using outcome_cases with
  | error refusal => rfl
  | ok flow => cases flow <;> rfl

theorem runAfter_cons (args : HookArgs) (hook : Hook κ) (rest : List (Hook κ))
    (world : World κ ε) :
    runAfter callbacks args (hook :: rest) world =
      match hook.call callbacks args world with
      | (.error refusal, after) => (.error (.callback refusal), after)
      | (.ok _, after) => runAfter callbacks args rest after := by
  rw [runAfter, bind_run, adapt_run]
  cases hook.call callbacks args world using outcome_cases <;> rfl

section Relations

variable {R : World κ ε → World κ ε → Prop} {args : HookArgs} {hooks : List (Hook κ)}

/-- Whatever relation each call of a hook keeps to, the before hooks keep to in turn, wherever they
stop. -/
theorem runBefore_relates (refl : ∀ now, R now now)
    (trans : ∀ first second third, R first second → R second third → R first third)
    (calls : ∀ hook ∈ hooks, ∀ now, R now (hook.call callbacks args now).2) (world : World κ ε) :
    R world (runBefore callbacks args hooks world).2 := by
  induction hooks generalizing world with
  | nil => exact refl world
  | cons hook rest ih =>
    rw [List.forall_mem_cons] at calls
    refine bind_keeps (P := R world) (calls.1 world) fun flow middle first => ?_
    cases flow with
    | abort => exact first
    | proceed => exact trans _ _ _ first (ih calls.2 middle)

theorem runAfter_relates (refl : ∀ now, R now now)
    (trans : ∀ first second third, R first second → R second third → R first third)
    (calls : ∀ hook ∈ hooks, ∀ now, R now (hook.call callbacks args now).2) (world : World κ ε) :
    R world (runAfter callbacks args hooks world).2 := by
  induction hooks generalizing world with
  | nil => exact refl world
  | cons hook rest ih =>
    rw [List.forall_mem_cons] at calls
    exact bind_keeps (P := R world) (calls.1 world) fun _ middle first =>
      trans _ _ _ first (ih calls.2 middle)

end Relations

/-! ## The operations -/

theorem write_run (brought : Option UInt64) (row : Row) (world : World κ ε) :
    handle.write brought row world =
      match (world.storage handle).insert brought row with
      | .error id => (.error (.duplicateKey handle.name id), world)
      | .ok (id, stored, rows) => (.ok (id, stored), world.setStorage handle rows) := by
  rw [write, bind_run, get_run]
  dsimp only
  cases (world.storage handle).insert brought row <;> rfl

/-- The stages of an operation whose checks are passed: before hooks, write, after hooks. The write
sees the rows that the before hooks leave, may still be refused, and decides on the outcome and on
what the after hooks are told. -/
def staged (callbacks : Callbacks κ ε) (handle : Handle) (event : Event) (args : HookArgs)
    (aborted : α) (write : Storage → Except RowError (α × HookArgs × Storage)) :
    Action κ ε RowError α := fun world =>
  match runBefore callbacks args ((world.decoration handle).hooks (.ofParts .before event))
      (world.hold handle) with
  | (.error refusal, middle) => (.error refusal, middle.release world)
  | (.ok true, middle) => (.ok aborted, middle.release world)
  | (.ok false, middle) =>
    match write (middle.storage handle) with
    | .error refusal => (.error refusal, middle.release world)
    | .ok (value, args, rows) =>
      match runAfter callbacks args ((middle.decoration handle).hooks (.ofParts .after event))
          (middle.setStorage handle rows) with
      | (.error refusal, after) => (.error refusal, after.release world)
      | (.ok (), after) => (.ok value, after.release world)

/-- Without hooks an operation comes to its write. -/
theorem staged_unhooked {event : Event} {world : World κ ε}
    (none : ∀ timing, (world.decoration handle).hooks (.ofParts timing event) = [])
    (args : HookArgs) (aborted : α)
    (write : Storage → Except RowError (α × HookArgs × Storage)) :
    handle.staged callbacks event args aborted write world =
      match write (world.storage handle) with
      | .error refusal => (.error refusal, world)
      | .ok (value, _, rows) => (.ok value, world.setStorage handle rows) := by
  simp only [staged, none, runBefore, pure_run, World.storage_hold]
  cases write (world.storage handle) with
  | error refusal => rfl
  | ok outcome =>
    obtain ⟨value, told, rows⟩ := outcome
    simp only [World.decoration_hold, none, runAfter, pure_run]
    rfl

/-- What each call of an attached hook keeps, and the write does as well, holds at the end of an
operation, if it holds at its start. -/
theorem staged_keeps {P : World κ ε → Prop} {event : Event} {args : HookArgs} {aborted : α}
    {write : Storage → Except RowError (α × HookArgs × Storage)} {world : World κ ε}
    (start : P (world.hold handle))
    (calls : ∀ now, P now → ∀ timing,
      ∀ hook ∈ (now.decoration handle).hooks (.ofParts timing event), ∀ args later, P later →
        P (hook.call callbacks args later).2)
    (writes : ∀ now, P now → ∀ value told rows,
      write (now.storage handle) = .ok (value, told, rows) → P (now.setStorage handle rows)) :
    ∃ after, P after ∧
      (handle.staged callbacks event args aborted write world).2 = after.release world := by
  unfold staged
  have asked : P (runBefore callbacks args
      ((world.decoration handle).hooks (.ofParts .before event)) (world.hold handle)).2 :=
    runBefore_relates (R := fun before after => P before → P after) (fun _ holds => holds)
      (fun _ _ _ first second => second ∘ first)
      (fun hook listed now => calls _ start .before hook listed args now) _ start
  generalize runBefore callbacks args ((world.decoration handle).hooks (.ofParts .before event))
    (world.hold handle) = before at asked ⊢
  cases before using outcome_cases with
  | error refusal middle => exact ⟨middle, asked, rfl⟩
  | ok stopped middle =>
    cases stopped with
    | true => exact ⟨middle, asked, rfl⟩
    | false =>
      dsimp only
      cases written : write (middle.storage handle) with
      | error refusal => exact ⟨middle, asked, rfl⟩
      | ok outcome =>
        obtain ⟨value, args, rows⟩ := outcome
        have wrote := writes middle asked value args rows written
        have told : P (runAfter callbacks args
            ((middle.decoration handle).hooks (.ofParts .after event))
            (middle.setStorage handle rows)).2 :=
          runAfter_relates (R := fun before after => P before → P after) (fun _ holds => holds)
            (fun _ _ _ first second => second ∘ first)
            (fun hook listed now => calls middle asked .after hook listed args now) _ wrote
        dsimp only
        generalize runAfter callbacks args
          ((middle.decoration handle).hooks (.ofParts .after event))
          (middle.setStorage handle rows) = last at told ⊢
        cases last using outcome_cases <;> exact ⟨_, told, rfl⟩

/-- The three operations go through the stages: what they do once their checks are passed, with
whatever their write gives them. -/
private theorem staged_run {β : Type} (event : Event) (args : HookArgs) (aborted : α)
    (plan : Storage → Except RowError (α × HookArgs × Storage)) (write : Action κ ε RowError β)
    (told : β → HookArgs) (value : β → α) (world : World κ ε)
    (writes : ∀ now : World κ ε,
      match plan (now.storage handle) with
      | .error refusal => write now = (.error refusal, now)
      | .ok (outcome, args, rows) => ∃ written, write now = (.ok written, now.setStorage handle rows) ∧
          value written = outcome ∧ told written = args) :
    holding [handle] (do
        if ← runBefore callbacks args (← handle.hooks (.ofParts .before event)) then return aborted
        let written ← write
        runAfter callbacks (told written) (← handle.hooks (.ofParts .after event))
        return value written) world =
      handle.staged callbacks event args aborted plan world := by
  rw [holding_run]
  simp only [hooks, bind_run, get_run, pure_run, World.decoration_hold, staged]
  cases runBefore callbacks args ((world.decoration handle).hooks (.ofParts .before event))
    (world.hold handle) using outcome_cases with
  | error refusal => rfl
  | ok stopped middle =>
    cases stopped with
    | true => rfl
    | false =>
      have wrote := writes middle
      simp only [Bool.false_eq_true, ↓reduceIte, bind_run]
      cases planned : plan (middle.storage handle) with
      | error refusal =>
        rw [planned] at wrote
        rw [wrote]
      | ok outcome =>
        obtain ⟨outcome, args, rows⟩ := outcome
        rw [planned] at wrote
        obtain ⟨written, wrote, rfl, rfl⟩ := wrote
        rw [wrote]
        simp only [get_run, pure_run, World.decoration_setStorage]
        cases runAfter callbacks (told written)
          ((middle.decoration handle).hooks (.ofParts .after event))
          (middle.setStorage handle rows) using outcome_cases <;> rfl

/-- The same for a write that is never refused. -/
private theorem staged_modify (event : Event) (args : HookArgs) (aborted : α)
    (change : Storage → Storage) (outcome : α) (world : World κ ε) :
    holding [handle] (do
        if ← runBefore callbacks args (← handle.hooks (.ofParts .before event)) then return aborted
        modify fun now : World κ ε => now.setStorage handle (change (now.storage handle))
        runAfter callbacks args (← handle.hooks (.ofParts .after event))
        return outcome) world =
      handle.staged callbacks event args aborted (fun rows => .ok (outcome, args, change rows)) world :=
  staged_run event args aborted (fun rows => .ok (outcome, args, change rows))
    (modify fun now : World κ ε => now.setStorage handle (change (now.storage handle)))
    (fun _ => args) (fun _ => outcome) world fun _ => ⟨⟨⟩, rfl, rfl, rfl⟩

/-- What an insertion writes. -/
def insertion (handle : Handle) (row : Row) (brought : Option UInt64) (rows : Storage) :
    Except RowError (Option UInt64 × HookArgs × Storage) :=
  match rows.insert brought row with
  | .error id => .error (.duplicateKey handle.name id)
  | .ok (id, stored, rows) => .ok (some id, .inserted stored id, rows)

theorem insert_run (values : Row) (world : World κ ε) :
    handle.insert callbacks values world =
      match handle.definition.admitInsertion world.isRow values with
      | .error refusal => (.error refusal, world)
      | .ok (row, brought) =>
        handle.staged callbacks .insert (.insert row) none (handle.insertion row brought) world := by
  rw [insert, holding_run, bind_run, get_run]
  dsimp only
  rw [bind_run, Action.ofExcept, World.isRow_hold]
  cases handle.definition.admitInsertion world.isRow values with
  | error refusal => rfl
  | ok admitted =>
    obtain ⟨row, brought⟩ := admitted
    refine staged_run .insert (.insert row) none (handle.insertion row brought)
      (handle.write brought row) (fun written => .inserted written.2 written.1)
      (fun written => some written.1) world fun now => ?_
    rw [write_run, insertion]
    cases (now.storage handle).insert brought row with
    | error id => rfl
    | ok written => exact ⟨_, rfl, rfl, rfl⟩

theorem update_run (ids : List UInt64) (values : Row) (world : World κ ε) :
    handle.update callbacks ids values world =
      match handle.definition.admitUpdate world.isRow values with
      | .error refusal => (.error refusal, world)
      | .ok () =>
        let known := (world.storage handle).existing ids
        if known.isEmpty then (.ok 0, world)
        else
          handle.staged callbacks .update (.update known values) 0
            (fun rows => .ok (known.length, .update known values, rows.update known values))
            world := by
  rw [update, holding_run, bind_run, get_run]
  dsimp only
  rw [bind_run, Action.ofExcept, World.isRow_hold, World.storage_hold]
  cases handle.definition.admitUpdate world.isRow values with
  | error refusal => rfl
  | ok admitted =>
    dsimp only
    by_cases none : ((world.storage handle).existing ids).isEmpty = true
    · simp only [none, ↓reduceIte, pure_run, World.release_hold]
    · simp only [none, Bool.false_eq_true, ↓reduceIte]
      exact staged_modify .update (.update ((world.storage handle).existing ids) values) 0
        (fun rows => rows.update ((world.storage handle).existing ids) values)
        ((world.storage handle).existing ids).length world

theorem delete_run (ids : List UInt64) (world : World κ ε) :
    handle.delete callbacks ids world =
      let known := (world.storage handle).existing ids
      if known.isEmpty then (.ok 0, world)
      else
        handle.staged callbacks .delete (.delete known) 0
          (fun rows => .ok (known.length, .delete known, rows.delete known)) world := by
  rw [delete, holding_run, bind_run, get_run]
  dsimp only
  rw [World.storage_hold]
  by_cases none : ((world.storage handle).existing ids).isEmpty = true
  · simp only [none, ↓reduceIte, pure_run, World.release_hold]
  · simp only [none, Bool.false_eq_true, ↓reduceIte]
    exact staged_modify .delete (.delete ((world.storage handle).existing ids)) 0
      (fun rows => rows.delete ((world.storage handle).existing ids))
      ((world.storage handle).existing ids).length world

end Handle
end SchemaCompiler
