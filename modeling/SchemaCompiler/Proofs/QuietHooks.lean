import SchemaCompiler.Proofs.OperationRuns

/-! Operations whose hooks do not touch the table. Whether a hook touches it may depend on the
world it is called in: one that writes to another table is at the mercy of that table's hooks. So
the hooks are asked to spare the table within bounds that they keep themselves. Then an operation
either leaves the rows as they were or writes to just these rows (`Handle.staged_quiet`). If none of
them aborts, an operation that succeeds has written (`Handle.staged_unaborted`), and if all proceed
it comes to its write alone (`Handle.staged_proceeding`). -/
namespace SchemaCompiler

open Effect

variable {κ ε α : Type}

/-- The hooks that an operation calls through a handle keep within bounds, and there they change
neither the rows of its table nor what is attached to the handle. The bounds hold at the start and
say nothing about these rows. -/
structure Handle.Quiet (callbacks : Callbacks κ ε) (handle : Handle) (event : Event)
    (within : World κ ε → Prop) (world : World κ ε) : Prop where
  start : within (world.hold handle)
  write : ∀ now rows, within now → within (now.setStorage handle rows)
  stays : ∀ timing, ∀ hook ∈ (world.decoration handle).hooks (.ofParts timing event),
    ∀ args now, within now → within (hook.call callbacks args now).2
  rows : ∀ timing, ∀ hook ∈ (world.decoration handle).hooks (.ofParts timing event),
    ∀ args now, within now → (hook.call callbacks args now).2.storage handle = now.storage handle
  decoration : ∀ timing, ∀ hook ∈ (world.decoration handle).hooks (.ofParts timing event),
    ∀ args now, within now →
      (hook.call callbacks args now).2.decoration handle = now.decoration handle

/-- One world is within bounds, and the table of a handle is as it was in another. -/
structure Handle.Spared (handle : Handle) (within : World κ ε → Prop) (before after : World κ ε) :
    Prop where
  within : within after
  rows : after.storage handle = before.storage handle
  decoration : after.decoration handle = before.decoration handle

namespace Handle

variable {callbacks : Callbacks κ ε} {handle : Handle} {event : Event}
  {within : World κ ε → Prop} {world now : World κ ε}

/-- Without hooks there is nothing to ask of them. -/
theorem Quiet.of_no_hooks
    (none : ∀ timing, (world.decoration handle).hooks (.ofParts timing event) = []) :
    handle.Quiet callbacks event (fun _ => True) world where
  start := trivial
  write _ _ _ := trivial
  stays _ _ _ _ _ _ := trivial
  rows timing hook listed := by
    rw [none timing] at listed
    cases listed
  decoration timing hook listed := by
    rw [none timing] at listed
    cases listed

/-- Hooks that leave the databases alone are quiet. -/
theorem Quiet.of_databases_kept
    (kept : ∀ (hook : Hook κ) (args : HookArgs) (now : World κ ε),
      (hook.call callbacks args now).2.databases = now.databases) :
    handle.Quiet callbacks event (fun _ => True) world where
  start := trivial
  write _ _ _ := trivial
  stays _ _ _ _ _ _ := trivial
  rows _ hook _ args now _ := by simp only [World.storage, World.database, kept hook args now]
  decoration _ hook _ args now _ := by
    simp only [World.decoration, World.database, kept hook args now]

theorem Spared.trans {before middle after : World κ ε} (first : handle.Spared within before middle)
    (second : handle.Spared within middle after) : handle.Spared within before after :=
  ⟨second.within, second.rows.trans first.rows, second.decoration.trans first.decoration⟩

theorem Spared.refl (inside : within now) : handle.Spared within now now := ⟨inside, rfl, rfl⟩

theorem Quiet.call (quiet : handle.Quiet callbacks event within world) {timing : Timing}
    {hook : Hook κ} (listed : hook ∈ (world.decoration handle).hooks (.ofParts timing event))
    (args : HookArgs) (inside : within now) :
    handle.Spared within now (hook.call callbacks args now).2 :=
  ⟨quiet.stays timing hook listed args now inside, quiet.rows timing hook listed args now inside,
    quiet.decoration timing hook listed args now inside⟩

theorem Quiet.runBefore (quiet : handle.Quiet callbacks event within world) (timing : Timing)
    (args : HookArgs) (inside : within now) :
    handle.Spared within now (Handle.runBefore callbacks args
      ((world.decoration handle).hooks (.ofParts timing event)) now).2 :=
  runBefore_relates (R := fun before after => within before → handle.Spared within before after)
    (fun _ => .refl)
    (fun _ _ _ first second inside => (first inside).trans (second (first inside).within))
    (fun _ listed _ => quiet.call listed args) now inside

theorem Quiet.runAfter (quiet : handle.Quiet callbacks event within world) (timing : Timing)
    (args : HookArgs) (inside : within now) :
    handle.Spared within now (Handle.runAfter callbacks args
      ((world.decoration handle).hooks (.ofParts timing event)) now).2 :=
  runAfter_relates (R := fun before after => within before → handle.Spared within before after)
    (fun _ => .refl)
    (fun _ _ _ first second inside => (first inside).trans (second (first inside).within))
    (fun _ listed _ => quiet.call listed args) now inside

/-- Past its before hooks an operation writes to the rows as they were at its start, or is refused
by the write. What the after hooks say of it is all that can still refuse it. -/
private theorem staged_written (quiet : handle.Quiet callbacks event within world) {args : HookArgs}
    (aborted : α) (write : Storage → Except RowError (α × HookArgs × Storage)) {middle : World κ ε}
    (asked : Handle.runBefore callbacks args
      ((world.decoration handle).hooks (.ofParts .before event)) (world.hold handle) =
        (.ok false, middle)) :
    let run := handle.staged callbacks event args aborted write world
    match write (world.storage handle) with
    | .error refusal => run.1 = .error refusal ∧ run.2.storage handle = world.storage handle
    | .ok (value, told, rows) =>
      run.2.storage handle = rows ∧ ∃ wrote, within wrote ∧
        run.1 = (Handle.runAfter callbacks told
          ((world.decoration handle).hooks (.ofParts .after event)) wrote).1.map fun _ => value := by
  have spared := quiet.runBefore .before args quiet.start
  rw [asked] at spared
  have same : middle.storage handle = world.storage handle := spared.rows
  have attached : middle.decoration handle = world.decoration handle := spared.decoration
  simp only [staged, asked, same, attached]
  cases write (world.storage handle) with
  | error refusal => exact ⟨rfl, same⟩
  | ok outcome =>
    obtain ⟨value, told, rows⟩ := outcome
    have wrote := quiet.write middle rows spared.within
    have kept := quiet.runAfter .after told wrote
    dsimp only
    have left := kept.rows.trans World.storage_setStorage_self
    cases ran : Handle.runAfter callbacks told
        ((world.decoration handle).hooks (.ofParts .after event)) (middle.setStorage handle rows)
        using outcome_cases with
    | error refusal =>
      rw [ran] at left
      exact ⟨left, _, wrote, by rw [ran]; rfl⟩
    | ok value =>
      rw [ran] at left
      exact ⟨left, _, wrote, by rw [ran]; rfl⟩

/-- What quiet hooks leave of an operation: it does not write, and then was stopped, or it writes to
the rows as they were at its start. A refusal after the write comes from an after hook. -/
theorem staged_quiet (quiet : handle.Quiet callbacks event within world) (args : HookArgs)
    (aborted : α) (write : Storage → Except RowError (α × HookArgs × Storage)) :
    let run := handle.staged callbacks event args aborted write world
    (run.2.storage handle = world.storage handle ∧
        ((∃ refusal, run.1 = .error refusal) ∨ run.1 = .ok aborted)) ∨
      ∃ value told rows, write (world.storage handle) = .ok (value, told, rows) ∧
        run.2.storage handle = rows ∧
        ((∃ refusal, run.1 = .error refusal) ∨ run.1 = .ok value) := by
  have same := (quiet.runBefore .before args quiet.start).rows
  cases asked : Handle.runBefore callbacks args
      ((world.decoration handle).hooks (.ofParts .before event)) (world.hold handle)
      using outcome_cases with
  | error refusal middle =>
    rw [asked] at same
    simp only [staged, asked]
    exact Or.inl ⟨same, Or.inl ⟨refusal, rfl⟩⟩
  | ok stopped middle =>
    cases stopped with
    | true =>
      rw [asked] at same
      simp only [staged, asked]
      exact Or.inl ⟨same, Or.inr trivial⟩
    | false =>
      have written := staged_written quiet aborted write asked
      dsimp only at written ⊢
      cases gave : write (world.storage handle) with
      | error refusal =>
        rw [gave] at written
        exact Or.inl ⟨written.2, Or.inl ⟨refusal, written.1⟩⟩
      | ok outcome =>
        obtain ⟨value, told, rows⟩ := outcome
        simp only [gave] at written
        obtain ⟨kept, wrote, -, ended⟩ := written
        refine Or.inr ⟨value, told, rows, rfl, kept, ?_⟩
        rw [ended]
        cases (Handle.runAfter callbacks told
          ((world.decoration handle).hooks (.ofParts .after event)) wrote).1 with
        | error refusal => exact Or.inl ⟨refusal, rfl⟩
        | ok => exact Or.inr rfl

end Handle

/-! ## Hooks that let an operation go on -/

/-- Quiet hooks of which none aborts the operation. They may still fail. -/
structure Handle.Unaborted (callbacks : Callbacks κ ε) (handle : Handle) (event : Event)
    (within : World κ ε → Prop) (world : World κ ε) : Prop
    extends handle.Quiet callbacks event within world where
  goesOn : ∀ hook ∈ (world.decoration handle).hooks (.ofParts .before event),
    ∀ args now, within now → (hook.call callbacks args now).1 ≠ .ok .abort

/-- Quiet hooks that all let the operation proceed. -/
structure Handle.Proceeding (callbacks : Callbacks κ ε) (handle : Handle) (event : Event)
    (within : World κ ε → Prop) (world : World κ ε) : Prop
    extends handle.Quiet callbacks event within world where
  proceeds : ∀ timing, ∀ hook ∈ (world.decoration handle).hooks (.ofParts timing event),
    ∀ args now, within now → (hook.call callbacks args now).1 = .ok .proceed

namespace Handle

variable {callbacks : Callbacks κ ε} {handle : Handle} {event : Event}
  {within : World κ ε → Prop} {world now : World κ ε}

theorem Unaborted.of_no_hooks
    (none : ∀ timing, (world.decoration handle).hooks (.ofParts timing event) = []) :
    handle.Unaborted callbacks event (fun _ => True) world where
  toQuiet := .of_no_hooks none
  goesOn hook listed := by
    rw [none .before] at listed
    cases listed

theorem Proceeding.of_no_hooks
    (none : ∀ timing, (world.decoration handle).hooks (.ofParts timing event) = []) :
    handle.Proceeding callbacks event (fun _ => True) world where
  toQuiet := .of_no_hooks none
  proceeds timing hook listed := by
    rw [none timing] at listed
    cases listed

section Rows

variable (args : HookArgs) {hooks : List (Hook κ)}

private theorem runBefore_unaborted
    (stays : ∀ hook ∈ hooks, ∀ now, within now → within (hook.call callbacks args now).2)
    (goesOn : ∀ hook ∈ hooks, ∀ now, within now → (hook.call callbacks args now).1 ≠ .ok .abort)
    (inside : within now) : (Handle.runBefore callbacks args hooks now).1 ≠ .ok true := by
  induction hooks generalizing now with
  | nil => rintro ⟨⟩
  | cons hook rest ih =>
    rw [List.forall_mem_cons] at stays goesOn
    have within_next := stays.1 now inside
    have unaborted := goesOn.1 now inside
    rw [runBefore_cons]
    generalize hook.call callbacks args now = called at within_next unaborted ⊢
    cases called using outcome_cases with
    | error refusal => rintro ⟨⟩
    | ok flow middle =>
      cases flow with
      | abort => exact absurd rfl unaborted
      | proceed => exact ih stays.2 goesOn.2 within_next

private theorem runBefore_proceeding
    (stays : ∀ hook ∈ hooks, ∀ now, within now → within (hook.call callbacks args now).2)
    (proceeds : ∀ hook ∈ hooks, ∀ now, within now → (hook.call callbacks args now).1 = .ok .proceed)
    (inside : within now) : (Handle.runBefore callbacks args hooks now).1 = .ok false := by
  induction hooks generalizing now with
  | nil => rfl
  | cons hook rest ih =>
    rw [List.forall_mem_cons] at stays proceeds
    have within_next := stays.1 now inside
    have proceeded := proceeds.1 now inside
    rw [runBefore_cons]
    generalize hook.call callbacks args now = called at within_next proceeded ⊢
    cases called using outcome_cases with
    | error refusal => cases proceeded
    | ok flow middle =>
      cases proceeded
      exact ih stays.2 proceeds.2 within_next

private theorem runAfter_proceeding
    (stays : ∀ hook ∈ hooks, ∀ now, within now → within (hook.call callbacks args now).2)
    (proceeds : ∀ hook ∈ hooks, ∀ now, within now → (hook.call callbacks args now).1 = .ok .proceed)
    (inside : within now) : (Handle.runAfter callbacks args hooks now).1 = .ok () := by
  induction hooks generalizing now with
  | nil => rfl
  | cons hook rest ih =>
    rw [List.forall_mem_cons] at stays proceeds
    have within_next := stays.1 now inside
    have proceeded := proceeds.1 now inside
    rw [runAfter_cons]
    generalize hook.call callbacks args now = called at within_next proceeded ⊢
    cases called using outcome_cases with
    | error refusal => cases proceeded
    | ok flow middle =>
      cases proceeded
      exact ih stays.2 proceeds.2 within_next

end Rows

/-- An operation that none of its hooks aborts, and that succeeds, has written to the rows as they
were at its start. -/
theorem staged_unaborted (quiet : handle.Unaborted callbacks event within world) (args : HookArgs)
    (aborted : α) (write : Storage → Except RowError (α × HookArgs × Storage)) {value : α}
    (ran : (handle.staged callbacks event args aborted write world).1 = .ok value) :
    ∃ told rows, write (world.storage handle) = .ok (value, told, rows) ∧
      (handle.staged callbacks event args aborted write world).2.storage handle = rows := by
  have unaborted := runBefore_unaborted args
    (fun hook listed now => quiet.stays .before hook listed args now)
    (fun hook listed now => quiet.goesOn hook listed args now) quiet.start
  cases asked : Handle.runBefore callbacks args
      ((world.decoration handle).hooks (.ofParts .before event)) (world.hold handle)
      using outcome_cases with
  | error refusal =>
    simp only [staged, asked] at ran
    cases ran
  | ok stopped =>
    cases stopped with
    | true => exact absurd (congrArg Prod.fst asked) unaborted
    | false =>
      have written := staged_written quiet.toQuiet aborted write asked
      dsimp only at written
      cases gave : write (world.storage handle) with
      | error refusal =>
        rw [gave] at written
        rw [written.1] at ran
        cases ran
      | ok outcome =>
        obtain ⟨given, told, rows⟩ := outcome
        simp only [gave] at written
        obtain ⟨kept, wrote, -, ended⟩ := written
        obtain ⟨_, -, rfl⟩ := map_eq_ok_iff.1 (ended.symm.trans ran)
        exact ⟨told, rows, rfl, kept⟩

/-- An operation whose hooks all proceed comes to its write. -/
theorem staged_proceeding (quiet : handle.Proceeding callbacks event within world) (args : HookArgs)
    (aborted : α) (write : Storage → Except RowError (α × HookArgs × Storage)) :
    let run := handle.staged callbacks event args aborted write world
    run.1 = (write (world.storage handle)).map Prod.fst ∧
      run.2.storage handle =
        ((write (world.storage handle)).toOption.map (·.2.2)).getD (world.storage handle) := by
  have passed := runBefore_proceeding args
    (fun hook listed now => quiet.stays .before hook listed args now)
    (fun hook listed now => quiet.proceeds .before hook listed args now) quiet.start
  obtain ⟨middle, asked⟩ : ∃ middle, Handle.runBefore callbacks args
      ((world.decoration handle).hooks (.ofParts .before event)) (world.hold handle) =
        (.ok false, middle) := ⟨_, Prod.ext passed rfl⟩
  have written := staged_written quiet.toQuiet aborted write asked
  dsimp only at written ⊢
  cases gave : write (world.storage handle) with
  | error refusal =>
    simp only [gave] at written
    exact written
  | ok outcome =>
    obtain ⟨value, told, rows⟩ := outcome
    simp only [gave] at written
    obtain ⟨kept, wrote, inside, ended⟩ := written
    have last := runAfter_proceeding told
      (fun hook listed now => quiet.stays .after hook listed told now)
      (fun hook listed now => quiet.proceeds .after hook listed told now) inside
    rw [last] at ended
    exact ⟨ended, kept⟩

end Handle
end SchemaCompiler
