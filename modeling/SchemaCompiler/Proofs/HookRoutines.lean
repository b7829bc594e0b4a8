import SchemaCompiler.Build.Compile
import SchemaCompiler.Proofs.DatabaseSteps

/-! Runs in which hooks work on tables themselves. A `Routine` is what code outside of the library
does: it defines tables, attaches hooks and works on rows through any handle, looks at the world in
between and decides by what it finds. Hooks are routines too, as is all else that an application
does when it is called (`Application`), and what they do may call further hooks, down to any depth.
A run also keeps the databases as they were each time such code was in control (`Observed`), which
is every state there is to see: between two such moments an operation writes at most once. Whatever
the routines are, all these states are reached by steps (`Routine.run_traced`). -/
namespace SchemaCompiler

open Effect

variable {κ ε α : Type}

/-! ## Routines -/

/-- An application's state, along with the databases as its code found them, latest first. -/
structure Observed (κ ε : Type) where
  seen : List (Databases κ) := []
  own : ε

/-- What code outside of the library does. Each operation is followed by what its outcome leads
to. Handles are named, so that only those that were made can be used. -/
inductive Routine (κ ε α : Type) where
  | finish (result : Except CallbackError α)
  | look (next : World κ (Observed κ ε) → Routine κ ε α)
  /-- Changes the application's own state. -/
  | note (change : ε → ε) (next : Routine κ ε α)
  | define (database : String) (definition : TableDefinition)
      (next : Except LayerError HandleId → Routine κ ε α)
  | attach (handle : HandleId) (phase : Phase) (hook : Hook κ) (next : Routine κ ε α)
  | insert (handle : HandleId) (values : Row)
      (next : Except RowError (Option UInt64) → Routine κ ε α)
  | update (handle : HandleId) (ids : List UInt64) (values : Row)
      (next : Except RowError Nat → Routine κ ε α)
  | delete (handle : HandleId) (ids : List UInt64) (next : Except RowError Nat → Routine κ ε α)

/-- The handle of a name, if it was made. -/
def World.handle? (world : World κ ε) (id : HandleId) : Option Handle :=
  (world.database id.database).opened.find? fun handle => handle.id = id

/-- Keeps the databases as they are now. -/
def World.observe (world : World κ (Observed κ ε)) : World κ (Observed κ ε) :=
  { world with
    application := { world.application with seen := world.database :: world.application.seen } }

namespace Routine

/-- Does something with a handle. A routine that names none ends there. -/
def withHandle (id : HandleId) (work : Handle → Action κ (Observed κ ε) CallbackError α) :
    Action κ (Observed κ ε) CallbackError α := fun world =>
  match world.handle? id with
  | some handle => work handle world
  | none => (.error ⟨"no such handle"⟩, world)

/-- Runs a routine, where `callbacks` are what the hooks do that its operations call. -/
def run (callbacks : Callbacks κ (Observed κ ε)) :
    Routine κ ε α → Action κ (Observed κ ε) CallbackError α
  | finish result => fun world => (result, world.observe)
  | look next => fun world => (next world.observe).run callbacks world.observe
  | note change next => fun world =>
    let seen := world.observe
    next.run callbacks
      { seen with application := { seen.application with own := change seen.application.own } }
  | define database definition next => fun world =>
    let (result, after) := defineTable database definition world.observe
    (next (result.map Handle.id)).run callbacks after
  | attach id phase hook next => fun world =>
    withHandle id (fun handle world => next.run callbacks
      (world.decorate handle fun decoration => decoration.attach phase hook)) world.observe
  | insert id values next => fun world =>
    withHandle id (fun handle world =>
      let (result, after) := handle.insert callbacks values world
      (next result).run callbacks after) world.observe
  | update id ids values next => fun world =>
    withHandle id (fun handle world =>
      let (result, after) := handle.update callbacks ids values world
      (next result).run callbacks after) world.observe
  | delete id ids next => fun world =>
    withHandle id (fun handle world =>
      let (result, after) := handle.delete callbacks ids world
      (next result).run callbacks after) world.observe

end Routine

/-- What an application does when its hooks are called. -/
structure Conduct (κ ε : Type) where
  hook : κ → HookArgs → Routine κ ε HookFlow
  common : κ → Handle → Phase → HookArgs → Routine κ ε HookFlow

/-- Callbacks that are refused. -/
def Callbacks.refused (κ ε : Type) : Callbacks κ ε :=
  let refusal : CallbackError := ⟨"nested too deeply"⟩
  { hook := fun _ _ => throw refusal
    common := fun _ _ _ _ => throw refusal
    tableMethod := fun _ _ _ => throw refusal
    onDefineTable := fun _ _ _ => throw refusal
    onDefineModel := fun _ _ _ => throw refusal
    migrate := fun _ _ _ => throw (.other refusal.message) }

/-- What hooks do that may be nested to a depth. -/
def Conduct.callbacks (conduct : Conduct κ ε) : Nat → Callbacks κ (Observed κ ε)
  | 0 => .refused κ (Observed κ ε)
  | depth + 1 =>
    { Callbacks.refused κ (Observed κ ε) with
      hook := fun callback args => (conduct.hook callback args).run (conduct.callbacks depth)
      common := fun callback handle phase args =>
        (conduct.common callback handle phase args).run (conduct.callbacks depth) }

/-- What an application does whenever it is called: when hooks are, methods of tables, the callbacks
of definitions, or index migrators of its own. -/
structure Application (κ ε : Type) extends Conduct κ ε where
  tableMethod : κ → Handle → List Json → Routine κ ε Json
  onDefineTable : κ → String → Handle → Routine κ ε Unit
  onDefineModel : κ → String → OrderedMap String Json → Routine κ ε Unit
  migrate : κ → Handle → Plan → Routine κ ε Unit

/-- The callbacks of an application. Whatever it is called for, the hooks of its operations may be
nested to a depth. -/
def Application.callbacks (application : Application κ ε) (depth : Nat) :
    Callbacks κ (Observed κ ε) :=
  let nested := application.toConduct.callbacks depth
  { nested with
    tableMethod := fun callback handle args =>
      (application.tableMethod callback handle args).run nested
    onDefineTable := fun callback description handle =>
      (application.onDefineTable callback description handle).run nested
    onDefineModel := fun callback name extras =>
      (application.onDefineModel callback name extras).run nested
    migrate := fun callback handle plan =>
      ((application.migrate callback handle plan).run nested).adapt (.other ·.message) }

namespace Idle

/-- Hooks that do nothing. -/
def conduct : Conduct Unit Unit :=
  ⟨fun _ _ => .finish (.ok .proceed), fun _ _ _ _ => .finish (.ok .proceed)⟩

def callbacks : Callbacks Unit (Observed Unit Unit) := conduct.callbacks 1

/-- No table is defined yet. -/
def start : World Unit (Observed Unit Unit) := { application := { own := () } }

end Idle

/-! ## What a run does to the databases -/

/-- All that happened between two worlds were steps, also up to each state that was seen between
them. -/
structure Traced (before after : World κ (Observed κ ε)) : Prop where
  reaches : Databases.Reaches before.database after.database
  seen : ∃ fresh, after.application.seen = fresh ++ before.application.seen ∧
    ∀ databases ∈ fresh, Databases.Reaches before.database databases

namespace Traced

variable {world before middle after : World κ (Observed κ ε)} {handle : Handle}

theorem trans (first : Traced before middle) (second : Traced middle after) :
    Traced before after := by
  obtain ⟨early, history, early_reached⟩ := first.seen
  obtain ⟨late, history', late_reached⟩ := second.seen
  refine ⟨first.reaches.trans second.reaches, late ++ early, ?_, ?_⟩
  · rw [history', history, List.append_assoc]
  · intro databases member
    rcases List.mem_append.mp member with member | member
    · exact first.reaches.trans (late_reached databases member)
    · exact early_reached databases member

/-- What leaves the databases and what was seen of them alone. -/
theorem of_same (databases : after.database = before.database)
    (seen : after.application.seen = before.application.seen) : Traced before after :=
  ⟨databases ▸ .refl, [], seen, List.forall_mem_nil _⟩

theorem refl (world : World κ (Observed κ ε)) : Traced world world := of_same rfl rfl

theorem observe (world : World κ (Observed κ ε)) : Traced world world.observe :=
  ⟨.refl, [world.database], rfl, fun _ member => List.mem_singleton.mp member ▸ .refl⟩

theorem step {name : String} {db : Database κ}
    (taken : Database.Step name (world.database name) db) : Traced world (world.setDatabase name db) :=
  ⟨.single ⟨name, db, taken, World.database_setDatabase name db⟩, [], rfl, List.forall_mem_nil _⟩

theorem hold (traced : Traced (world.hold handle) after) : Traced world (after.release world) :=
  ⟨traced.reaches, traced.seen⟩

theorem opened (traced : Traced before after)
    (made : handle ∈ (before.database handle.database).opened) :
    handle ∈ (after.database handle.database).opened :=
  traced.reaches.opened made

end Traced

/-- Whether hooks take steps only. -/
def Callbacks.Traced (callbacks : Callbacks κ (Observed κ ε)) : Prop :=
  ∀ hook args world, SchemaCompiler.Traced world (Hook.call callbacks hook args world).2

namespace Handle

variable {callbacks : Callbacks κ (Observed κ ε)} {handle : Handle}

/-- The stages of an operation take steps only, if its write is one. -/
private theorem staged_traced (traced : callbacks.Traced) {event : Event} {args : HookArgs}
    {aborted : α} {write : Storage → Except RowError (α × HookArgs × Storage)}
    (step : ∀ db : Database κ, handle ∈ db.opened → ∀ value told rows,
      write (db.storage handle.name) = .ok (value, told, rows) →
        Database.Step handle.database db (db.setStorage handle.name rows))
    {world : World κ (Observed κ ε)}
    (opened : handle ∈ (world.database handle.database).opened) :
    Traced world (handle.staged callbacks event args aborted write world).2 := by
  have calls (now) (upto : Traced (world.hold handle) now) (timing)
      (hook) (_ : hook ∈ (now.decoration handle).hooks (.ofParts timing event)) (args) (later)
      (before : Traced (world.hold handle) later) :
      Traced (world.hold handle) (Hook.call callbacks hook args later).2 :=
    before.trans (traced hook args later)
  have writes (now) (upto : Traced (world.hold handle) now) (value) (told) (rows)
      (written : write (now.storage handle) = .ok (value, told, rows)) :
      Traced (world.hold handle) (now.setStorage handle rows) :=
    upto.trans (.step (step _ (upto.opened opened) value told rows written))
  obtain ⟨after, upto, same⟩ : ∃ after, Traced (world.hold handle) after ∧
      (handle.staged callbacks event args aborted write world).2 = after.release world :=
    staged_keeps (.refl _) calls writes
  rw [same]
  exact upto.hold

theorem insert_traced (traced : callbacks.Traced) (values : Row) {world : World κ (Observed κ ε)}
    (opened : handle ∈ (world.database handle.database).opened) :
    Traced world (handle.insert callbacks values world).2 := by
  rw [insert_run]
  cases admitted : handle.definition.admitInsertion world.isRow values with
  | error refusal => exact .refl world
  | ok checked =>
    obtain ⟨row, brought⟩ := checked
    refine staged_traced traced (fun db made value told rows written => ?_) opened
    unfold insertion at written
    cases filed : (db.storage handle.name).insert brought row with
    | error id =>
      rw [filed] at written
      cases written
    | ok outcome =>
      obtain ⟨id, stored, rows'⟩ := outcome
      rw [filed] at written
      cases written
      exact .insert made admitted filed

theorem update_traced (traced : callbacks.Traced) (ids : List UInt64) (values : Row)
    {world : World κ (Observed κ ε)} (opened : handle ∈ (world.database handle.database).opened) :
    Traced world (handle.update callbacks ids values world).2 := by
  rw [update_run]
  cases admitted : handle.definition.admitUpdate world.isRow values with
  | error refusal => exact .refl world
  | ok checked =>
    dsimp only
    split
    · exact .refl world
    · refine staged_traced traced (fun db made value told rows written => ?_) opened
      cases written
      exact .update _ made admitted

theorem delete_traced (traced : callbacks.Traced) (ids : List UInt64)
    {world : World κ (Observed κ ε)} (opened : handle ∈ (world.database handle.database).opened) :
    Traced world (handle.delete callbacks ids world).2 := by
  rw [delete_run]
  dsimp only
  split
  · exact .refl world
  · refine staged_traced traced (fun db made value told rows written => ?_) opened
    cases written
    exact .delete _ made

end Handle

namespace Routine

variable {callbacks : Callbacks κ (Observed κ ε)}

/-- A handle that is found by its name was made. -/
private theorem withHandle_traced {id : HandleId}
    {work : Handle → Action κ (Observed κ ε) CallbackError α} {world : World κ (Observed κ ε)}
    (traced : ∀ handle, handle ∈ (world.database handle.database).opened →
      Traced world (work handle world).2) :
    Traced world (withHandle id work world).2 := by
  unfold withHandle World.handle?
  cases found : (world.database id.database).opened.find? fun handle => handle.id = id with
  | none => exact .refl world
  | some handle =>
    have named : handle.id = id := by simpa using List.find?_some found
    refine traced handle ?_
    rw [Handle.database, named]
    exact List.mem_of_find?_eq_some found

/-- If the hooks that a routine's operations call take steps only, so does the routine. -/
theorem run_traced (traced : callbacks.Traced) (routine : Routine κ ε α)
    (world : World κ (Observed κ ε)) : Traced world (routine.run callbacks world).2 := by
  induction routine generalizing world with
  | finish result => exact .observe world
  | look next ih => exact (Traced.observe world).trans (ih _ _)
  | note change next ih =>
    refine (Traced.observe world).trans (Traced.trans ?_ (ih _))
    exact .of_same rfl rfl
  | define database definition next ih =>
    refine (Traced.observe world).trans (.trans (.step (.define definition)) (ih _ _))
  | attach id phase hook next ih =>
    refine (Traced.observe world).trans (withHandle_traced fun handle made => ?_)
    exact .trans (.step (.attach phase hook made)) (ih _)
  | insert id values next ih =>
    refine (Traced.observe world).trans (withHandle_traced fun handle made => ?_)
    exact (Handle.insert_traced traced values made).trans (ih _ _)
  | update id ids values next ih =>
    refine (Traced.observe world).trans (withHandle_traced fun handle made => ?_)
    exact (Handle.update_traced traced ids values made).trans (ih _ _)
  | delete id ids next ih =>
    refine (Traced.observe world).trans (withHandle_traced fun handle made => ?_)
    exact (Handle.delete_traced traced ids made).trans (ih _ _)

end Routine

theorem Traced.holding {action : Action κ (Observed κ ε) CallbackError α} {handle : Handle}
    (traced : ∀ world, Traced world (action world).2) (world : World κ (Observed κ ε)) :
    Traced world (SchemaCompiler.holding [handle] action world).2 := by
  rw [holding_run]
  exact (traced (world.hold handle)).hold

private theorem Callbacks.traced_of {callbacks : Callbacks κ (Observed κ ε)}
    (hook : ∀ callback args world, SchemaCompiler.Traced world (callbacks.hook callback args world).2)
    (common : ∀ callback handle phase args world,
      SchemaCompiler.Traced world (callbacks.common callback handle phase args world).2) :
    callbacks.Traced := by
  intro made args world
  unfold Hook.call
  cases made.action with
  | call callback => exact hook callback args world
  | observe callback => exact hook callback args world
  | bound callback table phase =>
    dsimp only
    rw [bind_run, get_run]
    dsimp only
    split
    · exact Traced.holding (common callback table phase args) world
    · exact .refl world

/-- Hooks that are routines take steps only, however deep they may be nested. -/
theorem Conduct.callbacks_traced (conduct : Conduct κ ε) (depth : Nat) :
    (conduct.callbacks depth).Traced := by
  induction depth with
  | zero => exact Callbacks.traced_of (fun _ _ world => .refl world) fun _ _ _ _ world => .refl world
  | succ depth ih =>
    exact Callbacks.traced_of (fun callback args => Routine.run_traced ih (conduct.hook callback args))
      fun callback handle phase args => Routine.run_traced ih (conduct.common callback handle phase args)

/-- Whatever a routine does, only steps lead to what it leaves. -/
theorem Conduct.run_reaches (conduct : Conduct κ ε) (depth : Nat) (routine : Routine κ ε α)
    (world : World κ (Observed κ ε)) :
    Databases.Reaches world.database (routine.run (conduct.callbacks depth) world).2.database :=
  (Routine.run_traced (conduct.callbacks_traced depth) routine world).reaches

/-- Every state that a run comes through, its last one included, is reached by steps from the first:
whatever hooks do meanwhile, on whichever tables and however deep they are nested. -/
theorem Routine.run_reaches (conduct : Conduct κ ε) (depth : Nat) (routine : Routine κ ε α)
    (world : World κ (Observed κ ε)) (unseen : world.application.seen = []) :
    let after := (routine.run (conduct.callbacks depth) world).2
    ∀ databases ∈ after.database :: after.application.seen,
      Databases.Reaches world.database databases := by
  intro after
  have traced := Routine.run_traced (conduct.callbacks_traced depth) routine world
  obtain ⟨fresh, history, reached⟩ := traced.seen
  rw [unseen, List.append_nil] at history
  rw [List.forall_mem_cons]
  refine ⟨traced.reaches, ?_⟩
  rw [history]
  exact reached

end SchemaCompiler
