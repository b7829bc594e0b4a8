import SchemaCompiler.Proofs.HookRoutines
import SchemaCompiler.Proofs.TableLayouts

/-! Tables over a run of calls on one database. A definition is compared with the latest one of its
name only, yet all that were ever accepted for a name lay the table out in the same way: each
accepted one agrees with the latest, and the agreement carries over (`Database.Sound.current`).
`define_run_stable` states this together with what a single accepted or refused call changes.
Between definitions anything may happen to rows, hooks and methods. -/
namespace SchemaCompiler

variable {κ : Type}

/-! ## Calls -/

/-- What is done to a database through itself or through its handles. Handles are named by their
serials; a call that names one that was never made does nothing. -/
inductive DatabaseCall (κ : Type) where
  | define (definition : TableDefinition)
  /-- Asks for the fields of a source that is no table. -/
  | fieldSource
  /-- Whatever an operation through a handle makes of the rows and the counter of its table. -/
  | write (handle : Nat) (rows : Storage)
  | attach (handle : Nat) (phase : Phase) (hook : Hook κ)
  | register (handle : Nat) (name : String) (method : κ)

namespace Database

/-- Changes what is attached to a handle, if it was made. -/
def decorateOpened (db : Database κ) (handle : Nat) (change : Decoration κ → Decoration κ) :
    Database κ :=
  if handle < db.opened.length then db.decorate handle change else db

/-- The database of a name after a call. -/
def afterCall (name : String) (db : Database κ) : DatabaseCall κ → Database κ
  | .define definition => (db.defineTable name definition).2
  | .fieldSource => { db with fieldSourceCount := db.fieldSourceCount + 1 }
  | .write handle rows =>
    match db.opened[handle]? with
    | some handle => db.setStorage handle.name rows
    | none => db
  | .attach handle phase hook => db.decorateOpened handle fun d => d.attach phase hook
  | .register handle name method => db.decorateOpened handle fun d => d.register name method

/-- The database of a name after calls, the first one first. -/
def afterCalls (name : String) (calls : List (DatabaseCall κ)) : Database κ :=
  calls.foldl (afterCall name) {}

theorem afterCalls_concat (name : String) (calls : List (DatabaseCall κ)) (call : DatabaseCall κ) :
    afterCalls name (calls ++ [call]) = afterCall name (afterCalls name calls) call := by
  simp [afterCalls]

/-! ## One definition -/

section Define

variable {db : Database κ} {definition : TableDefinition}

theorem refusal?_eq_none_iff :
    db.refusal? definition = none ↔ definition.fault? = none ∧
      ∀ existing, db.tables.get? definition.name = some existing →
        existing.definition.SameLayout definition := by
  unfold refusal?
  cases definition.fault? with
  | some fault => simp
  | none =>
    cases known : db.tables.get? definition.name with
    | none => simp
    | some existing =>
      simp only [Option.bind_eq_bind, Option.bind_some, true_and, Option.some.injEq, forall_eq',
        ← TableDefinition.difference?_eq_none_iff]
      cases existing.definition.difference? definition <;> simp

theorem defineTable_refused (name : String) {refusal : LayerError}
    (refused : db.refusal? definition = some refusal) :
    db.defineTable name definition =
      (.error refusal, { db with defineCount := db.defineCount + 1 }) := by
  have same : ({ db with defineCount := db.defineCount + 1 } : Database κ).refusal? definition =
      some refusal := refused
  simp only [defineTable, same]

theorem defineTable_accepted (name : String) (accepted : db.refusal? definition = none) :
    db.defineTable name definition =
      (.ok ⟨⟨name, db.opened.length⟩, definition⟩,
        { db with
          tables := db.tables.insert definition.name ⟨⟨name, db.opened.length⟩, definition⟩
          opened := db.opened ++ [⟨⟨name, db.opened.length⟩, definition⟩]
          defineCount := db.defineCount + 1 }) := by
  have same : ({ db with defineCount := db.defineCount + 1 } : Database κ).refusal? definition =
      none := accepted
  simp only [defineTable, same, openHandle]

theorem defineTable_isOk_iff {name : String} :
    (∃ handle, (db.defineTable name definition).1 = .ok handle) ↔ db.refusal? definition = none := by
  cases asked : db.refusal? definition with
  | none => simp [defineTable_accepted _ asked]
  | some refusal => simp [defineTable_refused _ asked]

end Define

/-! ## What every run keeps -/

/-- What holds of a database that was worked on by calls only. -/
structure Sound (name : String) (db : Database κ) : Prop where
  consistent : ∀ handle ∈ db.opened, handle.definition.Consistent
  /-- Every handle that was ever made agrees with the latest one of its name. -/
  current : ∀ handle ∈ db.opened, ∃ latest, db.tables.get? handle.name = some latest ∧
    handle.definition.SameLayout latest.definition
  registered : ∀ table handle, db.tables.get? table = some handle →
    handle.name = table ∧ handle ∈ db.opened
  numbered : ∀ (serial : Nat) (handle : Handle), db.opened[serial]? = some handle →
    handle.id = ⟨name, serial⟩
  /-- Nothing is attached to a handle before it is made. -/
  bare : ∀ serial, db.opened.length ≤ serial → db.decoration serial = {}

namespace Sound

variable {db : Database κ} {name : String}

theorem empty : Sound name ({} : Database κ) where
  consistent _ made := nomatch made
  current _ made := nomatch made
  registered _ _ found := nomatch found
  numbered _ _ made := nomatch made
  bare _ _ := rfl

/-- No handle has the next serial yet. -/
theorem fresh (sound : Sound name db) : ⟨name, db.opened.length⟩ ∉ db.opened.map Handle.id := by
  intro listed
  obtain ⟨handle, made, same⟩ := List.mem_map.1 listed
  obtain ⟨serial, there⟩ := List.getElem?_of_mem made
  rw [sound.numbered serial handle there] at same
  cases same
  exact absurd (List.getElem?_eq_some_iff.1 there).1 (Nat.lt_irrefl _)

theorem define (sound : Sound name db) (definition : TableDefinition) :
    Sound name (db.defineTable name definition).2 := by
  cases asked : db.refusal? definition with
  | some refusal =>
    rw [defineTable_refused _ asked]
    exact ⟨sound.consistent, sound.current, sound.registered, sound.numbered, sound.bare⟩
  | none =>
    obtain ⟨faultless, agrees⟩ := refusal?_eq_none_iff.1 asked
    rw [defineTable_accepted _ asked]
    have made_cases {handle : Handle}
        (made : handle ∈ db.opened ++ [⟨⟨name, db.opened.length⟩, definition⟩]) :
        handle ∈ db.opened ∨ handle = ⟨⟨name, db.opened.length⟩, definition⟩ := by
      simpa using made
    constructor
    · intro handle made
      rcases made_cases made with old | rfl
      · exact sound.consistent handle old
      · exact TableDefinition.consistent_of_faultless faultless
    · intro handle made
      rcases made_cases made with old | rfl
      · obtain ⟨latest, known, same⟩ := sound.current handle old
        dsimp only
        rw [OrderedMap.get?_insert]
        by_cases own : definition.name = handle.name
        · -- The new definition agrees with the latest one before it, hence with all.
          rw [if_pos own]
          exact ⟨_, rfl, same.trans (agrees latest (own ▸ known))⟩
        · rw [if_neg own]
          exact ⟨latest, known, same⟩
      · exact ⟨_, OrderedMap.get?_insert_self .., .refl definition⟩
    · intro table handle found
      dsimp only at found ⊢
      rw [OrderedMap.get?_insert] at found
      split at found
      · next own =>
        cases found
        exact ⟨own, by simp⟩
      · obtain ⟨named, made⟩ := sound.registered table handle found
        exact ⟨named, List.mem_append_left _ made⟩
    · intro serial handle there
      dsimp only at there
      rw [List.getElem?_append] at there
      split at there
      · exact sound.numbered serial handle there
      · next beyond =>
        have last : serial = db.opened.length := by
          have bound := (List.getElem?_eq_some_iff.1 there).1
          simp at bound
          omega
        subst last
        simp at there
        rw [← there]
    · intro serial beyond
      simp only [List.length_append, List.length_singleton] at beyond
      exact sound.bare serial (by omega)

theorem recount (sound : Sound name db) (count : Nat) :
    Sound name { db with fieldSourceCount := count } :=
  ⟨sound.consistent, sound.current, sound.registered, sound.numbered, sound.bare⟩

theorem setStorage (sound : Sound name db) (table : String) (rows : Storage) :
    Sound name (db.setStorage table rows) :=
  ⟨sound.consistent, sound.current, sound.registered, sound.numbered, sound.bare⟩

private theorem decorateOpened (sound : Sound name db) (handle : Nat)
    (change : Decoration κ → Decoration κ) : Sound name (db.decorateOpened handle change) := by
  unfold Database.decorateOpened
  split
  · next made =>
    refine ⟨sound.consistent, sound.current, sound.registered, sound.numbered, ?_⟩
    intro serial beyond
    have other : handle ≠ serial := by
      rintro rfl
      exact absurd made (Nat.not_lt.2 beyond)
    have bare := sound.bare serial beyond
    unfold decoration at bare ⊢
    rw [decorate, OrderedMap.get?_insert, if_neg other]
    exact bare
  · exact sound

theorem afterCall (sound : Sound name db) (call : DatabaseCall κ) :
    Sound name (db.afterCall name call) := by
  cases call with
  | define definition => exact sound.define definition
  | fieldSource => exact sound.recount _
  | write handle rows =>
    rw [Database.afterCall]
    split
    · exact sound.setStorage _ rows
    · exact sound
  | attach handle phase hook => exact sound.decorateOpened handle _
  | register handle name method => exact sound.decorateOpened handle _

theorem foldl (sound : Sound name db) (calls : List (DatabaseCall κ)) :
    Sound name (calls.foldl (Database.afterCall name) db) := by
  induction calls generalizing db with
  | nil => exact sound
  | cons call rest ih => exact ih (sound.afterCall call)

theorem afterCalls (name : String) (calls : List (DatabaseCall κ)) :
    Sound name (Database.afterCalls name calls) := empty.foldl calls

/-- Any two definitions that were accepted for one name agree. -/
theorem agree (sound : Sound name db) {a b : Handle} (made : a ∈ db.opened) (made' : b ∈ db.opened)
    (same : a.name = b.name) : a.definition.SameLayout b.definition := by
  obtain ⟨latest, known, here⟩ := sound.current a made
  obtain ⟨latest', known', there⟩ := sound.current b made'
  rw [same, known'] at known
  cases known
  exact here.trans there.symm

end Sound

/-! ## Runs -/

/-- A step that an operation on rows can take is one of the calls. -/
theorem Step.isCall {name : String} {db after : Database κ} (sound : Sound name db)
    (step : Step name db after) : ∃ call, after = db.afterCall name call := by
  have written {handle : Handle} (made : handle ∈ db.opened) (rows : Storage) :
      ∃ call, db.setStorage handle.name rows = db.afterCall name call := by
    obtain ⟨serial, there⟩ := List.getElem?_of_mem made
    exact ⟨.write serial rows, by rw [Database.afterCall, there]⟩
  cases step with
  | define definition => exact ⟨.define definition, rfl⟩
  | insert made admitted filed => exact written made _
  | update ids made admitted => exact written made _
  | delete ids made => exact written made _
  | @attach handle phase hook made =>
    obtain ⟨serial, there⟩ := List.getElem?_of_mem made
    have number := sound.numbered serial handle there
    have bound := (List.getElem?_eq_some_iff.1 there).1
    exact ⟨.attach serial phase hook, by
      rw [Database.afterCall, decorateOpened, if_pos bound, number]⟩

end Database

/-- Whatever operations do to databases, hooks included, each of them was worked on by calls only. -/
theorem Databases.Reachable.afterCalls {databases : Databases κ} (reachable : Reachable databases)
    (name : String) : ∃ calls, databases name = Database.afterCalls name calls := by
  refine Reaches.keeps (P := fun db => ∃ calls, db = Database.afterCalls name calls) ?_ reachable
    ⟨[], rfl⟩
  rintro _ after step ⟨calls, rfl⟩
  obtain ⟨call, rfl⟩ := step.isCall (.afterCalls name calls)
  exact ⟨calls ++ [call], (Database.afterCalls_concat name calls call).symm⟩

namespace Database

private theorem opened_afterCall (name : String) (db : Database κ) (call : DatabaseCall κ) :
    db.opened <+: (db.afterCall name call).opened := by
  cases call with
  | define definition => exact db.opened_defineTable name definition
  | fieldSource => exact List.prefix_rfl
  | write handle rows =>
    rw [afterCall]
    split <;> exact List.prefix_rfl
  | attach | register =>
    rw [afterCall, decorateOpened]
    split <;> exact List.prefix_rfl

private theorem opened_foldl (name : String) (db : Database κ) (calls : List (DatabaseCall κ)) :
    db.opened <+: (calls.foldl (afterCall name) db).opened := by
  induction calls generalizing db with
  | nil => exact List.prefix_rfl
  | cons call rest ih => exact (db.opened_afterCall name call).trans (ih _)

/-- An accepted definition stays among those that were accepted. -/
private theorem opened_of_accepted {name : String} {earlier : List (DatabaseCall κ)}
    {definition : TableDefinition} {handle : Handle} (later : List (DatabaseCall κ))
    (accepted : ((afterCalls name earlier).defineTable name definition).1 = .ok handle) :
    handle.definition = definition ∧
      handle ∈ (afterCalls name (earlier ++ .define definition :: later)).opened := by
  have asked := defineTable_isOk_iff.1 ⟨handle, accepted⟩
  have made := defineTable_accepted name asked
  rw [made] at accepted
  cases accepted
  refine ⟨rfl, ?_⟩
  rw [afterCalls, List.foldl_append, List.foldl_cons]
  refine (opened_foldl name _ later).subset ?_
  rw [← afterCalls, afterCall, made]
  simp

/-- Any run of definitions on one database, with whatever is done to rows, hooks and methods in
between.

Every registered table has distinct field names and a key of stored fields, and is registered under
its own name. Two definitions that were ever accepted for a name lay the table out in the same way.
A refused definition leaves tables, handles and rows as they were. An accepted one makes a fresh
handle the current one of its name, without hooks and methods, keeps the place of the name if it
was known, and changes no other table, no rows and no counter.

Such a run covers whatever routines do with the database, also from within hooks. -/
theorem define_run_stable (name : String) (calls : List (DatabaseCall κ)) :
    let db := afterCalls name calls
    (∀ table handle, db.tables.get? table = some handle →
      handle.definition.name = table ∧ handle.definition.Consistent) ∧
    (∀ earlier a between b later,
      calls = earlier ++ .define a :: (between ++ .define b :: later) →
      (∃ handle, ((afterCalls name earlier).defineTable name a).1 = .ok handle) →
      (∃ handle, ((afterCalls name (earlier ++ .define a :: between)).defineTable name b).1 =
        .ok handle) →
      a.name = b.name → a.SameLayout b) ∧
    (∀ definition refusal, (db.defineTable name definition).1 = .error refusal →
      let after := (db.defineTable name definition).2
      after.tables = db.tables ∧ after.opened = db.opened ∧ after.storages = db.storages ∧
        after.decorations = db.decorations) ∧
    (∀ definition handle, (db.defineTable name definition).1 = .ok handle →
      let after := (db.defineTable name definition).2
      handle.definition = definition ∧ handle.id ∉ db.opened.map Handle.id ∧
        after.tables.get? definition.name = some handle ∧
        (∀ other, other ≠ definition.name → after.tables.get? other = db.tables.get? other) ∧
        after.tables.keys = (if definition.name ∈ db.tables.keys then db.tables.keys
          else db.tables.keys ++ [definition.name]) ∧
        (after.decoration handle.id.serial).attached = [] ∧
        (after.decoration handle.id.serial).methods = .empty ∧
        after.decorations = db.decorations ∧ after.storages = db.storages) ∧
    ∀ {ε α : Type} (conduct : Conduct κ ε) (depth : Nat) (routine : Routine κ ε α) (own : ε),
      let after := (routine.run (conduct.callbacks depth) { application := { own } }).2
      ∀ databases ∈ after.database :: after.application.seen,
        ∃ calls, databases name = afterCalls name calls := by
  intro db
  have sound : Sound name db := .afterCalls name calls
  refine ⟨?_, ?_, ?_, ?_, ?_⟩
  · intro table handle found
    obtain ⟨named, made⟩ := sound.registered table handle found
    exact ⟨named, sound.consistent handle made⟩
  · rintro earlier a between b later rfl ⟨first, accepted⟩ ⟨second, accepted'⟩ same
    obtain ⟨rfl, made⟩ :=
      opened_of_accepted (between ++ .define b :: later) accepted
    obtain ⟨rfl, made'⟩ := opened_of_accepted later accepted'
    rw [List.append_assoc, List.cons_append] at made'
    exact sound.agree made made' same
  · intro definition refusal refused
    cases asked : db.refusal? definition with
    | none =>
      rw [defineTable_accepted _ asked] at refused
      cases refused
    | some refusal =>
      rw [defineTable_refused _ asked]
      exact ⟨rfl, rfl, rfl, rfl⟩
  · intro definition handle accepted
    have asked := defineTable_isOk_iff.1 ⟨handle, accepted⟩
    rw [defineTable_accepted _ asked] at accepted ⊢
    cases accepted
    have bare : db.decoration db.opened.length = {} := sound.bare _ (Nat.le_refl _)
    refine ⟨rfl, sound.fresh, OrderedMap.get?_insert_self .., ?_, OrderedMap.keys_insert ..,
      congrArg Decoration.attached bare, congrArg Decoration.methods bare, rfl, rfl⟩
    intro other distinct
    dsimp only
    rw [OrderedMap.get?_insert, if_neg (Ne.symm distinct)]
  · intro ε α conduct depth routine own after databases passed
    have reachable : Databases.Reachable databases :=
      Routine.run_reaches conduct depth routine _ rfl databases passed
    exact reachable.afterCalls name

end Database
namespace Reordered

/-- A definition with two options, in the given order. -/
def users (options : List (String × Json)) : TableDefinition :=
  { name := "users", options := .ofList options }

def first : TableDefinition := users [("engine", .string "log"), ("durable", .bool true)]

def second : TableDefinition := users [("durable", .bool true), ("engine", .string "log")]

def calls : List (DatabaseCall Unit) := [.define first, .write 0 {}, .define second]

/-- The order of options is no part of the layout, so a table can be opened with either, and its
name stays where it is. -/
theorem define_run_stable_reordered :
    first.SameLayout second ∧ (Database.afterCalls "main" calls).tables.keys = ["users"] ∧
      (Database.afterCalls "main" calls).opened.length = 2 := by
  have accepted : ((Database.afterCalls (κ := Unit) "main" [.define first, .write 0 {}]).refusal?
      second).isNone := by decide +kernel
  have stable := (Database.define_run_stable "main" calls).2.1 [] first [.write 0 {}] second [] rfl
    ⟨_, rfl⟩ (Database.defineTable_isOk_iff.2 (Option.isNone_iff_eq_none.1 accepted)) rfl
  exact ⟨stable, by decide +kernel, by decide +kernel⟩

end Reordered
end SchemaCompiler
