import SchemaCompiler.Build.Group
import SchemaCompiler.Proofs.Compilation
import SchemaCompiler.Proofs.OrderedMaps

/-! Work that is done in turn. A group's tables are compiled, and groups are built, one after the
other: each in the world that the one before left, with all tables that are done by then held open,
up to the first failure. `turns` lists what was begun that way, with the world each turn found and
left, and `inTurn_exact` says that this is all that happens. Both loops of a builder are of this
kind (`compileAll_run`, `buildInto_run`). -/
namespace SchemaCompiler

open Effect

variable {κ ε α : Type}

/-! ## Turns -/

/-- The world while handles are held open. -/
def World.holdAll (world : World κ ε) (handles : List Handle) : World κ ε :=
  { world with inUse := handles ++ world.inUse }

theorem holdingAll_run {e : Type} (handles : List Handle) (action : Action κ ε e α)
    (world : World κ ε) :
    holding handles action world =
      ((action (world.holdAll handles)).1, (action (world.holdAll handles)).2.release world) := rfl

/-- Work that was begun on an item, with the world it found and the one it left. -/
structure Turn (κ ε α : Type) where
  item : α
  found : World κ ε
  result : Except BuildError (List (String × Handle))
  left : World κ ε

namespace Turn

/-- The tables that a turn gave. -/
def tables (turn : Turn κ ε α) : List (String × Handle) :=
  match turn.result with
  | .ok tables => tables
  | .error _ => []

def Succeeded (turn : Turn κ ε α) : Prop := ∃ tables, turn.result = .ok tables

end Turn

section InTurn

variable (work : α → Action κ ε BuildError (List (String × Handle)))

/-- Works on items in turn and adds the tables to those that are done. -/
def inTurn (done : OrderedMap String Handle) :
    List α → Action κ ε BuildError (OrderedMap String Handle)
  | [] => return done
  | item :: rest => do
    let tables ← holding done.values (work item)
    inTurn (done.insertAll tables) rest

/-- The turns that are taken. -/
def turns (done : OrderedMap String Handle) : List α → World κ ε → List (Turn κ ε α)
  | [], _ => []
  | item :: rest, world =>
    let found := world.holdAll done.values
    match work item found with
    | (.error refusal, left) => [⟨item, found, .error refusal, left⟩]
    | (.ok tables, left) =>
      ⟨item, found, .ok tables, left⟩ :: turns (done.insertAll tables) rest (left.release world)

/-- The world is passed on from turn to turn. For each some handles are held open on top of those
that were. -/
inductive Passed : World κ ε → List (Turn κ ε α) → World κ ε → Prop
  | nil (world : World κ ε) : Passed world [] world
  | cons {world finished : World κ ε} {turn : Turn κ ε α} {rest : List (Turn κ ε α)}
      (held : List Handle) (found : turn.found = world.holdAll held)
      (later : Passed (turn.left.release world) rest finished) : Passed world (turn :: rest) finished

/-- Whatever relation each turn keeps to, and holding handles open does as well, holds between the
start and each turn, and between each turn and the end. -/
theorem Passed.relates {R : World κ ε → World κ ε → Prop} (refl : ∀ now, R now now)
    (trans : ∀ {first second third}, R first second → R second third → R first third)
    (held : ∀ now handles, R now (now.holdAll handles))
    (released : ∀ now other, R now (now.release other))
    {world finished : World κ ε} {taken : List (Turn κ ε α)}
    (each : ∀ turn ∈ taken, R turn.found turn.left) (passed : Passed world taken finished) :
    R world finished ∧ ∀ turn ∈ taken, R world turn.found ∧ R turn.left finished := by
  induction passed with
  | nil world => exact ⟨refl world, List.forall_mem_nil _⟩
  | @cons world finished turn rest handles found later ih =>
    rw [List.forall_mem_cons] at each ⊢
    obtain ⟨whole, parts⟩ := ih each.2
    have begun : R world turn.found := by
      rw [found]
      exact held world handles
    have ended : R turn.left finished := trans (released turn.left world) whole
    have handed : R world (turn.left.release world) :=
      trans begun (trans each.1 (released turn.left world))
    exact ⟨trans handed whole, ⟨begun, ended⟩, fun other listed =>
      ⟨trans handed (parts other listed).1, (parts other listed).2⟩⟩

/-- What the turns on items come to: they are taken in the order of the items, each does the work
on its item, the world is passed on from one to the next, nothing comes after a failure, and
without one all items have their turn. -/
structure TakenInTurn (items : List α) (world : World κ ε) (taken : List (Turn κ ε α))
    (finished : World κ ε) : Prop where
  order : taken.map Turn.item <+: items
  worked : ∀ turn ∈ taken, work turn.item turn.found = (turn.result, turn.left)
  passed : Passed world taken finished
  stops : ∀ turn ∈ taken, ∀ refusal, turn.result = .error refusal → taken.getLast? = some turn
  complete : (∀ turn ∈ taken, turn.Succeeded) → taken.map Turn.item = items

variable {work} in
/-- Only items have their turn. -/
theorem TakenInTurn.mem {items : List α} {world finished : World κ ε} {taken : List (Turn κ ε α)}
    (turns : TakenInTurn work items world taken finished) {turn : Turn κ ε α}
    (listed : turn ∈ taken) : turn.item ∈ items :=
  turns.order.subset (List.mem_map_of_mem listed)

/-- The first refusal among turns. -/
def refusedIn (taken : List (Turn κ ε α)) : Option BuildError :=
  taken.findSome? fun turn => refusalOf turn.result

theorem refusedIn_eq_none_iff {taken : List (Turn κ ε α)} :
    refusedIn taken = none ↔ ∀ turn ∈ taken, turn.Succeeded := by
  simp only [refusedIn, List.findSome?_eq_none_iff, refusalOf_eq_none_iff, Turn.Succeeded]

/-- If a turn fails, its refusal is the first. -/
theorem TakenInTurn.refusedIn {items : List α} {world finished : World κ ε}
    {taken : List (Turn κ ε α)} (turns : TakenInTurn work items world taken finished)
    {turn : Turn κ ε α} (listed : turn ∈ taken) {refusal : BuildError}
    (failed : turn.result = .error refusal) : refusedIn taken = some refusal := by
  cases found : SchemaCompiler.refusedIn taken with
  | none =>
    obtain ⟨tables, went⟩ := refusedIn_eq_none_iff.1 found turn listed
    rw [failed] at went
    cases went
  | some other =>
    obtain ⟨first, listed', refused⟩ := List.exists_of_findSome?_eq_some found
    have failed' := refusalOf_eq_some_iff.1 refused
    have last := (turns.stops first listed' other failed').symm.trans
      (turns.stops turn listed refusal failed)
    cases last
    rw [failed] at failed'
    cases failed'
    rfl

/-- Working in turn is nothing but the turns: it fails as the turn that fails, and otherwise gives
the tables of all turns. -/
theorem inTurn_exact (done : OrderedMap String Handle) (items : List α) (world : World κ ε) :
    ∃ finished, TakenInTurn work items world (turns work done items world) finished ∧
      inTurn work done items world =
        (match refusedIn (turns work done items world) with
          | some refusal => .error refusal
          | none => .ok (done.insertAll ((turns work done items world).flatMap Turn.tables)),
        finished) := by
  induction items generalizing done world with
  | nil =>
    refine ⟨world, ⟨List.prefix_rfl, ?_, .nil world, ?_, fun _ => rfl⟩, rfl⟩
    · exact List.forall_mem_nil _
    · exact List.forall_mem_nil _
  | cons item rest ih =>
    rw [inTurn, bind_run, holdingAll_run, turns]
    cases did : work item (world.holdAll done.values) using outcome_cases with
    | error refusal left =>
      refine ⟨left.release world, ⟨?_, ?_, ?_, ?_, ?_⟩, rfl⟩
      · exact List.prefix_append [item] rest
      · intro turn listed
        cases List.mem_singleton.1 listed
        exact did
      · exact .cons done.values rfl (.nil _)
      · intro turn listed _ _
        cases List.mem_singleton.1 listed
        rfl
      · intro all
        obtain ⟨tables, same⟩ := all _ List.mem_cons_self
        cases same
    | ok tables left =>
      obtain ⟨finished, later, ran⟩ := ih (done.insertAll tables) (left.release world)
      refine ⟨finished, ⟨?_, ?_, ?_, ?_, ?_⟩, ?_⟩
      · exact List.cons_prefix_cons.2 ⟨rfl, later.order⟩
      · exact List.forall_mem_cons.2 ⟨did, later.worked⟩
      · exact .cons done.values rfl later.passed
      · intro turn listed refusal failed
        rcases List.mem_cons.1 listed with rfl | listed
        · cases failed
        · rw [List.getLast?_cons, later.stops turn listed refusal failed]
          rfl
      · intro all
        rw [List.forall_mem_cons] at all
        rw [List.map_cons, later.complete all.2]
      · dsimp only
        rw [ran, List.flatMap_cons, OrderedMap.insertAll_append]
        rfl

end InTurn

/-! ## The loops of a builder -/

namespace Builder

variable (callbacks : Callbacks κ ε) (builder : Builder κ)

/-- Compiles one table of a group. -/
def compileTable (group : Group κ) (table : String × Description κ) :
    Action κ ε BuildError (List (String × Handle)) := do
  let handle ← compile callbacks builder.database builder.cache
    (group.compileOptions builder table.1) table.2
  return [(table.1, handle)]

/-- Builds one group. -/
def buildGroup (group : Group κ) : Action κ ε BuildError (List (String × Handle)) := do
  let tables ← builder.build callbacks group
  return tables.entries

/-- The compilations that a build of a group begins. -/
def compilations (group : Group κ) (world : World κ ε) :
    List (Turn κ ε (String × Description κ)) :=
  turns (builder.compileTable callbacks group) .empty group.tables.entries world

/-- The builds of groups that are begun. -/
def builds (groups : List (Group κ)) (world : World κ ε) : List (Turn κ ε (Group κ)) :=
  turns (builder.buildGroup callbacks) .empty groups world

theorem compileTable_run (group : Group κ) (table : String × Description κ) (world : World κ ε) :
    builder.compileTable callbacks group table world =
      let ran := compile callbacks builder.database builder.cache
        (group.compileOptions builder table.1) table.2 world
      (ran.1.map fun handle => [(table.1, handle)], ran.2) := by
  rw [compileTable, bind_run]
  cases compile callbacks builder.database builder.cache
    (group.compileOptions builder table.1) table.2 world using outcome_cases <;> rfl

private theorem buildGroup_run (group : Group κ) (world : World κ ε) :
    builder.buildGroup callbacks group world =
      let ran := builder.build callbacks group world
      (ran.1.map OrderedMap.entries, ran.2) := by
  rw [buildGroup, bind_run]
  cases builder.build callbacks group world using outcome_cases <;> rfl

theorem compileAll_run (group : Group κ) (done : OrderedMap String Handle)
    (tables : List (String × Description κ)) (world : World κ ε) :
    builder.compileAll callbacks group done tables world =
      inTurn (builder.compileTable callbacks group) done tables world := by
  induction tables generalizing done world with
  | nil => rfl
  | cons table rest ih =>
    obtain ⟨name, description⟩ := table
    rw [compileAll, inTurn, bind_run, bind_run, holdingAll_run, holdingAll_run, compileTable_run]
    dsimp only
    cases compile callbacks builder.database builder.cache (group.compileOptions builder name)
      description (world.holdAll done.values) using outcome_cases with
    | error refusal => rfl
    | ok handle => exact ih (done.insert name handle) _

theorem buildInto_run (done : OrderedMap String Handle) (groups : List (Group κ))
    (world : World κ ε) :
    builder.buildInto callbacks done groups world =
      inTurn (builder.buildGroup callbacks) done groups world := by
  induction groups generalizing done world with
  | nil => rfl
  | cons group rest ih =>
    rw [buildInto, inTurn, bind_run, bind_run, holdingAll_run, holdingAll_run, buildGroup_run]
    dsimp only
    cases builder.build callbacks group (world.holdAll done.values) using outcome_cases with
    | error refusal => rfl
    | ok tables => exact ih (done.insertAll tables.entries) _

end Builder
end SchemaCompiler
