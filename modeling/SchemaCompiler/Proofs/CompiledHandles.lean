import SchemaCompiler.Proofs.Compilation
import SchemaCompiler.Proofs.DefinitionRuns

/-! What compiling does with a table, in which order, and what the handle has then. The record of a
compilation follows the agenda of its description, whoever the collaborators are
(`compile_follows_agenda`). In memory the first part of it attaches hooks and methods to a handle
that has none yet, and the rest calls callbacks and the migrator (`Exchange.Called`). So as long as
these attach nothing themselves, each of them finds the handle completely furnished (`Furnished`),
and it stays like that. -/
namespace SchemaCompiler

open Effect

variable {κ ε σ η : Type}

/-! ## Agendas that are followed -/

/-- Exactly the record that nobody cut short has the whole agenda, all granted. -/
theorem Follows.finished_iff {agenda : List (Request κ)} {record : List (Exchange κ σ η)}
    {refusal : Option BuildError} (follows : Follows agenda record refusal) :
    refusal = none ↔ record.map Exchange.request = agenda ∧
      ∀ exchange ∈ record, exchange.refusal = none := by
  induction follows with
  | finished => simp
  | refused exchange rest stopped => simp [stopped]
  | granted exchange went follows ih => simp [ih, went]

/-! ## What finishing steps attach -/

namespace FinishingStep

/-- Whether a step calls a callback or a migrator. The others attach something. -/
def isCall : FinishingStep κ → Bool
  | attach .. | attachCommon .. | register .. => false
  | onDefine _ | onDefineTable _ | migrate .. => true

/-- What a step makes of what is attached to a handle, and of the number of hooks made so far. -/
def adorn (handle : Handle) (before : Decoration κ × Nat) :
    FinishingStep κ → Decoration κ × Nat
  | attach phase hook => (before.1.attach phase hook, before.2)
  | attachCommon phase callback =>
    (before.1.attach phase ⟨before.2, .bound callback handle phase⟩, before.2 + 1)
  | register name method => (before.1.register name method, before.2)
  | onDefine _ | onDefineTable _ | migrate .. => before

end FinishingStep

/-- What is attached to a handle, with the number of hooks made so far. -/
def World.attachments (world : World κ ε) (handle : Handle) : Decoration κ × Nat :=
  (world.decoration handle, world.hooksMade)

/-- Callbacks and migrators that attach nothing to the handle they are called with. -/
structure Callbacks.AttachNothing (callbacks : Callbacks κ ε) : Prop where
  tableMethod : ∀ callback handle args world,
    (callbacks.tableMethod callback handle args world).2.decoration handle = world.decoration handle
  onDefineTable : ∀ callback description handle world,
    (callbacks.onDefineTable callback description handle world).2.decoration handle =
      world.decoration handle
  migrate : ∀ callback handle plan world,
    (callbacks.migrate callback handle plan world).2.decoration handle = world.decoration handle

section Steps

variable (callbacks : Callbacks κ ε) (description : String) (handle : Handle)

private theorem FinishingStep.perform_attaches {step : FinishingStep κ}
    (attaches : step.isCall = false) (world : World κ ε) :
    (step.perform callbacks description handle world).1 = .ok () ∧
      (step.perform callbacks description handle world).2.attachments handle =
        step.adorn handle (world.attachments handle) := by
  cases step with
  | attach phase hook =>
    refine ⟨rfl, Prod.ext ?_ rfl⟩
    exact World.decoration_decorate world handle _
  | attachCommon phase callback =>
    refine ⟨rfl, Prod.ext ?_ rfl⟩
    exact World.decoration_decorate { world with hooksMade := world.hooksMade + 1 } handle _
  | register name method =>
    refine ⟨rfl, Prod.ext ?_ rfl⟩
    exact World.decoration_decorate world handle _
  | onDefine | onDefineTable | migrate => cases attaches

variable {callbacks} in
private theorem FinishingStep.perform_calls (nothing : callbacks.AttachNothing)
    {step : FinishingStep κ} (calls : step.isCall = true) (world : World κ ε) :
    (step.perform callbacks description handle world).2.decoration handle =
      world.decoration handle := by
  cases step with
  | onDefine callback =>
    rw [perform_run]
    exact nothing.tableMethod callback handle [] world
  | onDefineTable callback => exact nothing.onDefineTable callback description handle world
  | migrate migrator plan =>
    cases migrator with
    | store number => rfl
    | custom callback => exact nothing.migrate callback handle plan world
  | attach | attachCommon | register => cases calls

private theorem forM_attaches {steps : List (FinishingStep κ)}
    (attach : ∀ step ∈ steps, step.isCall = false) (world : World κ ε) :
    let ran := steps.forM (FinishingStep.perform callbacks description handle) world
    ran.1 = .ok () ∧
      ran.2.attachments handle =
        steps.foldl (FinishingStep.adorn handle) (world.attachments handle) := by
  induction steps generalizing world with
  | nil => exact ⟨rfl, rfl⟩
  | cons step rest ih =>
    rw [List.forall_mem_cons] at attach
    obtain ⟨went, adorned⟩ :=
      FinishingStep.perform_attaches callbacks description handle attach.1 world
    rw [forM_cons_of_ok went, List.foldl_cons, ← adorned]
    exact ih attach.2 _

end Steps

/-! ## Records -/

namespace Collaborators

variable (others : Collaborators κ σ η) (handle : η)

/-- After steps that are all granted, others are taken from where these ended. -/
theorem append_run (first second : List (FinishingStep κ)) (state : σ)
    (went : (first.forM (others.finish handle) state).1 = .ok ()) :
    let after := (first.forM (others.finish handle) state).2
    others.exchanges handle (first ++ second) state =
        others.exchanges handle first state ++ others.exchanges handle second after ∧
      (first ++ second).forM (others.finish handle) state =
        second.forM (others.finish handle) after := by
  induction first generalizing state with
  | nil => exact ⟨rfl, rfl⟩
  | cons step rest ih =>
    rw [forM_cons_run] at went ⊢
    rw [List.cons_append, forM_cons_run, exchanges, exchanges]
    generalize others.finish handle step state = done at went ⊢
    cases done using outcome_cases with
    | error refusal => cases went
    | ok value after =>
      obtain ⟨asked, ended⟩ := ih after went
      exact ⟨congrArg _ asked, ended⟩

/-- What every step keeps is found by all that are asked, and at the end. -/
theorem exchanges_keep {P : σ → Prop} {steps : List (FinishingStep κ)}
    (keeps : ∀ step ∈ steps, ∀ state, P state → P (others.finish handle step state).2) {state : σ}
    (start : P state) :
    (∀ exchange ∈ others.exchanges handle steps state,
      exchange.handle = some handle ∧ P exchange.found) ∧
      P (steps.forM (others.finish handle) state).2 := by
  induction steps generalizing state with
  | nil => exact ⟨List.forall_mem_nil _, start⟩
  | cons step rest ih =>
    rw [List.forall_mem_cons] at keeps
    have next := keeps.1 state start
    rw [forM_cons_run, exchanges]
    generalize others.finish handle step state = done at next ⊢
    cases done using outcome_cases with
    | error refusal => exact ⟨by simpa using start, next⟩
    | ok value after =>
      obtain ⟨later, last⟩ := ih keeps.2 next
      exact ⟨List.forall_mem_cons.2 ⟨⟨rfl, start⟩, later⟩, last⟩

/-- Whoever is asked is asked for one of the steps. -/
theorem exchanges_request {steps : List (FinishingStep κ)} {state : σ}
    {exchange : Exchange κ σ η} (asked : exchange ∈ others.exchanges handle steps state) :
    ∃ step ∈ steps, exchange.request = .finish step := by
  induction steps generalizing state with
  | nil => cases asked
  | cons step rest ih =>
    rw [exchanges] at asked
    generalize others.finish handle step state = done at asked
    cases done using outcome_cases with
    | error refusal after =>
      cases List.mem_singleton.1 asked
      exact ⟨step, List.mem_cons_self, rfl⟩
    | ok value after =>
      rcases List.mem_cons.1 asked with rfl | later
      · exact ⟨step, List.mem_cons_self, rfl⟩
      · obtain ⟨found, listed, same⟩ := ih later
        exact ⟨found, List.mem_cons_of_mem _ listed, same⟩

end Collaborators

/-! ## Furnished handles -/

/-- A handle with all that its description and the options attach: at each phase the declared hook
and then the common one, told the handle and the phase, and the declared methods. The common hooks
are the next ones after those made so far. -/
structure Furnished (options : CompileOptions κ) (description : Description κ) (made : Nat)
    (handle : Handle) (decoration : Decoration κ) : Prop where
  hooks : ∀ phase, decoration.hooks phase = (description.hookAt? phase).toList ++
    options.commonHook.toList.map fun callback =>
      ⟨made + phase.position, .bound callback handle phase⟩
  methods : decoration.methods.entries = description.ownMethods

namespace CompileOptions

variable {options : CompileOptions κ} {description : Description κ} {step : FinishingStep κ}

theorem isCall_of_mem_attachments (listed : step ∈ options.attachments description) :
    step.isCall = false := by
  simp only [attachments, List.mem_append, List.mem_map, List.mem_flatMap] at listed
  rcases listed with (⟨_, -, rfl⟩ | ⟨_, -, _, -, rfl⟩) | ⟨_, -, rfl⟩ <;> rfl

theorem isCall_of_mem_calls (listed : step ∈ options.calls description) : step.isCall = true := by
  simp only [calls, List.mem_append, List.mem_map] at listed
  rcases listed with (⟨_, -, rfl⟩ | ⟨_, -, rfl⟩) | listed
  · rfl
  · rfl
  · split at listed
    · obtain ⟨_, -, rfl⟩ := List.mem_map.1 listed
      rfl
    · cases listed

end CompileOptions

section Attachments

variable (handle : Handle) (decoration : Decoration κ) (made : Nat)

private theorem foldl_attach (hooks : List (Phase × Hook κ)) :
    (hooks.map fun own => FinishingStep.attach own.1 own.2).foldl (FinishingStep.adorn handle)
        (decoration, made) =
      ({ decoration with attached := decoration.attached ++ hooks }, made) := by
  induction hooks generalizing decoration with
  | nil => simp
  | cons own rest ih =>
    rw [List.map_cons, List.foldl_cons, FinishingStep.adorn, ih]
    simp [Decoration.attach]

private theorem foldl_attachCommon (callback : κ) :
    (Phase.all.map (FinishingStep.attachCommon · callback)).foldl (FinishingStep.adorn handle)
        (decoration, made) =
      ({ decoration with attached := decoration.attached ++ Phase.all.map fun phase =>
          (phase, ⟨made + phase.position, .bound callback handle phase⟩) },
        made + Phase.all.length) := by
  simp [Phase.all, FinishingStep.adorn, Decoration.attach, Phase.position]

private theorem foldl_register (methods : List (String × κ)) :
    (methods.map fun own => FinishingStep.register own.1 own.2).foldl (FinishingStep.adorn handle)
        (decoration, made) =
      ({ decoration with methods := decoration.methods.insertAll methods }, made) := by
  induction methods generalizing decoration with
  | nil => rfl
  | cons own rest ih =>
    rw [List.map_cons, List.foldl_cons, FinishingStep.adorn, ih]
    rfl

end Attachments

/-- What is picked for one phase out of one thing for each. -/
private theorem Phase.filterMap_all {α : Type} (phase : Phase) (value : Phase → α) :
    (all.map fun other => (other, value other)).filterMap
      (fun entry => if entry.1 = phase then some entry.2 else none) = [value phase] := by
  cases phase <;> simp [all]

/-- A handle that had nothing attached is furnished by what is attached to it then. -/
theorem CompileOptions.attachments_furnish (options : CompileOptions κ)
    (description : Description κ) (handle : Handle) (made : Nat) :
    Furnished options description made handle
      ((options.attachments description).foldl (FinishingStep.adorn handle) ({}, made)).1 := by
  rw [attachments, List.foldl_append, List.foldl_append, foldl_attach]
  have own (phase : Phase) := description.ownHooks_at phase
  have methods : ((OrderedMap.empty : OrderedMap String κ).insertAll
      description.ownMethods).entries = description.ownMethods :=
    OrderedMap.entries_ofList description.ownMethods_nodup
  cases common : options.commonHook with
  | none =>
    simp only [Option.toList_none, List.flatMap_nil, List.foldl_nil, foldl_register]
    exact ⟨fun phase => by simpa [Decoration.hooks, common] using own phase, methods⟩
  | some callback =>
    simp only [Option.toList_some, List.flatMap_singleton, foldl_attachCommon, foldl_register]
    refine ⟨fun phase => ?_, methods⟩
    rw [Decoration.hooks, List.filterMap_append, Phase.filterMap_all]
    simp [own, common]

/-! ## Compiling -/

section Compile

variable {callbacks : Callbacks κ ε} {database : String} {options : CompileOptions κ}
  {description : Description κ} {blueprint : Blueprint κ}

/-- Nothing is attached to a handle when the layer hands it out. -/
private theorem define_bare (callbacks : Callbacks κ ε) (name : String) {world after : World κ ε}
    (sound : Database.Sound database (world.database database)) {definition : TableDefinition}
    {handle : Handle}
    (made : (Collaborators.inMemory callbacks database name).define definition world =
      (.ok handle, after)) :
    after.attachments handle = ({}, world.hooksMade) := by
  have bare := sound.bare _ (Nat.le_refl (world.database database).opened.length)
  rw [Collaborators.inMemory] at made
  dsimp only [defineTable] at made
  cases asked : (world.database database).refusal? definition with
  | some refusal =>
    rw [Database.defineTable_refused _ asked] at made
    cases made
  | none =>
    rw [Database.defineTable_accepted _ asked] at made
    cases made
    refine Prod.ext ?_ rfl
    change ((world.setDatabase database _).database database).decoration _ = _
    rw [World.database_setDatabase, Function.update_self]
    exact bare

/-- Attaching all that is declared goes through, and furnishes a handle that has nothing yet. -/
theorem forM_attachments (callbacks : Callbacks κ ε) (options : CompileOptions κ)
    (description : Description κ) {handle : Handle} {world : World κ ε} {made : Nat}
    (bare : world.attachments handle = ({}, made)) :
    let ran := (options.attachments description).forM
      (FinishingStep.perform callbacks description.name handle) world
    ran.1 = .ok () ∧ Furnished options description made handle (ran.2.decoration handle) := by
  have furnished := options.attachments_furnish description handle made
  obtain ⟨went, attached⟩ := forM_attaches callbacks description.name handle
    (fun step (listed : step ∈ options.attachments description) =>
      CompileOptions.isCall_of_mem_attachments listed) world
  rw [← bare, ← attached] at furnished
  exact ⟨went, furnished⟩

/-- Whoever is called after the attachments finds the handle furnished, and so it is at the end, if
those who are called attach nothing. -/
private theorem complete_furnished (nothing : callbacks.AttachNothing)
    (steps : blueprint.steps = options.attachments description ++ options.calls description)
    {world : World κ ε} (sound : Database.Sound database (world.database database)) :
    let others := Collaborators.inMemory callbacks database description.name
    (∀ exchange ∈ others.record blueprint world, ∀ step, exchange.request = .finish step →
      step.isCall = true → ∃ handle, exchange.handle = some handle ∧
        Furnished options description world.hooksMade handle (exchange.found.decoration handle)) ∧
    ∀ handle, (others.complete blueprint world).1 = .ok handle →
      Furnished options description world.hooksMade handle
        ((others.complete blueprint world).2.decoration handle) := by
  intro others
  rw [Collaborators.record_eq, Collaborators.complete_run]
  cases asked : others.define blueprint.definition world using outcome_cases with
  | error refusal => simp
  | ok handle =>
    obtain ⟨went, furnished⟩ := forM_attachments callbacks options description
      (define_bare callbacks description.name sound asked)
    obtain ⟨called, last⟩ := others.exchanges_keep handle
      (P := fun world' =>
        Furnished options description world.hooksMade handle (world'.decoration handle))
      (fun step (listed : step ∈ options.calls description) state before => by
        have kept := FinishingStep.perform_calls description.name handle nothing
          (CompileOptions.isCall_of_mem_calls listed) state
        rwa [← kept] at before) furnished
    dsimp only
    obtain ⟨exchanges, ended⟩ := others.append_run handle _ (options.calls description) _ went
    rw [steps, exchanges, ended]
    refine ⟨?_, fun found same => ?_⟩
    · intro exchange asked step request isCall
      rw [List.mem_cons, List.mem_append] at asked
      rcases asked with rfl | attaching | calling
      · cases request
      · obtain ⟨own, listed, same⟩ := others.exchanges_request handle attaching
        cases same.symm.trans request
        rw [CompileOptions.isCall_of_mem_attachments listed] at isCall
        cases isCall
      · exact ⟨handle, called exchange calling⟩
    · obtain ⟨_, -, own⟩ := map_eq_ok_iff.1 same
      rw [← own]
      exact last

/-- What a request is in memory: a definition, something to be attached, or a call of a callback or
of the migrator with the new handle. It is refused for what the definition or the call fails with,
and nothing else. -/
structure Exchange.Called (callbacks : Callbacks κ ε) (database description : String)
    (exchange : Exchange κ (World κ ε) Handle) : Prop where
  define : ∀ definition, exchange.request = .define definition →
    exchange.refusal = (refusalOf (defineTable database definition exchange.found).1).map .layer
  attach : ∀ step, exchange.request = .finish step → step.isCall = false → exchange.refusal = none
  onDefine : ∀ callback, exchange.request = .finish (.onDefine callback) →
    ∃ handle, exchange.handle = some handle ∧ exchange.refusal =
      (refusalOf (callbacks.tableMethod callback handle [] exchange.found).1).map
        (.callback handle.name .onDefine)
  onDefineTable : ∀ callback, exchange.request = .finish (.onDefineTable callback) →
    ∃ handle, exchange.handle = some handle ∧ exchange.refusal =
      (refusalOf (callbacks.onDefineTable callback description handle exchange.found).1).map
        (.callback handle.name .onDefineTable)
  migrate : ∀ migrator plan, exchange.request = .finish (.migrate migrator plan) →
    ∃ handle, exchange.handle = some handle ∧ exchange.refusal =
      (refusalOf (migrator.migrate callbacks handle plan exchange.found).1).map
        (.migration handle.name)

theorem Exchange.called_of_answered {callbacks : Callbacks κ ε} {database description : String}
    {exchange : Exchange κ (World κ ε) Handle}
    (answered : (Collaborators.inMemory callbacks database description).Answered exchange) :
    exchange.Called callbacks database description where
  define definition asked := by
    rw [answered.define definition asked, Collaborators.inMemory_define]
  attach step asked attaches := by
    obtain ⟨handle, -, same⟩ := answered.finish step asked
    exact same.trans (refusalOf_eq_none_iff.2 ⟨(),
      (FinishingStep.perform_attaches callbacks description handle attaches exchange.found).1⟩)
  onDefine callback asked := by
    obtain ⟨handle, told, same⟩ := answered.finish _ asked
    refine ⟨handle, told, same.trans ?_⟩
    change refusalOf (FinishingStep.perform callbacks description handle _ exchange.found).1 = _
    rw [FinishingStep.perform_run]
    dsimp only
    rw [refusalOf_mapError, refusalOf_map]
  onDefineTable callback asked := by
    obtain ⟨handle, told, same⟩ := answered.finish _ asked
    exact ⟨handle, told, same.trans (refusalOf_mapError _ _)⟩
  migrate migrator plan asked := by
    obtain ⟨handle, told, same⟩ := answered.finish _ asked
    exact ⟨handle, told, same.trans (refusalOf_mapError _ _)⟩

/-- Compiling asks others for nothing until all is planned. From then on, whoever they are and
whatever they answer, they are asked what the description and the options say, in this order and
each once: the definition of the table, each declared hook, the common hook at each phase, each
table method, the two callbacks, and the migration if indexes are to be migrated. It stops right
after the first refusal, and succeeds if there is none.

In memory they are the layer, the callbacks and the migrator, called with the new handle, and what
one of them fails with is the refusal. As long as nobody attaches anything when called, all that are
called find a handle with the declared and the common hook at every phase and with all methods,
whether it is the first of its table or a later one, and that is how the handle is when the table is
compiled. -/
theorem compile_follows_agenda (options : CompileOptions κ) (description : Description κ) :
    (∀ {σ η : Type} (others : Collaborators κ σ η) (state : σ) (table : String)
        (lookup : TableLookup) (c : Classification κ) (mixinFields : List FieldDefinition)
        (blueprint : Blueprint κ),
      description.classify table lookup = .ok c →
      options.blueprint table c mixinFields = .ok blueprint →
      others.recorded.complete blueprint (state, []) =
          ((others.complete blueprint state).1, (others.complete blueprint state).2,
            others.record blueprint state) ∧
        Follows (options.agenda description blueprint.definition) (others.record blueprint state)
          (refusalOf (others.complete blueprint state).1) ∧
        (options.migrateIndexes = true → options.migrator.isSome = true)) ∧
    ∀ {ε : Type} (callbacks : Callbacks κ ε) (database : String) (cache : Nat) (world : World κ ε),
      let result := (compile callbacks database cache options description world).1
      let after := (compile callbacks database cache options description world).2
      let record := compileRecord callbacks database cache options description world
      (∀ refusal drafted,
        draft database cache options description world = (.error refusal, drafted) →
        result = .error refusal ∧ after = drafted ∧ record = []) ∧
      (∀ blueprint drafted,
        draft database cache options description world = (.ok blueprint, drafted) →
        let completed :=
          (Collaborators.inMemory callbacks database description.name).complete blueprint drafted
        let agenda := options.agenda description blueprint.definition
        result = completed.1 ∧ after = completed.2.release drafted ∧
          Follows agenda record (refusalOf result) ∧
          ((∃ handle, result = .ok handle) ↔ record.map Exchange.request = agenda ∧
            ∀ exchange ∈ record, exchange.refusal = none)) ∧
      (∀ exchange ∈ record, exchange.Called callbacks database description.name) ∧
      (callbacks.AttachNothing →
        (∃ calls, world.database database = Database.afterCalls database calls) →
        (∀ exchange ∈ record, ∀ step, exchange.request = .finish step → step.isCall = true →
          ∃ handle, exchange.handle = some handle ∧
            Furnished options description world.hooksMade handle
              (exchange.found.decoration handle)) ∧
        ∀ handle, result = .ok handle →
          Furnished options description world.hooksMade handle (after.decoration handle)) := by
  refine ⟨?_, ?_⟩
  · intro σ η others state table lookup c mixinFields blueprint sorted drawn
    obtain ⟨steps, supplied⟩ :=
      CompileOptions.blueprint_steps (Description.classify_sorted sorted) drawn
    refine ⟨others.complete_recorded blueprint state, ?_, supplied⟩
    have follows := others.record_follows blueprint state
    rwa [steps] at follows
  · intro ε callbacks database cache world
    have spared := draft_sameTables database cache options description world
    simp only [compile_run, compileRecord]
    cases ran : draft database cache options description world using outcome_cases with
    | error refusal =>
      rw [ran] at spared
      refine ⟨?_, fun _ _ same => (nomatch same), List.forall_mem_nil _, fun _ _ => ⟨?_, ?_⟩⟩
      · rintro _ _ ⟨⟩
        exact ⟨rfl, rfl, rfl⟩
      · exact List.forall_mem_nil _
      · exact fun _ same => nomatch same
    | ok blueprint drafted =>
      rw [ran] at spared
      obtain ⟨c, mixinFields, sorted, -, drawn⟩ := draft_ok ran
      obtain ⟨steps, -⟩ :=
        CompileOptions.blueprint_steps (Description.classify_sorted sorted) drawn
      have follows := (Collaborators.inMemory callbacks database description.name).record_follows
        blueprint drafted
      rw [steps] at follows
      refine ⟨fun _ _ same => (nomatch same), ?_, fun exchange asked => ?_,
        fun nothing ⟨calls, run⟩ => ?_⟩
      · rintro _ _ ⟨⟩
        exact ⟨rfl, rfl, follows, refusalOf_eq_none_iff.symm.trans follows.finished_iff⟩
      · exact Exchange.called_of_answered
          (Collaborators.record_answered _ blueprint drafted exchange asked)
      · obtain ⟨count, same⟩ := spared.databases database
        have sound : Database.Sound database (drafted.database database) := by
          rw [same, run]
          exact (Database.Sound.afterCalls database calls).recount count
        have furnished := complete_furnished nothing steps sound
        rw [spared.hooksMade] at furnished
        exact furnished

end Compile

namespace Ledger

/-- Callbacks that do nothing. -/
def idle : Callbacks String Unit where
  hook _ _ := pure .proceed
  common _ _ _ _ := pure .proceed
  tableMethod _ _ _ := pure .null
  onDefineTable _ _ _ := pure ()
  onDefineModel _ _ _ := pure ()
  migrate _ _ _ := pure ()

private theorem idle_attachNothing : idle.AttachNothing :=
  ⟨fun _ _ _ _ => rfl, fun _ _ _ _ => rfl, fun _ _ _ _ => rfl⟩

def ledger : Description String :=
  ⟨1, "ledger", .ofList [("amount", .field (.ofType "int")), ("total", .tableMethod "sum"),
    ("before_insert", .hook ⟨0, .call "stamp"⟩), (onDefineName, .tableMethod "seed")], []⟩

def audited : CompileOptions String := { commonHook := some "audit", onDefineTable := some "announce" }

def definition : TableDefinition :=
  { name := "ledger", fields := [.plain { name := "amount", typeArgs := ["int"] }] }

/-- The table is there already, and one hook was made, which the description declares. -/
def opened : World String Unit where
  databases := .ofList [("main", Database.afterCalls "main" [.define definition])]
  hooksMade := 1
  application := ()

/-- The second handle of a table has the declared hook before the common one where both apply, and
the method but not the callback. -/
theorem compile_follows_agenda_reopened :
    opened.database "main" = Database.afterCalls "main" [.define definition] ∧
    ∃ handle, (compile idle "main" 0 audited ledger opened).1 = .ok handle ∧ handle.id.serial = 1 ∧
      let decoration := (compile idle "main" 0 audited ledger opened).2.decoration handle
      decoration.hooks .beforeInsert =
          [⟨0, .call "stamp"⟩, ⟨1, .bound "audit" handle .beforeInsert⟩] ∧
        decoration.hooks .afterDelete = [⟨6, .bound "audit" handle .afterDelete⟩] ∧
        decoration.methods.entries = [("total", "sum")] := by
  have known : opened.database "main" = Database.afterCalls "main" [.define definition] := rfl
  have made : (compile idle "main" 0 audited ledger opened).1.toOption.map
      (fun handle => handle.id.serial) = some 1 := by decide +kernel
  obtain ⟨handle, compiled⟩ := refusalOf_eq_none_iff.1
    (by decide +kernel : refusalOf (compile idle "main" 0 audited ledger opened).1 = none)
  rw [compiled] at made
  have furnished := ((compile_follows_agenda audited ledger).2 idle "main" 0 opened).2.2.2
    idle_attachNothing ⟨_, known⟩ |>.2 handle compiled
  have own : ledger.hookAt? .beforeInsert = some ⟨0, .call "stamp"⟩ := rfl
  have none : ledger.hookAt? .afterDelete = none := rfl
  refine ⟨known, handle, compiled, Option.some.inj made, ?_, ?_, furnished.methods⟩
  · rw [furnished.hooks, own]
    rfl
  · rw [furnished.hooks, none]
    rfl

end Ledger
end SchemaCompiler
