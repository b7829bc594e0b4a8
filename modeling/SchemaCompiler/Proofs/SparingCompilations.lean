import SchemaCompiler.Proofs.CompiledDefinitions
import SchemaCompiler.Proofs.Redrafting
import SchemaCompiler.Proofs.RepeatedMigrations

/-! Compilations whose callbacks touch neither tables nor stored indexes. Whatever comes of such a
compilation, what is known of tables by then stays true (`World.Later`): a name that has a table has
one of this layout, handles keep what is attached to them, and cached signatures and sound stores
stay what they are. If it succeeds, the world differs from the drafted one by the new handle, what
is attached to it, and its migration (`CompiledTo`). What becomes of a single store is known as soon
as callbacks leave that store as it is (`compile_migrates`). -/
namespace SchemaCompiler

open Effect

variable {κ ε : Type}

/-! ## Callbacks that touch nothing -/

/-- Neither tables nor stored indexes changed, and what was cached is. -/
structure World.Untouched (before after : World κ ε) : Prop where
  database : after.database = before.database
  cache : ∀ number, (before.cache number).KeptBy (after.cache number)
  store : after.store = before.store

/-- Nothing changed in the databases but what is attached to a handle, and what was cached is. -/
structure World.Adorned (handle : Handle) (before after : World κ ε) : Prop where
  databases : ∀ name, ∃ decorations,
    after.database name = { before.database name with decorations }
  elsewhere : ∀ name serial, handle.id ≠ ⟨name, serial⟩ →
    (after.database name).decoration serial = (before.database name).decoration serial
  cache : ∀ number, (before.cache number).KeptBy (after.cache number)

namespace World

variable {handle : Handle} {before middle after : World κ ε}

theorem Adorned.refl (handle : Handle) (world : World κ ε) : world.Adorned handle world :=
  ⟨fun name => ⟨(world.database name).decorations, rfl⟩, fun _ _ _ => rfl, fun _ => .refl _⟩

theorem Adorned.trans (first : before.Adorned handle middle) (second : middle.Adorned handle after) :
    before.Adorned handle after where
  databases name := by
    obtain ⟨_, same⟩ := first.databases name
    obtain ⟨decorations, same'⟩ := second.databases name
    exact ⟨decorations, by rw [same', same]⟩
  elsewhere name serial other :=
    (second.elsewhere name serial other).trans (first.elsewhere name serial other)
  cache number := (first.cache number).trans (second.cache number)

theorem Untouched.adorned (untouched : before.Untouched after) (handle : Handle) :
    before.Adorned handle after where
  databases name := ⟨(before.database name).decorations, by rw [untouched.database]⟩
  elsewhere name serial _ := by rw [untouched.database]
  cache := untouched.cache

private theorem adorned_decorate (world : World κ ε) (handle : Handle)
    (change : Decoration κ → Decoration κ) : world.Adorned handle (world.decorate handle change) := by
  have databases : (world.decorate handle change).database = Function.update world.database
      handle.database ((world.database handle.database).decorate handle.id.serial change) :=
    database_setDatabase _ _
  refine ⟨fun name => ?_, fun name serial other => ?_, fun _ => .refl _⟩
  · rw [databases]
    by_cases own : name = handle.database
    · subst own
      exact ⟨_, Function.update_self ..⟩
    · exact ⟨(world.database name).decorations, by rw [Function.update_of_ne own]⟩
  · rw [databases]
    by_cases own : name = handle.database
    · subst own
      have different : handle.id.serial ≠ serial := by
        intro same
        subst same
        exact other rfl
      rw [Function.update_self, Database.decoration, Database.decorate, OrderedMap.get?_insert,
        if_neg different]
      rfl
    · rw [Function.update_of_ne own]

@[simp] theorem store_setStore (world : World κ ε) (number : Nat) (store : StoreMigrator) :
    (world.setStore number store).store = Function.update world.store number store := by
  funext probe
  unfold World.store setStore
  rw [OrderedMap.get?_insert, Function.update_apply]
  by_cases same : number = probe
  · simp [same]
  · simp [same, Ne.symm same]

end World

/-! ## Finishing steps -/

namespace FinishingStep

/-- A step that calls nobody but those who touch nothing, and a migrator of a store at most. -/
def Spares (callbacks : Callbacks κ ε) : FinishingStep κ → Prop
  | onDefine callback => ∀ handle world,
    World.Untouched world (callbacks.tableMethod callback handle [] world).2
  | onDefineTable callback => ∀ description handle world,
    World.Untouched world (callbacks.onDefineTable callback description handle world).2
  | migrate migrator _ => ∃ number, migrator = .store number
  | _ => True

/-- A step that calls nobody but those who leave a store as it is, and a migrator of a store at
most. -/
def LeavesStore (callbacks : Callbacks κ ε) (number : Nat) : FinishingStep κ → Prop
  | onDefine callback => ∀ handle world,
    World.store (callbacks.tableMethod callback handle [] world).2 number = world.store number
  | onDefineTable callback => ∀ description handle world,
    World.store (callbacks.onDefineTable callback description handle world).2 number =
      world.store number
  | migrate migrator _ => ∃ asked, migrator = .store asked
  | _ => True

variable {callbacks : Callbacks κ ε} {step : FinishingStep κ} {number : Nat}

theorem Spares.leavesStore (spares : step.Spares callbacks) (number : Nat) :
    step.LeavesStore callbacks number := by
  cases step with
  | onDefine callback =>
    exact fun handle world => congrFun (spares handle world).store number
  | onDefineTable callback =>
    exact fun description handle world => congrFun (spares description handle world).store number
  | migrate migrator plan => exact spares
  | attach | attachCommon | register => trivial

private theorem perform_adorns (spares : step.Spares callbacks) (description : String)
    (handle : Handle) (world : World κ ε) :
    world.Adorned handle (step.perform callbacks description handle world).2 := by
  cases step with
  | attach phase hook => exact world.adorned_decorate handle _
  | attachCommon phase callback =>
    have counted : world.Adorned handle { world with hooksMade := world.hooksMade + 1 } :=
      ⟨fun name => ⟨(world.database name).decorations, rfl⟩, fun _ _ _ => rfl, fun _ => .refl _⟩
    exact counted.trans (World.adorned_decorate _ handle _)
  | register name method => exact world.adorned_decorate handle _
  | onDefine callback =>
    rw [perform_run]
    exact (spares handle world).adorned handle
  | onDefineTable callback => exact (spares description handle world).adorned handle
  | migrate migrator plan =>
    obtain ⟨number, rfl⟩ := spares
    exact ⟨fun name => ⟨(world.database name).decorations, rfl⟩, fun _ _ _ => rfl, fun _ => .refl _⟩

/-- Only what attaches something changes a database. -/
private theorem perform_database (spares : step.Spares callbacks) (calls : step.isCall = true)
    (description : String) (handle : Handle) (world : World κ ε) :
    (step.perform callbacks description handle world).2.database = world.database := by
  cases step with
  | onDefine callback =>
    rw [perform_run]
    exact (spares handle world).database
  | onDefineTable callback => exact (spares description handle world).database
  | migrate migrator plan =>
    obtain ⟨number, rfl⟩ := spares
    rfl
  | attach | attachCommon | register => cases calls

/-- Only migrations work on stored indexes. -/
private theorem perform_store (leaves : step.LeavesStore callbacks number)
    (other : step.isMigration = false)
    (description : String) (handle : Handle) (world : World κ ε) :
    (step.perform callbacks description handle world).2.store number = world.store number := by
  cases step with
  | attach phase hook => rfl
  | attachCommon phase callback => rfl
  | register name method => rfl
  | onDefine callback =>
    rw [perform_run]
    exact leaves handle world
  | onDefineTable callback => exact leaves description handle world
  | migrate migrator plan => cases other

private theorem perform_sound (leaves : step.LeavesStore callbacks number) (description : String)
    (handle : Handle) (world : World κ ε) (sound : (world.store number).store.Sound) :
    ((step.perform callbacks description handle world).2.store number).store.Sound := by
  cases migrates : step.isMigration with
  | false =>
    rw [perform_store leaves migrates]
    exact sound
  | true =>
    cases step with
    | migrate migrator plan =>
      obtain ⟨asked, rfl⟩ := leaves
      rw [perform_run]
      dsimp only
      rw [World.store_setStore]
      by_cases own : number = asked
      · subst own
        rw [Function.update_self]
        exact sound.migrate (world.store number).keepUnknown _ plan
      · rwa [Function.update_of_ne own]
    | _ => cases migrates

end FinishingStep

section Finish

variable {callbacks : Callbacks κ ε} {options : CompileOptions κ} {description : Description κ}

private theorem forM_adorns {steps : List (FinishingStep κ)}
    (spare : ∀ step ∈ steps, step.Spares callbacks)
    (name : String) (handle : Handle) (world : World κ ε) :
    world.Adorned handle (steps.forM (FinishingStep.perform callbacks name handle) world).2 := by
  have each (step) (listed : step ∈ steps) (now : World κ ε) (before : world.Adorned handle now) :
      world.Adorned handle (step.perform callbacks name handle now).2 :=
    before.trans (FinishingStep.perform_adorns (spare step listed) name handle now)
  exact forM_keeps each (.refl handle world)

private theorem forM_sound {steps : List (FinishingStep κ)}
    (spare : ∀ step ∈ steps, step.Spares callbacks)
    (name : String) (handle : Handle) (world : World κ ε) (number : Nat)
    (sound : (world.store number).store.Sound) :
    ((steps.forM (FinishingStep.perform callbacks name handle) world).2.store number).store.Sound := by
  have each (step) (listed : step ∈ steps) (now : World κ ε)
      (before : (now.store number).store.Sound) :
      ((step.perform callbacks name handle now).2.store number).store.Sound :=
    FinishingStep.perform_sound ((spare step listed).leavesStore number) name handle now before
  exact forM_keeps (P := fun now : World κ ε => (now.store number).store.Sound) each sound

variable (callbacks) in
/-- Whoever is appointed carries out the migration with its own store, or refuses it. -/
private theorem appointed_run {appointed : Option (IndexMigrator κ)}
    (stored : ∀ migrator, appointed = some migrator → ∃ number, migrator = .store number)
    (plan : Plan) (name : String) (handle : Handle) (world : World κ ε) :
    let ran := (appointed.toList.map (FinishingStep.migrate · plan)).forM
      (FinishingStep.perform callbacks name handle) world
    let table := handle.definition.physicalName
    (ran.1 = .ok () →
      (∀ number, appointed = some (.store number) →
        (world.store number).migrate table plan = (.ok (), ran.2.store number)) ∧
      ∀ number, appointed ≠ some (.store number) → ran.2.store number = world.store number) ∧
    ∀ refusal, ran.1 = .error refusal → ∃ number source, appointed = some (.store number) ∧
      ((world.store number).migrate table plan).1 = .error source := by
  cases appointed with
  | none => exact ⟨fun _ => ⟨fun _ same => (nomatch same), fun _ _ => rfl⟩, fun _ same => nomatch same⟩
  | some migrator =>
    obtain ⟨asked, rfl⟩ := stored migrator rfl
    intro ran table
    have ran_eq : ran =
        let done := (world.store asked).migrate table plan
        (done.1.mapError (.migration handle.name), world.setStore asked done.2) := by
      have single : ran = [FinishingStep.migrate (.store asked) plan].forM
        (FinishingStep.perform callbacks name handle) world := rfl
      rw [single, forM_cons_run, FinishingStep.perform_run]
      dsimp only
      cases ((world.store asked).migrate table plan).1 <;> rfl
    rw [ran_eq]
    cases done : (world.store asked).migrate table plan using outcome_cases with
    | error source =>
      exact ⟨fun went => (nomatch went),
        fun refusal _ => ⟨asked, source, rfl, congrArg Prod.fst done⟩⟩
    | ok value after =>
      refine ⟨fun _ => ⟨fun number same => ?_, fun number other => ?_⟩, fun _ same => nomatch same⟩
      · cases same
        rw [done, World.store_setStore, Function.update_self]
      · have different : number ≠ asked := by
          intro same
          subst same
          exact other rfl
        rw [World.store_setStore, Function.update_of_ne different]

/-- The finishing steps are taken up to the migration, and if none of these is refused, whoever is
appointed carries it out. -/
private theorem finish_split (callbacks : Callbacks κ ε) (options : CompileOptions κ)
    (description : Description κ) (handle : Handle) (world : World κ ε) :
    let work := FinishingStep.perform callbacks description.name handle
    let ran := (options.attachments description ++ options.calls description).forM work world
    let prepared := (options.preparations description).forM work world
    (∃ refusal, prepared.1 = .error refusal ∧ ran.1 = .error refusal) ∨
      ran = (options.appointed.toList.map (FinishingStep.migrate · description.indexPlan)).forM work
        prepared.2 := by
  intro work ran prepared
  let others := Collaborators.inMemory callbacks "" description.name
  have split : ran = (options.preparations description ++
      options.appointed.toList.map (FinishingStep.migrate · description.indexPlan)).forM work world :=
    congrArg (·.forM work world) (options.attachments_calls_eq description)
  cases result : prepared.1 with
  | error refusal =>
    obtain ⟨-, ended⟩ := others.append_refused handle _
      (options.appointed.toList.map (FinishingStep.migrate · description.indexPlan)) world result
    exact Or.inl ⟨refusal, rfl, split ▸ (congrArg Prod.fst ended).trans result⟩
  | ok value =>
    obtain ⟨-, ended⟩ := others.append_run handle _
      (options.appointed.toList.map (FinishingStep.migrate · description.indexPlan)) world result
    exact Or.inr (split.trans ended)

/-- Whatever is done before the migration leaves the store as it is. -/
private theorem preparations_store {number : Nat}
    (leave : ∀ step ∈ options.attachments description ++ options.calls description,
      step.LeavesStore callbacks number) (handle : Handle) (world : World κ ε) :
    ((options.preparations description).forM
      (FinishingStep.perform callbacks description.name handle) world).2.store number =
        world.store number := by
  rw [options.attachments_calls_eq, List.forall_mem_append] at leave
  have each (step) (listed : step ∈ options.preparations description) (now : World κ ε)
      (before : now.store number = world.store number) :
      (step.perform callbacks description.name handle now).2.store number = world.store number :=
    (FinishingStep.perform_store (leave.1 step listed)
      (CompileOptions.isMigration_of_mem_preparations listed) _ handle now).trans before
  exact forM_keeps (P := fun now : World κ ε => now.store number = world.store number) each rfl

private theorem appointed_stored {number : Nat}
    (leave : ∀ step ∈ options.attachments description ++ options.calls description,
      step.LeavesStore callbacks number) {migrator : IndexMigrator κ}
    (same : options.appointed = some migrator) : ∃ asked, migrator = .store asked := by
  rw [options.attachments_calls_eq, List.forall_mem_append] at leave
  refine leave.2 (.migrate migrator description.indexPlan) ?_
  rw [same]
  exact List.mem_singleton.2 rfl

/-- The migration finds the store as it was before the other steps, and nothing else works on it. -/
private theorem finish_migrates {number : Nat}
    (leave : ∀ step ∈ options.attachments description ++ options.calls description,
      step.LeavesStore callbacks number) (handle : Handle) (world : World κ ε) :
    let ran := (options.attachments description ++ options.calls description).forM
      (FinishingStep.perform callbacks description.name handle) world
    ran.1 = .ok () →
      (options.appointed = some (.store number) →
        (world.store number).migrate handle.definition.physicalName description.indexPlan =
          (.ok (), ran.2.store number)) ∧
      (options.appointed ≠ some (.store number) → ran.2.store number = world.store number) := by
  intro ran went
  rcases finish_split callbacks options description handle world with ⟨refusal, -, refused⟩ | continued
  · cases went.symm.trans refused
  · obtain ⟨migrates, -⟩ := appointed_run callbacks (fun _ => appointed_stored leave)
      description.indexPlan description.name handle ((options.preparations description).forM
        (FinishingStep.perform callbacks description.name handle) world).2
    rw [← continued] at migrates
    obtain ⟨migrated, unmigrated⟩ := migrates went
    have before := preparations_store leave handle world
    exact ⟨fun appointed => before ▸ migrated number appointed,
      fun other => (unmigrated number other).trans before⟩

/-- Only a callback or the migration can be refused. -/
theorem finish_refused
    (spare : ∀ step ∈ options.attachments description ++ options.calls description,
      step.Spares callbacks) (handle : Handle) (world : World κ ε) :
    let ran := (options.attachments description ++ options.calls description).forM
      (FinishingStep.perform callbacks description.name handle) world
    ∀ refusal, ran.1 = .error refusal →
      (∃ table stage source, refusal = .callback table stage source) ∨
      ∃ number source, options.appointed = some (.store number) ∧
        ((world.store number).migrate handle.definition.physicalName description.indexPlan).1 =
          .error source := by
  intro ran refusal refused
  have leave (number : Nat) (step) (listed : step ∈ options.attachments description ++
      options.calls description) : step.LeavesStore callbacks number :=
    (spare step listed).leavesStore number
  rcases finish_split callbacks options description handle world with
    ⟨other, prepared, stopped⟩ | continued
  · obtain ⟨step, listed, found, failed⟩ := forM_refused prepared
    obtain ⟨stage, source, rfl⟩ := FinishingStep.perform_refused_callback
      (CompileOptions.isMigration_of_mem_preparations listed) failed
    exact Or.inl ⟨handle.name, stage, source, Except.error.inj (refused.symm.trans stopped)⟩
  · obtain ⟨-, fails⟩ := appointed_run callbacks (fun _ => appointed_stored (leave 0))
      description.indexPlan description.name handle ((options.preparations description).forM
        (FinishingStep.perform callbacks description.name handle) world).2
    obtain ⟨number, source, appointed, failed⟩ := fails refusal (continued ▸ refused)
    rw [preparations_store (leave number)] at failed
    exact Or.inr ⟨number, source, appointed, failed⟩

end Finish

/-! ## What stays true -/

/-- Nothing is attached to handles that are not made yet. -/
def Database.Bare (db : Database κ) : Prop :=
  ∀ serial, db.opened.length ≤ serial → db.decoration serial = {}

/-- What stays true of a database: a name that has a table has one of this layout, handles keep what
is attached to them, and later ones start without anything. -/
structure Database.Later (before after : Database κ) : Prop where
  layouts : ∀ name latest, before.tables.get? name = some latest →
    ∃ current, after.tables.get? name = some current ∧
      latest.definition.SameLayout current.definition
  opened : before.opened.length ≤ after.opened.length
  attached : ∀ serial, serial < before.opened.length →
    after.decoration serial = before.decoration serial
  bare : before.Bare → after.Bare

namespace Database.Later

variable {before middle after : Database κ}

/-- Rows and counts do not matter. -/
theorem of_same (tables : after.tables = before.tables) (opened : after.opened = before.opened)
    (decorations : after.decorations = before.decorations) : before.Later after := by
  have same (serial : Nat) : after.decoration serial = before.decoration serial := by
    rw [decoration, decorations]
    rfl
  refine ⟨fun name latest found => ?_, Nat.le_of_eq (congrArg _ opened.symm), fun serial _ => same serial,
    fun bare serial beyond => ?_⟩
  · exact ⟨latest, by rw [tables]; exact found, .refl _⟩
  · rw [same]
    exact bare serial (opened ▸ beyond)

theorem refl (db : Database κ) : db.Later db := of_same rfl rfl rfl

theorem trans (first : before.Later middle) (second : middle.Later after) : before.Later after where
  layouts name latest found := by
    obtain ⟨current, found', same⟩ := first.layouts name latest found
    obtain ⟨last, found'', same'⟩ := second.layouts name current found'
    exact ⟨last, found'', same.trans same'⟩
  opened := Nat.le_trans first.opened second.opened
  attached serial below := by
    rw [second.attached serial (Nat.lt_of_lt_of_le below first.opened), first.attached serial below]
  bare start := second.bare (first.bare start)

end Database.Later

/-- What stays true of a world: of one of its databases, of all caches, and of sound stores. -/
structure World.Later (database : String) (before after : World κ ε) : Prop where
  database : (before.database database).Later (after.database database)
  cache : ∀ number, (before.cache number).KeptBy (after.cache number)
  sound : ∀ number, (before.store number).store.Sound → (after.store number).store.Sound

namespace World.Later

variable {database : String} {before middle after : World κ ε}

theorem refl (database : String) (world : World κ ε) : world.Later database world :=
  ⟨.refl _, fun _ => .refl _, fun _ sound => sound⟩

theorem trans (first : before.Later database middle) (second : middle.Later database after) :
    before.Later database after :=
  ⟨first.database.trans second.database, fun number => (first.cache number).trans (second.cache number),
    fun number start => second.sound number (first.sound number start)⟩

theorem of_untouched (untouched : before.Untouched after) : before.Later database after :=
  ⟨untouched.database ▸ .refl _, untouched.cache, fun _ sound => untouched.store ▸ sound⟩

end World.Later

section Compile

variable {callbacks : Callbacks κ ε} {database : String} {cache : Nat} {options : CompileOptions κ}
  {description : Description κ} {world drafted after : World κ ε} {blueprint : Blueprint κ}
  {handle : Handle}

theorem draft_store (ran : (draft database cache options description world).2 = drafted) :
    drafted.store = world.store := by
  have spared := draft_sameTables database cache options description world
  rw [ran] at spared
  funext number
  rw [World.store, spared.stores]
  rfl

theorem draft_later (ran : (draft database cache options description world).2 = drafted) :
    world.Later database drafted := by
  have spared := draft_sameTables database cache options description world
  have kept := draft_keeps database cache options description world
  have stores := draft_store ran
  rw [ran] at spared kept
  obtain ⟨count, same⟩ := spared.databases database
  exact ⟨.of_same (by rw [same]) (by rw [same]) (by rw [same]), kept,
    fun number sound => by rwa [stores]⟩

/-- A table that was opened has the layout of the one before, and only the new handle is adorned. -/
private theorem opening_later
    (granted : (drafted.database database).refusal? blueprint.definition = none)
    (made : handle = drafted.nextHandle database blueprint.definition)
    (adorned : (drafted.opening database blueprint.definition).Adorned handle after) :
    (drafted.database database).Later (after.database database) := by
  obtain ⟨decorations, same⟩ := adorned.databases database
  rw [World.database_opening, Function.update_self] at same
  have elsewhere (serial : Nat) (other : (drafted.database database).opened.length ≠ serial) :
      (after.database database).decoration serial =
        (drafted.database database).decoration serial := by
    have different : handle.id ≠ ⟨database, serial⟩ := by
      intro clash
      rw [made] at clash
      exact other (congrArg HandleId.serial clash)
    rw [adorned.elsewhere database serial different, World.database_opening, Function.update_self]
    rfl
  have length : (after.database database).opened.length =
      (drafted.database database).opened.length + 1 := by
    rw [same]
    simp
  refine ⟨fun name latest found => ?_, by omega, fun serial below => elsewhere serial (by omega),
    fun bare serial beyond => ?_⟩
  · rw [same]
    dsimp only
    rw [OrderedMap.get?_insert]
    by_cases own : blueprint.definition.name = name
    · rw [if_pos own]
      have agrees := (Database.refusal?_eq_none_iff.1 granted).2
      exact ⟨_, rfl, agrees latest (own ▸ found)⟩
    · rw [if_neg own]
      exact ⟨latest, found, .refl _⟩
  · rw [elsewhere serial (by omega)]
    exact bare serial (by omega)

/-- What stays true stays true over a compilation whose callbacks touch nothing, whatever comes of
it. -/
theorem compile_later (spare : ∀ step ∈ options.attachments description ++ options.calls description,
      step.Spares callbacks) (world : World κ ε) :
    world.Later database (compile callbacks database cache options description world).2 := by
  have goes := compile_goes callbacks database cache options description world
  generalize compile callbacks database cache options description world = outcome,
    compileRecord callbacks database cache options description world = record at goes
  cases goes with
  | undrafted ran => exact draft_later (congrArg Prod.snd ran)
  | @refused blueprint drafted source ran asked =>
    refine (draft_later (congrArg Prod.snd ran)).trans ⟨?_, fun _ => .refl _, fun _ sound => sound⟩
    rw [World.afterRefusal, World.database_setDatabase, Function.update_self]
    exact .of_same rfl rfl rfl
  | @opened blueprint drafted finished last handle ran asked made performed =>
    obtain ⟨c, mixinFields, sorted, -, drawn⟩ := draft_ok ran
    obtain ⟨steps, -⟩ := CompileOptions.blueprint_steps (Description.classify_sorted sorted) drawn
    have adorned := forM_adorns spare description.name handle
      (drafted.opening database blueprint.definition)
    have sound := forM_sound spare description.name handle
      (drafted.opening database blueprint.definition)
    rw [← steps, performed] at adorned sound
    have opened : (drafted.database database).Later (last.database database) :=
      opening_later asked made adorned
    have finish : drafted.Later database (last.release drafted) := ⟨opened, adorned.cache, sound⟩
    exact (draft_later (congrArg Prod.snd ran)).trans finish

/-! ## Compilations that succeed -/

/-- A compilation that succeeds migrates the indexes under the name its table is stored under, if the
store is appointed, and nothing else works on it. -/
theorem compile_migrates {number : Nat}
    (leave : ∀ step ∈ options.attachments description ++ options.calls description,
      step.LeavesStore callbacks number)
    (went : compile callbacks database cache options description world = (.ok handle, after)) :
    (options.appointed = some (.store number) →
      (world.store number).migrate (options.storedName description) description.indexPlan =
        (.ok (), after.store number)) ∧
    (options.appointed ≠ some (.store number) → after.store number = world.store number) := by
  have stored := stored_of_compiled (congrArg Prod.fst went)
  have goes := compile_goes callbacks database cache options description world
  generalize compile callbacks database cache options description world = outcome,
    compileRecord callbacks database cache options description world = record at went goes
  cases goes with
  | undrafted ran => cases went
  | refused ran asked => cases went
  | @opened blueprint drafted finished last made ran asked same performed =>
    cases finished with
    | error refusal => cases went
    | ok value =>
      cases went
      obtain ⟨c, mixinFields, sorted, -, drawn⟩ := draft_ok ran
      obtain ⟨steps, -⟩ := CompileOptions.blueprint_steps (Description.classify_sorted sorted) drawn
      have migrates := finish_migrates leave made (drafted.opening database blueprint.definition)
      rw [← steps, performed] at migrates
      have stores : drafted.store = world.store := draft_store (congrArg Prod.snd ran)
      have opened : (drafted.opening database blueprint.definition).store = world.store := stores
      rw [stored, opened] at migrates
      exact migrates rfl

/-- What a successful compilation comes to: a draft, a new handle that is furnished, and the
migration by whoever is appointed. -/
structure CompiledTo (database : String) (cache : Nat) (options : CompileOptions κ)
    (description : Description κ) (world : World κ ε) (blueprint : Blueprint κ)
    (drafted : World κ ε) (handle : Handle) (after : World κ ε) : Prop where
  ran : draft database cache options description world = (.ok blueprint, drafted)
  granted : (drafted.database database).refusal? blueprint.definition = none
  made : handle = drafted.nextHandle database blueprint.definition
  adorned : (drafted.opening database blueprint.definition).Adorned handle after
  furnished : (drafted.database database).Bare →
    Furnished options description drafted.hooksMade handle (after.decoration handle)
  migrated : ∀ number, options.appointed = some (.store number) →
    (world.store number).migrate (options.storedName description) description.indexPlan =
      (.ok (), after.store number)
  unmigrated : ∀ number, options.appointed ≠ some (.store number) →
    after.store number = world.store number

/-- The steps furnish a handle that has nothing attached, if whoever is called touches nothing. -/
private theorem forM_furnishes
    (spare : ∀ step ∈ options.attachments description ++ options.calls description,
      step.Spares callbacks) (handle : Handle) (start : World κ ε)
    (bare : start.decoration handle = {}) :
    Furnished options description start.hooksMade handle
      (((options.attachments description ++ options.calls description).forM
        (FinishingStep.perform callbacks description.name handle) start).2.decoration handle) := by
  let others := Collaborators.inMemory callbacks "" description.name
  have blank : start.attachments handle = ({}, start.hooksMade) := Prod.ext bare rfl
  obtain ⟨went, furnished⟩ := forM_attachments callbacks options description blank
  obtain ⟨-, ended⟩ := others.append_run handle _ (options.calls description) start went
  have kept (step) (listed : step ∈ options.calls description) (now : World κ ε)
      (before : Furnished options description start.hooksMade handle (now.decoration handle)) :
      Furnished options description start.hooksMade handle
        ((step.perform callbacks description.name handle now).2.decoration handle) := by
    have spares := spare step (List.mem_append_right _ listed)
    have same := FinishingStep.perform_database spares
      (CompileOptions.isCall_of_mem_calls listed) description.name handle now
    rwa [World.decoration, same]
  have last := forM_keeps
    (P := fun now : World κ ε => Furnished options description start.hooksMade handle
      (now.decoration handle)) kept furnished
  have same := congrArg (fun ran => ran.2.decoration handle) ended
  exact same ▸ last

theorem compiledTo_of_ok
    (spare : ∀ step ∈ options.attachments description ++ options.calls description,
      step.Spares callbacks)
    (went : compile callbacks database cache options description world = (.ok handle, after)) :
    ∃ blueprint drafted,
      CompiledTo database cache options description world blueprint drafted handle after := by
  have migrates (number : Nat) := compile_migrates
    (fun step listed => (spare step listed).leavesStore number) went
  have goes := compile_goes callbacks database cache options description world
  generalize compile callbacks database cache options description world = outcome,
    compileRecord callbacks database cache options description world = record at went goes
  cases goes with
  | undrafted ran => cases went
  | refused ran asked => cases went
  | @opened blueprint drafted finished last made ran asked same performed =>
    cases finished with
    | error refusal => cases went
    | ok value =>
      cases went
      obtain ⟨c, mixinFields, sorted, -, drawn⟩ := draft_ok ran
      obtain ⟨steps, -⟩ := CompileOptions.blueprint_steps (Description.classify_sorted sorted) drawn
      have adorned := forM_adorns spare description.name made
        (drafted.opening database blueprint.definition)
      have furnished := forM_furnishes spare made (drafted.opening database blueprint.definition)
      rw [← steps, performed] at adorned furnished
      have fresh (bare : (drafted.database database).Bare) :
          (drafted.opening database blueprint.definition).decoration made = {} := by
        have blank := bare _ (Nat.le_refl _)
        rw [World.decoration, World.database_opening, same]
        dsimp only [Handle.database, World.nextHandle]
        rw [Function.update_self]
        exact blank
      exact ⟨blueprint, drafted, ran, asked, same,
        ⟨adorned.databases, adorned.elsewhere, adorned.cache⟩, fun bare => furnished (fresh bare),
        fun number => (migrates number).1, fun number => (migrates number).2⟩

end Compile

end SchemaCompiler
