import SchemaCompiler.Proofs.CompiledHandles
import SchemaCompiler.Proofs.MixinLockstep

/-! Members that have no say in a compilation: indexes while none are migrated, and whatever mixins
carry besides fields. A compilation depends on its description by name and draft only
(`compile_of_draft`), so most of what there is to say is said of drafts. Only when mixins go by
other identities do the worlds differ, in what signatures are cached under (`World.Translates`), and
something is asked of callbacks: that they do not look at it. -/
namespace SchemaCompiler

open Effect

variable {κ ε e α : Type}

/-! ## Indexes without migration -/

namespace Classification

variable {table : String} {lookup : TableLookup}

/-- A classification without its indexes. -/
def unindexed (c : Classification κ) : Classification κ := { c with indexes := .empty }

/-- Indexes make no difference to where other members go. -/
private theorem add_unindexed (c : Classification κ) (declared : String × Member κ) :
    (c.add table lookup declared).map unindexed =
      (c.unindexed.add table lookup declared).map unindexed := by
  obtain ⟨name, member⟩ := declared
  simp only [add]
  split
  · rfl
  · cases Phase.ofName? name with
    | some phase => cases member <;> rfl
    | none =>
      cases member with
      | field field =>
        simp only [addMember, addField]
        split <;> rfl
      | tableMethod callback =>
        simp only [addMember]
        split <;> rfl
      | _ => rfl

end Classification

/-- Whether a member is an index of a name that is no phase. -/
def isPlainIndex (declared : String × Member κ) : Bool :=
  match declared.2 with
  | .index _ => (Phase.ofName? declared.1).isNone
  | _ => false

/-- The members that a compilation without migration looks at, in declaration order. -/
def Description.unindexedMembers (description : Description κ) : List (String × Member κ) :=
  description.members.entries.filter (!isPlainIndex ·)

/-- Descriptions that differ in their indexes are classified alike but for these. -/
private theorem Description.classify_unindexed {first second : Description κ} {table : String}
    {lookup : TableLookup} (same : second.unindexedMembers = first.unindexedMembers) :
    (second.classify table lookup).map Classification.unindexed =
      (first.classify table lookup).map Classification.unindexed := by
  have ignored (description : Description κ) :
      (description.classify table lookup).map Classification.unindexed =
        (description.unindexedMembers.foldlM (Classification.add table lookup) {}).map
          Classification.unindexed := by
    refine Classification.foldlM_seen (fun c c' declared same => ?_)
      (fun declared _ index c => ?_) rfl
    · rw [Classification.add_unindexed, Classification.add_unindexed c', same]
    · obtain ⟨name, member⟩ := declared
      cases member with
      | index index' =>
        simp only [isPlainIndex, Bool.not_eq_false', Option.isNone_iff_eq_none] at index
        simp only [Classification.add, index]
        split <;> rfl
      | _ => cases index
  rw [ignored, ignored, same]

/-! ## Worlds with other identities -/

/-- Worlds that differ in their caches only, and in these not in the fields they hold, but in the
identities under which they do. -/
def World.Translates (rename : Nat → Nat) (world other : World κ ε) : Prop :=
  ∃ caches, other = { world with caches } ∧
    world.caches.Translates id (SignatureCache.Translates rename) caches

/-- As long as nothing is cached, there are no identities to translate. -/
private theorem World.translates_uncached {world : World κ ε} (rename : Nat → Nat)
    (uncached : ∀ number, (world.cache number).isEmpty = true) :
    World.Translates rename world world := by
  refine ⟨world.caches, rfl, List.forall₂_same.2 fun entry listed => ⟨rfl, ?_⟩⟩
  have own : world.cache entry.1 = entry.2 := by
    rw [World.cache, (world.caches.get?_eq_some_iff entry.1 entry.2).2 listed, Option.getD_some]
  have none : entry.2.entries.entries = [] := List.isEmpty_iff.1 (own ▸ uncached entry.1)
  rw [SignatureCache.Translates, OrderedMap.Translates, none]
  exact .nil

namespace World.Translates

variable {rename : Nat → Nat} {world other : World κ ε}

theorem database (same : world.Translates rename other) : other.database = world.database := by
  obtain ⟨caches, rfl, -⟩ := same
  rfl

theorem cache (same : world.Translates rename other) (number : Nat) :
    (world.cache number).Translates rename (other.cache number) := by
  obtain ⟨caches, rfl, translates⟩ := same
  have found := translates.get? Function.injective_id number
  change Option.Rel _ _ (caches.get? number) at found
  change SignatureCache.Translates rename ((world.caches.get? number).getD {})
    ((caches.get? number).getD {})
  generalize world.caches.get? number = own at found ⊢
  generalize caches.get? number = own' at found ⊢
  cases found with
  | some same => exact same
  | none => exact .nil

end World.Translates

/-! ## Drafts -/

section Draft

variable {first second : Description κ} {database : String} {cache : Nat}
  {options : CompileOptions κ} {world other : World κ ε}

/-- Without migration a blueprint does not depend on the indexes. -/
private theorem CompileOptions.blueprint_unindexed (idle : options.migrateIndexes = false)
    (name : String) (c : Classification κ) (mixinFields : List FieldDefinition) :
    options.blueprint name c mixinFields = options.blueprint name c.unindexed mixinFields := by
  have unplanned (indexes : OrderedMap String Index) :
      options.migration name ((c.fields ++ mixinFields).map FieldDefinition.name) indexes =
        .ok none := by
    rw [CompileOptions.migration, if_neg (by simp [idle])]
  simp only [CompileOptions.blueprint, Classification.unindexed, unplanned]
  rfl

private theorem CompileOptions.tableName_congr (options : CompileOptions κ)
    (named : second.name = first.name) : options.tableName second = options.tableName first := by
  rw [tableName, tableName, named]

/-- Descriptions that differ in their indexes are drafted alike without migration. -/
private theorem draft_unindexed (idle : options.migrateIndexes = false)
    (named : second.name = first.name)
    (same : second.unindexedMembers = first.unindexedMembers) (mixins : second.mixins = first.mixins)
    (world : World κ ε) :
    draft database cache options second world = draft database cache options first world := by
  rw [draft_run, draft_run, options.tableName_congr named, mixins]
  generalize (world.database database).lookup = lookup
  have sorted : (second.classify (options.tableName first) lookup).map Classification.unindexed =
      (first.classify (options.tableName first) lookup).map Classification.unindexed :=
    Description.classify_unindexed same
  cases here : first.classify (options.tableName first) lookup with
  | error refusal =>
    rw [here] at sorted
    rw [map_eq_error_iff.1 sorted]
  | ok c =>
    rw [here] at sorted
    obtain ⟨c', there, alike⟩ := map_eq_ok_iff.1 sorted
    have drawn (mixinFields : List FieldDefinition) :
        options.blueprint (options.tableName first) c' mixinFields =
          options.blueprint (options.tableName first) c mixinFields := by
      rw [options.blueprint_unindexed idle, alike, ← options.blueprint_unindexed idle]
    rw [there]
    simp only [drawn]

private theorem resolveIn_translates (cache : Nat) {rename : Nat → Nat}
    (injective : Function.Injective rename) {mixins others : List (Description κ)}
    (alike : AlikeMixins (world.database database).lookup rename mixins others)
    (same : world.Translates rename other) :
    Twins (World.Translates rename) (· = ·)
      (resolveIn database cache (fun lookup => resolveMixins database lookup mixins) world)
      (resolveIn database cache (fun lookup => resolveMixins database lookup others) other) := by
  have start : ResolveState.Translates rename
      ⟨world.cache cache, (world.database database).fieldSourceCount⟩
      ⟨other.cache cache, (other.database database).fieldSourceCount⟩ :=
    ⟨same.cache cache, by rw [same.database]⟩
  have resolved := resolveMixins_lockstep (Lockstep.translates database injective) alike start
  have after {state state' : ResolveState} (ended : state.Translates rename state') :
      World.Translates rename
        ((world.setDatabase database { world.database database with
          fieldSourceCount := state.fieldSources }).setCache cache state.cache)
        ((other.setDatabase database { world.database database with
          fieldSourceCount := state'.fieldSources }).setCache cache state'.cache) := by
    obtain ⟨caches, rfl, translates⟩ := same
    rw [ended.fieldSources]
    exact ⟨caches.insert cache state'.cache, rfl,
      translates.insert Function.injective_id cache ended.cache⟩
  simp only [resolveIn]
  rw [same.database] at resolved ⊢
  generalize resolveMixins database (world.database database).lookup mixins
    ⟨world.cache cache, (world.database database).fieldSourceCount⟩ = ran at resolved ⊢
  generalize resolveMixins database (world.database database).lookup others
    ⟨other.cache cache, (world.database database).fieldSourceCount⟩ = ran' at resolved ⊢
  cases resolved with
  | refused ended => exact .refused (after ended)
  | granted agrees ended => exact .granted agrees (after ended)

/-- Descriptions that differ in their mixins are drafted alike if these come to the same fields. -/
theorem draft_twins {related : World κ ε → World κ ε → Prop} (named : second.name = first.name)
    (members : second.members = first.members) (same : related world other)
    (databases : other.database = world.database)
    (resolved : Twins related (· = ·)
      (resolveIn database cache (fun lookup => resolveMixins database lookup first.mixins) world)
      (resolveIn database cache (fun lookup => resolveMixins database lookup second.mixins) other)) :
    Twins related (· = ·) (draft database cache options first world)
      (draft database cache options second other) := by
  have sorted (lookup : TableLookup) : second.classify (options.tableName first) lookup =
      first.classify (options.tableName first) lookup := by
    rw [Description.classify, Description.classify, members]
  rw [draft_run, draft_run, options.tableName_congr named, sorted, databases]
  cases first.classify (options.tableName first) (world.database database).lookup with
  | error refusal => exact .refused same
  | ok c =>
    dsimp only
    generalize resolveIn database cache (fun lookup => resolveMixins database lookup first.mixins)
      world = ran at resolved ⊢
    generalize resolveIn database cache (fun lookup => resolveMixins database lookup second.mixins)
      other = ran' at resolved ⊢
    cases resolved with
    | refused same => exact .refused same
    | granted agrees same =>
      subst agrees
      dsimp only
      cases options.blueprint (options.tableName first) c _ with
      | error refusal => exact .refused same
      | ok blueprint => exact .granted rfl same

/-- Nothing tells drafts apart whose mixins are alike and keep their identities. -/
private theorem draft_alike (named : second.name = first.name)
    (members : second.members = first.members)
    (alike : AlikeMixins (world.database database).lookup id first.mixins second.mixins) :
    draft database cache options second world = draft database cache options first world := by
  have resolved : resolveIn database cache
        (fun lookup => resolveMixins database lookup second.mixins) world =
      resolveIn database cache (fun lookup => resolveMixins database lookup first.mixins) world := by
    simp only [resolveIn]
    rw [Twins.eq_iff.1 (resolveMixins_lockstep (Lockstep.same database) alike rfl)]
  exact Twins.eq_iff.1 (draft_twins named members rfl rfl (Twins.eq_iff.2 resolved))

end Draft

/-! ## Compilations -/

/-- An action for which it makes no difference under which identities signatures are cached. -/
def Action.IgnoresIdentities (rename : Nat → Nat) (action : Action κ ε e α) : Prop :=
  ∀ {world other : World κ ε}, world.Translates rename other →
    Twins (World.Translates rename) (· = ·) (action world) (action other)

/-- What neither looks at caches nor changes them cannot tell identities apart. -/
private theorem Action.ignoresIdentities {rename : Nat → Nat} {action : Action κ ε e α}
    (unseen : ∀ world caches,
      action { world with caches } = ((action world).1, { (action world).2 with caches }))
    (unchanged : ∀ world, (action world).2.caches = world.caches) :
    action.IgnoresIdentities rename := by
  rintro world _ ⟨caches, rfl, translates⟩
  have kept := unchanged world
  rw [unseen world caches]
  generalize action world = ran at kept ⊢
  have same : ran.2.Translates rename { ran.2 with caches } := ⟨caches, rfl, kept ▸ translates⟩
  cases ran using outcome_cases with
  | error refusal => exact .refused same
  | ok value => exact .granted rfl same

/-- Callbacks and migrators for which it makes no difference under which identities signatures are
cached. -/
structure Callbacks.IgnoreIdentities (callbacks : Callbacks κ ε) (rename : Nat → Nat) : Prop where
  tableMethod : ∀ callback handle args,
    (callbacks.tableMethod callback handle args).IgnoresIdentities rename
  onDefineTable : ∀ callback description handle,
    (callbacks.onDefineTable callback description handle).IgnoresIdentities rename
  migrate : ∀ callback handle plan,
    (callbacks.migrate callback handle plan).IgnoresIdentities rename

section Compile

variable {callbacks : Callbacks κ ε} {rename : Nat → Nat}

theorem FinishingStep.perform_ignores (ignore : callbacks.IgnoreIdentities rename)
    (description : String) (handle : Handle) (step : FinishingStep κ) :
    (step.perform callbacks description handle).IgnoresIdentities rename := by
  cases step with
  | attach | attachCommon | register =>
    exact Action.ignoresIdentities (fun _ _ => rfl) fun _ => rfl
  | onDefine callback =>
    intro world other same
    exact ((ignore.tableMethod callback handle [] same).adapt _).bind
      fun _ same => .granted rfl same
  | onDefineTable callback =>
    exact fun same => (ignore.onDefineTable callback description handle same).adapt _
  | migrate migrator plan =>
    cases migrator with
    | custom callback => exact fun same => (ignore.migrate callback handle plan same).adapt _
    | store number => exact Action.ignoresIdentities (fun _ _ => rfl) fun _ => rfl

private theorem Collaborators.complete_ignores (ignore : callbacks.IgnoreIdentities rename)
    (database description : String) (blueprint : Blueprint κ) :
    Action.IgnoresIdentities rename
      ((Collaborators.inMemory callbacks database description).complete blueprint) := by
  have defines : Action.IgnoresIdentities rename
      ((Collaborators.inMemory callbacks database description).define blueprint.definition) := by
    intro world other same
    have defined : Twins (World.Translates rename) (· = ·)
        (defineTable database blueprint.definition world)
        (defineTable database blueprint.definition other) :=
      Action.ignoresIdentities (fun _ _ => rfl) (fun _ => rfl) same
    rw [inMemory]
    dsimp only
    generalize defineTable database blueprint.definition world = ran at defined ⊢
    generalize defineTable database blueprint.definition other = ran' at defined ⊢
    cases defined with
    | refused same => exact .refused same
    | granted agrees same =>
      obtain ⟨caches, rfl, translates⟩ := same
      subst agrees
      exact .granted rfl ⟨caches, rfl, translates⟩
  intro world other same
  refine ((defines same).adapt _).bind fun {handle _ _ _} agrees same => ?_
  subst agrees
  exact (Twins.forM (fun step _ _ same =>
    FinishingStep.perform_ignores ignore description handle step same) same).bind
      fun _ same => .granted rfl same

theorem compile_translates {first second : Description κ} {database : String} {cache : Nat}
    {options : CompileOptions κ} {world other : World κ ε}
    (ignore : callbacks.IgnoreIdentities rename) (named : second.name = first.name)
    (drafted : Twins (World.Translates rename) (· = ·) (draft database cache options first world)
      (draft database cache options second other)) :
    Twins (World.Translates rename) (· = ·)
      (compile callbacks database cache options first world)
      (compile callbacks database cache options second other) := by
  rw [compile_run, compile_run, named]
  generalize draft database cache options first world = ran at drafted ⊢
  generalize draft database cache options second other = ran' at drafted ⊢
  cases drafted with
  | refused same => exact .refused same
  | @granted blueprint _ drafted drafted' agrees same =>
    subst agrees
    have completed := Collaborators.complete_ignores ignore database first.name blueprint same
    dsimp only
    generalize (Collaborators.inMemory callbacks database first.name).complete blueprint drafted =
      ran at completed ⊢
    generalize (Collaborators.inMemory callbacks database first.name).complete blueprint drafted' =
      ran' at completed ⊢
    -- What is open after a compilation is what was open before it, in either world.
    obtain ⟨caches, rfl, -⟩ := same
    have released {after after' : World κ ε} (same : after.Translates rename after') :
        (after.release drafted).Translates rename (after'.release { drafted with caches }) := by
      obtain ⟨caches, rfl, translates⟩ := same
      exact ⟨caches, rfl, translates⟩
    cases completed with
    | refused same => exact .refused (released same)
    | granted agrees same => exact .granted agrees (released same)

end Compile

/-- A compilation depends on its description by name and draft only. -/
theorem compile_of_draft {first second : Description κ} {database : String} {cache : Nat}
    {options : CompileOptions κ} {world : World κ ε} (callbacks : Callbacks κ ε)
    (named : second.name = first.name)
    (same : draft database cache options second world = draft database cache options first world) :
    compile callbacks database cache options second world =
        compile callbacks database cache options first world ∧
      compileRecord callbacks database cache options second world =
        compileRecord callbacks database cache options first world := by
  rw [compile_run, compile_run, compileRecord, compileRecord, same, named]
  exact ⟨rfl, rfl⟩

/-- Members that make no fields have no say in a compilation, whatever it comes to.

Without migration, descriptions that differ only in indexes of names that are no phases are drafted
alike, ask the same of the layer, callbacks and migrators, and leave the same world. So they do,
with or without migration, if their mixins differ at any depth in members only that are reserved or
make no field, and that can all be placed. If the mixins have other identities, each its own, and
nothing is cached yet, then drafts are the same, index plan included, and so are the outcome and all
databases if callbacks do not look at identities; what is cached then are the same fields. -/
theorem compile_ignores_inert (callbacks : Callbacks κ ε) (database : String) (cache : Nat)
    (options : CompileOptions κ) {first second : Description κ} (named : second.name = first.name)
    (world : World κ ε) :
    (options.migrateIndexes = false → second.unindexedMembers = first.unindexedMembers →
      second.mixins = first.mixins →
      draft database cache options second world = draft database cache options first world ∧
      compile callbacks database cache options second world =
        compile callbacks database cache options first world ∧
      compileRecord callbacks database cache options second world =
        compileRecord callbacks database cache options first world) ∧
    (second.members = first.members →
      AlikeMixins (world.database database).lookup id first.mixins second.mixins →
      draft database cache options second world = draft database cache options first world ∧
      compile callbacks database cache options second world =
        compile callbacks database cache options first world ∧
      compileRecord callbacks database cache options second world =
        compileRecord callbacks database cache options first world) ∧
    ∀ rename : Nat → Nat, Function.Injective rename → second.members = first.members →
      AlikeMixins (world.database database).lookup rename first.mixins second.mixins →
      (∀ number, (world.cache number).isEmpty = true) →
      let drafted := draft database cache options first world
      let drafted' := draft database cache options second world
      drafted'.1 = drafted.1 ∧ drafted.2.Translates rename drafted'.2 ∧
      (callbacks.IgnoreIdentities rename →
        let compiled := compile callbacks database cache options first world
        let compiled' := compile callbacks database cache options second world
        compiled'.1 = compiled.1 ∧ compiled.2.Translates rename compiled'.2) := by
  refine ⟨fun idle same mixins => ?_, fun members alike => ?_,
    fun rename injective members alike uncached => ?_⟩
  · have drafts : draft database cache options second world =
        draft database cache options first world := draft_unindexed idle named same mixins world
    exact ⟨drafts, compile_of_draft callbacks named drafts⟩
  · have drafts : draft database cache options second world =
        draft database cache options first world := draft_alike named members alike
    exact ⟨drafts, compile_of_draft callbacks named drafts⟩
  · have start := World.translates_uncached rename uncached
    have drafts : Twins (World.Translates rename) (· = ·)
        (draft database cache options first world) (draft database cache options second world) :=
      draft_twins named members start rfl (resolveIn_translates cache injective alike start)
    exact ⟨drafts.outcome.1, drafts.outcome.2, fun ignore =>
      (compile_translates ignore named drafts).outcome⟩

namespace Annotated

open Ledger (idle)

/-- A mixin of one field, with a key that is no field, a hook, metadata and a broken index. -/
def stamped : Description String :=
  ⟨1, "stamped", .ofList [("at", .field (.ofType "datetime")),
    (primaryKeyOption, .option (.string "nowhere")), ("before_insert", .hook ⟨0, .call "stamp"⟩),
    (extraName, .option .null), ("by_ghost", .index (.on [.field "ghost"]))], []⟩

def signed : Description String :=
  ⟨2, "signed", .ofList [("by", .field (.ofType "string"))], [stamped]⟩

/-- A description with members of its own and mixins. -/
def note (members : List (String × Member String)) (mixins : List (Description String)) :
    Description String :=
  ⟨3, "note", .ofList (("text", .field (.ofType "string")) :: members), mixins⟩

def byGhost : String × Member String := ("by_ghost", .index (.on [.field "ghost"]))

def byTime : String × Member String := ("by_time", .index (.on [.field "at"]))

def migrating : CompileOptions String := { migrateIndexes := true, migrator := some (.store 0) }

def world : World String Unit := { application := () }

private theorem stamped_placesRest (lookup : TableLookup) : stamped.PlacesRest lookup := by
  intro declared listed other
  have entries : stamped.members.entries = [("at", .field (.ofType "datetime")),
    (primaryKeyOption, .option (.string "nowhere")), ("before_insert", .hook ⟨0, .call "stamp"⟩),
    (extraName, .option .null), ("by_ghost", .index (.on [.field "ghost"]))] := rfl
  simp only [entries, List.mem_cons, List.not_mem_nil, or_false] at listed
  rcases listed with rfl | rfl | rfl | rfl | rfl
  · exact absurd other (by decide)
  · exact Or.inr (show Phase.ofName? primaryKeyOption = none by decide)
  · exact Or.inr (show Phase.ofName? "before_insert" ≠ none by decide)
  · exact Or.inl (by decide)
  · exact Or.inr (show Phase.ofName? "by_ghost" = none by decide)

private theorem signed_placesRest (lookup : TableLookup) : signed.PlacesRest lookup := by
  intro declared listed other
  have entries : signed.members.entries = [("by", .field (.ofType "string"))] := rfl
  simp only [entries, List.mem_cons, List.not_mem_nil, or_false] at listed
  subst listed
  exact absurd other (by decide)

theorem alike (lookup : TableLookup) : AlikeMixins lookup id [signed] [signed] :=
  .cons ⟨rfl, rfl, rfl, signed_placesRest lookup, signed_placesRest lookup⟩
    (.cons ⟨rfl, rfl, rfl, stamped_placesRest lookup, stamped_placesRest lookup⟩ .nil .nil) .nil

/-- A broken index goes unnoticed as long as none are migrated. What a mixin two levels down says of
keys, hooks and indexes goes unnoticed even then. -/
theorem compile_ignores_inert_annotated :
    compile idle "main" 0 {} (note [byGhost] [signed]) world =
        compile idle "main" 0 {} (note [] [signed]) world ∧
      compile idle "main" 0 migrating (note [byTime] (strippedMixins id [signed])) world =
        compile idle "main" 0 migrating (note [byTime] [signed]) world ∧
      (compile idle "main" 0 migrating (note [byTime] (strippedMixins (· + 7) [signed])) world).1 =
        (compile idle "main" 0 migrating (note [byTime] [signed]) world).1 ∧
      refusalOf (compile idle "main" 0 migrating (note [byTime] [signed]) world).1 = none := by
  have unindexed : (note [byGhost] [signed]).unindexedMembers =
      (note [] [signed]).unindexedMembers := rfl
  have ignores (rename : Nat → Nat) : idle.IgnoreIdentities rename :=
    ⟨fun _ _ _ => Action.ignoresIdentities (fun _ _ => rfl) fun _ => rfl,
      fun _ _ _ => Action.ignoresIdentities (fun _ _ => rfl) fun _ => rfl,
      fun _ _ _ => Action.ignoresIdentities (fun _ _ => rfl) fun _ => rfl⟩
  have broken := (@compile_ignores_inert _ _ idle "main" 0 {} (note [] [signed])
    (note [byGhost] [signed]) rfl world).1
  have reduced := (@compile_ignores_inert _ _ idle "main" 0 migrating (note [byTime] [signed])
    (note [byTime] (strippedMixins id [signed])) rfl world).2.1
  have renamed := (@compile_ignores_inert _ _ idle "main" 0 migrating (note [byTime] [signed])
    (note [byTime] (strippedMixins (· + 7) [signed])) rfl world).2.2
  refine ⟨(broken rfl unindexed rfl).2.1, (reduced rfl ((alike _).stripped id)).2.1, ?_,
    by decide +kernel⟩
  exact ((renamed (· + 7) (fun _ _ => Nat.add_right_cancel) rfl ((alike _).stripped (· + 7))
    fun _ => rfl).2.2 (ignores _)).1

end Annotated
end SchemaCompiler
