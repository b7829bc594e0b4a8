import SchemaCompiler.Proofs.CompilationRuns

/-! Drafting a table a second time. All mixins are cached by then, so resolving them only counts hits
(`resolveMixins_held`), and no field source is asked for. The members are sorted anew, with the
tables that are there now, and all that can differ are validators (`classify_again`). So the second
blueprint has the steps of the first and a definition of its layout (`draft_again`), unless a
validator cannot be made any more. -/
namespace SchemaCompiler

open Effect

variable {κ ε : Type}

/-! ## Mixins that are cached -/

/-- Whether all that a cache has is in a later one. -/
def SignatureCache.KeptBy (cache later : SignatureCache) : Prop :=
  ∀ key signature, cache.entries.get? key = some signature →
    later.entries.get? key = some signature

/-- Whether a cache has signatures for mixins that give these fields. -/
def SignatureCache.HoldsMixins (cache : SignatureCache) (database : String) :
    List (Description κ) → List FieldDefinition → Prop
  | [], fields => fields = []
  | mixin :: rest, fields => ∃ signature others,
    cache.entries.get? (database, mixin.identity) = some signature ∧
      cache.HoldsMixins database rest others ∧ fields = signature.fields ++ others

section Mixins

variable {database : String} {lookup : TableLookup} {cache later : SignatureCache}

theorem SignatureCache.KeptBy.refl (cache : SignatureCache) : cache.KeptBy cache :=
  fun _ _ found => found

theorem SignatureCache.KeptBy.trans {last : SignatureCache} (first : cache.KeptBy later)
    (second : later.KeptBy last) : cache.KeptBy last :=
  fun key signature found => second key signature (first key signature found)

theorem SignatureCache.HoldsMixins.mono {mixins : List (Description κ)}
    {fields : List FieldDefinition} (holds : cache.HoldsMixins database mixins fields)
    (kept : cache.KeptBy later) : later.HoldsMixins database mixins fields := by
  induction mixins generalizing fields with
  | nil => exact holds
  | cons mixin rest ih =>
    obtain ⟨signature, others, found, held, same⟩ := holds
    exact ⟨signature, others, kept _ _ found, ih held, same⟩

private theorem resolveMixins_holds_of {mixins : List (Description κ)}
    (below : ∀ mixin ∈ mixins, ∀ state : ResolveState,
      state.cache.KeptBy (mixin.resolve database lookup state).2.cache ∧
        ∀ signature, (mixin.resolve database lookup state).1 = .ok signature →
          (mixin.resolve database lookup state).2.cache.entries.get?
            (database, mixin.identity) = some signature)
    (state : ResolveState) :
    state.cache.KeptBy (resolveMixins database lookup mixins state).2.cache ∧
      ∀ fields, (resolveMixins database lookup mixins state).1 = .ok fields →
        (resolveMixins database lookup mixins state).2.cache.HoldsMixins database mixins fields := by
  induction mixins generalizing state with
  | nil =>
    rw [resolveMixins_nil]
    refine ⟨.refl _, fun fields same => ?_⟩
    cases same
    rfl
  | cons mixin rest ih =>
    rw [List.forall_mem_cons] at below
    obtain ⟨kept, cached⟩ := below.1 state
    rw [resolveMixins_cons]
    generalize mixin.resolve database lookup state = run at kept cached ⊢
    cases run using outcome_cases with
    | error refusal => exact ⟨kept, by rintro _ ⟨⟩⟩
    | ok signature middle =>
      obtain ⟨kept', held⟩ := ih below.2 middle
      dsimp only
      generalize resolveMixins database lookup rest middle = run at kept' held ⊢
      cases run using outcome_cases with
      | error refusal => exact ⟨kept.trans kept', by rintro _ ⟨⟩⟩
      | ok others after =>
        refine ⟨kept.trans kept', fun fields same => ?_⟩
        cases same
        exact ⟨signature, others, kept' _ _ (cached signature rfl), held others rfl, rfl⟩

/-- Resolving a signature keeps what is cached, and caches it. -/
private theorem Description.resolve_caches (description : Description κ) (state : ResolveState) :
    state.cache.KeptBy (description.resolve database lookup state).2.cache ∧
      ∀ signature, (description.resolve database lookup state).1 = .ok signature →
        (description.resolve database lookup state).2.cache.entries.get?
          (database, description.identity) = some signature := by
  induction description using Description.mixin_induction generalizing state with
  | step description below =>
    cases found : state.cache.entries.get? (database, description.identity) with
    | some signature =>
      rw [resolve_hit description state found]
      refine ⟨.refl _, fun other same => ?_⟩
      cases same
      exact found
    | none =>
      rw [resolve_miss description state found]
      cases description.classify description.name lookup with
      | error refusal => exact ⟨.refl _, by rintro _ ⟨⟩⟩
      | ok own =>
        obtain ⟨kept, -⟩ := resolveMixins_holds_of below state
        dsimp only
        generalize resolveMixins database lookup description.mixins state = run at kept ⊢
        cases run using outcome_cases with
        | error refusal => exact ⟨kept, by rintro _ ⟨⟩⟩
        | ok nested after =>
          dsimp only
          rw [compileSource_run]
          split
          · exact ⟨kept, by rintro _ ⟨⟩⟩
          · refine ⟨fun key signature known => ?_, fun signature same => ?_⟩
            · -- The new entry is in nobody's place: there was none when the cache was looked at.
              have other : (database, description.identity) ≠ key := by
                rintro rfl
                rw [found] at known
                cases known
              rw [SignatureCache.get?_keep, if_neg other]
              exact kept key signature known
            · cases same
              rw [SignatureCache.get?_keep, if_pos rfl]

variable (database lookup) in
/-- What was resolved is cached. -/
private theorem resolveMixins_holds (mixins : List (Description κ)) (state : ResolveState) :
    state.cache.KeptBy (resolveMixins database lookup mixins state).2.cache ∧
      ∀ fields, (resolveMixins database lookup mixins state).1 = .ok fields →
        (resolveMixins database lookup mixins state).2.cache.HoldsMixins database mixins fields :=
  resolveMixins_holds_of (fun mixin _ => mixin.resolve_caches) state

/-- Mixins that are cached are not compiled again. -/
theorem resolveMixins_held (lookup : TableLookup) {mixins : List (Description κ)}
    {fields : List FieldDefinition} (state : ResolveState)
    (holds : state.cache.HoldsMixins database mixins fields) :
    ∃ after, resolveMixins database lookup mixins state = (.ok fields, ⟨after, state.fieldSources⟩) ∧
      after.entries = state.cache.entries := by
  induction mixins generalizing state fields with
  | nil =>
    cases holds
    exact ⟨state.cache, resolveMixins_nil state, rfl⟩
  | cons mixin rest ih =>
    obtain ⟨signature, others, found, held, rfl⟩ := holds
    have hit : SignatureCache.HoldsMixins (SignatureCache.hit state.cache) database rest others :=
      held.mono (.refl _)
    obtain ⟨after, ran, entries⟩ := ih { state with cache := state.cache.hit } hit
    refine ⟨after, ?_, entries⟩
    rw [resolveMixins_cons, resolve_hit mixin state found]
    dsimp only
    rw [ran]

end Mixins

/-! ## Members that are sorted again -/

namespace Classification

variable {table : String} {lookup : TableLookup} {c after : Classification κ}
  {declared : String × Member κ} {fields : List FieldDefinition}

/-- Whether fields only differ from those of a classification in their validators. -/
def SameBare (c : Classification κ) (fields : List FieldDefinition) : Prop :=
  fields.map FieldDefinition.bare = c.fields.map FieldDefinition.bare

theorem SameBare.append {own other : FieldDefinition} (same : c.SameBare fields)
    (alike : other.bare = own.bare) : (fields ++ [other]).map FieldDefinition.bare =
      (c.fields ++ [own]).map FieldDefinition.bare := by
  rw [List.map_append, List.map_append, same, List.map_singleton, List.map_singleton, alike]

/-- A member that was placed is placed in the same way, unless a validator of it cannot be made. -/
private theorem add_again (lookup' : TableLookup) (same : c.SameBare fields)
    (placed : c.add table lookup declared = .ok after) :
    (∃ again, ({ c with fields } : Classification κ).add table lookup' declared =
        .ok { after with fields := again } ∧ after.SameBare again) ∨
      ∃ source, ({ c with fields } : Classification κ).add table lookup' declared =
        .error (.validator table declared.1 source) := by
  obtain ⟨name, member⟩ := declared
  simp only [add] at placed ⊢
  cases reserved : isReservedName name with
  | true =>
    rw [reserved, if_pos rfl] at placed
    cases placed
    exact Or.inl ⟨fields, rfl, same⟩
  | false =>
    rw [reserved, if_neg Bool.false_ne_true] at placed
    rw [if_neg Bool.false_ne_true]
    cases named : Phase.ofName? name with
    | some phase =>
      cases member <;> simp only [named] at placed <;> cases placed
      exact Or.inl ⟨fields, rfl, same⟩
    | none =>
      simp only [named] at placed
      cases member with
      | field field =>
        simp only [addMember, addField] at placed ⊢
        split at placed
        · cases placed
        · next made =>
          cases placed
          cases Requirement.resolveAll lookup' field.requirements with
          | error source => exact Or.inr ⟨source, rfl⟩
          | ok validators => exact Or.inl ⟨_, rfl, same.append rfl⟩
      | virtual getter =>
        cases placed
        exact Or.inl ⟨_, rfl, same.append rfl⟩
      | method call =>
        cases placed
        exact Or.inl ⟨_, rfl, same.append rfl⟩
      | tableMethod callback =>
        simp only [addMember] at placed ⊢
        split at placed
        · next own =>
          cases placed
          rw [if_pos own]
          exact Or.inl ⟨_, rfl, same⟩
        · next other =>
          cases placed
          rw [if_neg other]
          exact Or.inl ⟨_, rfl, same⟩
      | index index =>
        cases placed
        exact Or.inl ⟨_, rfl, same⟩
      | option value =>
        cases placed
        exact Or.inl ⟨_, rfl, same⟩
      | hook hook => cases placed

end Classification

/-- The members of a description that were sorted are sorted in the same way whenever their
validators can be made. -/
theorem Description.classify_again {description : Description κ} {table : String}
    {lookup : TableLookup} {c : Classification κ} (lookup' : TableLookup)
    (sorted : description.classify table lookup = .ok c) :
    (∃ fields, description.classify table lookup' = .ok { c with fields } ∧ c.SameBare fields) ∨
      ∃ field source, description.classify table lookup' = .error (.validator table field source) := by
  unfold classify at sorted ⊢
  suffices general : ∀ (members : List (String × Member κ)) (start : Classification κ) fields,
      start.SameBare fields → members.foldlM (Classification.add table lookup) start = .ok c →
      (∃ again, members.foldlM (Classification.add table lookup') { start with fields } =
          .ok { c with fields := again } ∧ c.SameBare again) ∨
        ∃ field source, members.foldlM (Classification.add table lookup') { start with fields } =
          .error (.validator table field source) from
    general description.members.entries {} [] rfl sorted
  intro members
  induction members with
  | nil =>
    intro start fields same sorted
    cases sorted
    exact Or.inl ⟨fields, rfl, same⟩
  | cons declared rest ih =>
    intro start fields same sorted
    rw [List.foldlM_cons] at sorted ⊢
    obtain ⟨middle, first, later⟩ := bind_eq_ok_iff.1 sorted
    rcases Classification.add_again lookup' same first with ⟨again, placed, same'⟩ | ⟨source, failed⟩
    · rw [placed]
      exact ih middle again same' later
    · rw [failed]
      exact Or.inr ⟨declared.1, source, rfl⟩

/-! ## Blueprints that are drawn again -/

private theorem FieldDefinition.sameShape_of_bare {a b : FieldDefinition} (same : a.bare = b.bare) :
    a.sameShape b = true := by
  cases a <;> cases b <;> simp only [bare, FieldDefinition.plain.injEq, reduceCtorEq,
    FieldDefinition.virtual.injEq, FieldDefinition.method.injEq] at same
  · next a b =>
    obtain ⟨name, typeArgs, options, validators⟩ := a
    obtain ⟨name', typeArgs', options', validators'⟩ := b
    cases same
    simp [sameShape, Options.same_refl]
  · simp [sameShape, same.1]
  · simp [sameShape, same.1]

/-- Definitions whose fields differ in validators at most lay a table out in the same way. -/
theorem TableDefinition.SameLayout.of_bare (definition : TableDefinition)
    {fields : List FieldDefinition}
    (same : fields.map FieldDefinition.bare = definition.fields.map FieldDefinition.bare) :
    definition.SameLayout { definition with fields } where
  physicalName := rfl
  primaryKey := rfl
  fields := by
    have mapped : List.Forall₂ (· = ·) (definition.fields.map FieldDefinition.bare)
        (fields.map FieldDefinition.bare) := by
      rw [List.forall₂_eq_eq_eq]
      exact same.symm
    have related := List.forall₂_map_right_iff.1 (List.forall₂_map_left_iff.1 mapped)
    exact related.imp fun _ _ => FieldDefinition.sameShape_of_bare
  options := Options.same_iff.1 definition.options.same_refl

namespace TableDefinition.SameLayout

variable {a b : TableDefinition}

theorem fieldNames (same : a.SameLayout b) : a.fieldNames = b.fieldNames := by
  have fields := same.fields
  rw [TableDefinition.fieldNames, TableDefinition.fieldNames]
  generalize a.fields = xs, b.fields = ys at fields
  induction fields with
  | nil => rfl
  | @cons x y xs ys alike _ ih =>
    have named : x.name = y.name := by
      cases x <;> cases y <;> simp_all [FieldDefinition.sameShape, FieldDefinition.name]
    rw [List.map_cons, List.map_cons, ih, named]

/-- What is wrong with a definition on its own can be told from its layout. -/
theorem fault? (same : a.SameLayout b) : a.fault? = b.fault? := by
  have stores (column : String) : a.stores column = b.stores column := by
    have fields := same.fields
    unfold TableDefinition.stores TableDefinition.field?
    generalize a.fields = xs, b.fields = ys at fields
    induction fields with
    | nil => rfl
    | @cons x y xs ys alike _ ih =>
      rw [List.find?_cons, List.find?_cons]
      have named : x.name = y.name ∧ x.isStored = y.isStored := by
        cases x <;> cases y <;>
          simp_all [FieldDefinition.sameShape, FieldDefinition.name, FieldDefinition.isStored]
      rw [named.1]
      cases y.name == column
      · exact ih
      · simp [named.2]
  unfold TableDefinition.fault?
  rw [same.fieldNames, same.primaryKey]
  simp only [stores]

end TableDefinition.SameLayout

/-- A blueprint is drawn in the same way from fields that differ in validators at most. -/
theorem CompileOptions.blueprint_again {options : CompileOptions κ} {name : String}
    {c : Classification κ} {mixinFields fields : List FieldDefinition} {blueprint : Blueprint κ}
    (drawn : options.blueprint name c mixinFields = .ok blueprint) (same : c.SameBare fields) :
    ∃ again, options.blueprint name { c with fields } mixinFields = .ok again ∧
      again.steps = blueprint.steps ∧ again.definition.name = blueprint.definition.name ∧
      blueprint.definition.SameLayout again.definition := by
  have names : (fields ++ mixinFields).map FieldDefinition.name =
      (c.fields ++ mixinFields).map FieldDefinition.name := by
    have bare (list : List FieldDefinition) : list.map FieldDefinition.name =
        (list.map FieldDefinition.bare).map FieldDefinition.name := by simp
    rw [List.map_append, List.map_append, bare fields, bare c.fields, same]
  unfold CompileOptions.blueprint at drawn ⊢
  obtain ⟨⟨explicitKey, rest⟩, key, drawn⟩ := bind_eq_ok_iff.1 drawn
  obtain ⟨⟨explicitName, rest'⟩, stored, drawn⟩ := bind_eq_ok_iff.1 drawn
  obtain ⟨migration, planned, drawn⟩ := bind_eq_ok_iff.1 drawn
  cases drawn
  rw [← names] at planned
  refine ⟨_, bind_eq_ok_iff.2 ⟨_, key, bind_eq_ok_iff.2 ⟨_, stored,
    bind_eq_ok_iff.2 ⟨_, planned, rfl⟩⟩⟩, rfl, rfl, ?_⟩
  exact TableDefinition.SameLayout.of_bare _ (by rw [List.map_append, same, List.map_append])

/-! ## Drafting again -/

@[simp] theorem World.cache_setCache (world : World κ ε) (number : Nat) (cache : SignatureCache) :
    (world.setCache number cache).cache = Function.update world.cache number cache := by
  funext probe
  unfold World.cache setCache
  rw [OrderedMap.get?_insert, Function.update_apply]
  by_cases same : number = probe
  · simp [same]
  · simp [same, Ne.symm same]

section Draft

variable {database : String} {cache : Nat} {options : CompileOptions κ}
  {description : Description κ} {world later drafted : World κ ε} {blueprint : Blueprint κ}

/-- Whether a blueprint was drawn from fields of mixins that are cached. -/
def Redraftable (database : String) (cache : Nat) (options : CompileOptions κ)
    (description : Description κ) (blueprint : Blueprint κ) (world : World κ ε) : Prop :=
  ∃ lookup c mixinFields, description.classify (options.tableName description) lookup = .ok c ∧
    options.blueprint (options.tableName description) c mixinFields = .ok blueprint ∧
    (world.cache cache).HoldsMixins database description.mixins mixinFields

theorem Redraftable.mono (drawable : Redraftable database cache options description blueprint world)
    (kept : (world.cache cache).KeptBy (later.cache cache)) :
    Redraftable database cache options description blueprint later := by
  obtain ⟨lookup, c, mixinFields, sorted, drawn, holds⟩ := drawable
  exact ⟨lookup, c, mixinFields, sorted, drawn, holds.mono kept⟩

private theorem resolveIn_caches (database : String) (cache : Nat) (mixins : List (Description κ))
    (world : World κ ε) :
    let ran := resolveIn database cache (fun lookup => resolveMixins database lookup mixins) world
    (∀ number, (world.cache number).KeptBy (ran.2.cache number)) ∧
      ∀ fields, ran.1 = .ok fields → (ran.2.cache cache).HoldsMixins database mixins fields := by
  have resolved := resolveMixins_holds database (world.database database).lookup mixins
    ⟨world.cache cache, (world.database database).fieldSourceCount⟩
  rw [resolveIn]
  dsimp only
  generalize resolveMixins database (world.database database).lookup mixins
    ⟨world.cache cache, (world.database database).fieldSourceCount⟩ = run at resolved ⊢
  obtain ⟨result, after⟩ := run
  dsimp only
  rw [World.cache_setCache, Function.update_self]
  refine ⟨fun number => ?_, resolved.2⟩
  by_cases own : number = cache
  · subst own
    rw [Function.update_self]
    exact resolved.1
  · rw [Function.update_of_ne own]
    exact .refl _

/-- Resolving what is cached changes no database. -/
private theorem resolveIn_held {mixins : List (Description κ)} {fields : List FieldDefinition}
    (holds : (world.cache cache).HoldsMixins database mixins fields) :
    let ran := resolveIn database cache (fun lookup => resolveMixins database lookup mixins) world
    ran.1 = .ok fields ∧ ran.2.database = world.database := by
  obtain ⟨after, ran, -⟩ := resolveMixins_held (world.database database).lookup
    ⟨world.cache cache, (world.database database).fieldSourceCount⟩ holds
  rw [resolveIn]
  dsimp only
  rw [ran]
  refine ⟨rfl, ?_⟩
  change (world.setDatabase database (world.database database)).database = _
  rw [World.database_setDatabase, Function.update_eq_self]

/-- Drafting keeps what is cached. -/
theorem draft_keeps (database : String) (cache : Nat) (options : CompileOptions κ)
    (description : Description κ) (world : World κ ε) (number : Nat) :
    (world.cache number).KeptBy
      ((draft database cache options description world).2.cache number) := by
  have resolved := (resolveIn_caches database cache description.mixins world).1 number
  rw [draft_run]
  cases description.classify (options.tableName description) (world.database database).lookup with
  | error refusal => exact .refl _
  | ok c =>
    dsimp only
    generalize resolveIn database cache (fun lookup =>
      resolveMixins database lookup description.mixins) world = ran at resolved ⊢
    cases ran using outcome_cases <;> exact resolved

theorem draft_redraftable
    (ran : draft database cache options description world = (.ok blueprint, drafted)) :
    Redraftable database cache options description blueprint drafted := by
  have resolved := (resolveIn_caches database cache description.mixins world).2
  rw [draft_run] at ran
  split at ran
  · cases ran
  · next c sorted =>
    generalize resolveIn database cache (fun lookup =>
      resolveMixins database lookup description.mixins) world = asked at resolved ran
    cases asked using outcome_cases with
    | error refusal => cases ran
    | ok mixinFields after =>
      obtain ⟨drawn, rfl⟩ := Prod.mk.inj ran
      exact ⟨_, c, mixinFields, sorted, drawn, resolved _ rfl⟩

/-- Another draft of a table comes to a blueprint with the same steps and a definition of the same
layout, unless a validator cannot be made. It changes no database. -/
theorem draft_again (drawable : Redraftable database cache options description blueprint world) :
    (∃ again drafted, draft database cache options description world = (.ok again, drafted) ∧
      drafted.database = world.database ∧ again.steps = blueprint.steps ∧
      again.definition.name = blueprint.definition.name ∧
      blueprint.definition.SameLayout again.definition) ∨
    ∃ field source, (draft database cache options description world).1 =
      .error (.validator (options.tableName description) field source) := by
  obtain ⟨lookup, c, mixinFields, sorted, drawn, holds⟩ := drawable
  rw [draft_run]
  rcases Description.classify_again (world.database database).lookup sorted with
    ⟨fields, again, same⟩ | ⟨field, source, failed⟩
  · obtain ⟨resolved, databases⟩ := resolveIn_held holds
    obtain ⟨redrawn, drawn', steps, named, layout⟩ := CompileOptions.blueprint_again drawn same
    rw [again]
    dsimp only
    generalize resolveIn database cache (fun lookup =>
      resolveMixins database lookup description.mixins) world = asked at resolved databases
    obtain ⟨result, after⟩ := asked
    subst resolved
    dsimp only
    rw [drawn']
    exact Or.inl ⟨redrawn, after, rfl, databases, steps, named, layout⟩
  · rw [failed]
    exact Or.inr ⟨field, source, rfl⟩

end Draft

end SchemaCompiler
