import SchemaCompiler.Proofs.CompilationRuns
import SchemaCompiler.Proofs.Redrafting
import SchemaCompiler.Proofs.ReorderedMembers

/-! A table that is compiled from one order of its members and then from another one. If the fields
keep their order, both definitions have one layout (`CompileOptions.blueprint_alike`), since options
are compared as maps. No operation takes a table out or lays it out anew
(`Databases.Reaches.isLaidOut`), so the layer opens the table again, and only a callback or a
migrator can still refuse (`reopens_of_draft`). What the two compilations find in their caches may
come from anywhere, as long as the validators in question can be made again. -/
namespace SchemaCompiler

open Effect

variable {κ ε : Type}

/-! ## Layouts that stay -/

/-- Whether there is a table of a definition's name, in its layout. -/
def TableDefinition.IsLaidOut (definition : TableDefinition) (tables : OrderedMap String Handle) :
    Prop :=
  ∃ latest, tables.get? definition.name = some latest ∧ definition.SameLayout latest.definition

/-- Opening a table again leaves it in its layout, and other tables as they are. -/
theorem TableDefinition.IsLaidOut.insert {definition opened : TableDefinition}
    {tables : OrderedMap String Handle} {handle : Handle} (own : handle.definition = opened)
    (agrees : ∀ existing, tables.get? opened.name = some existing →
      existing.definition.SameLayout opened)
    (before : definition.IsLaidOut tables) :
    definition.IsLaidOut (tables.insert opened.name handle) := by
  obtain ⟨latest, found, layout⟩ := before
  unfold IsLaidOut
  rw [OrderedMap.get?_insert]
  by_cases same : opened.name = definition.name
  · rw [if_pos same]
    exact ⟨handle, rfl, own ▸ layout.trans (agrees latest (same ▸ found))⟩
  · rw [if_neg same]
    exact ⟨latest, found, layout⟩

/-- No step takes a table out or lays it out anew. -/
theorem Database.Step.isLaidOut {name : String} {before after : Database κ}
    (step : Database.Step name before after) {definition : TableDefinition}
    (here : definition.IsLaidOut before.tables) : definition.IsLaidOut after.tables := by
  cases step with
  | define opened =>
    cases asked : before.refusal? opened with
    | some refusal =>
      rw [Database.defineTable_refused _ asked]
      exact here
    | none =>
      rw [Database.defineTable_accepted _ asked]
      exact here.insert rfl (Database.refusal?_eq_none_iff.1 asked).2
  | insert | update | delete | attach => exact here

theorem Databases.Reaches.isLaidOut {before after : Databases κ} (reaches : Reaches before after)
    {name : String} {definition : TableDefinition}
    (here : definition.IsLaidOut (before name).tables) :
    definition.IsLaidOut (after name).tables :=
  reaches.keeps (P := fun db => definition.IsLaidOut db.tables)
    (fun step before => step.isLaidOut before) here

/-- Whatever an application does when it is called, it leaves tables in their layouts. -/
theorem Application.keepLayouts (application : Application κ ε) (depth : Nat) (database : String)
    (definition : TableDefinition) :
    (application.callbacks depth).KeepTables database definition.IsLaidOut :=
  application.keepTables depth fun reaches => reaches.isLaidOut

/-! ## Blueprints from another order -/

namespace CompileOptions

variable {options : CompileOptions κ} {name : String} {c c' : Classification κ}
  {mixinFields nested : List FieldDefinition} {blueprint : Blueprint κ}

private theorem migration_alike {fields : List String} {migration : Option (IndexMigrator κ × Plan)}
    (planned : options.migration name fields c.indexes = .ok migration) (alike : c.Alike c') :
    ∃ again, options.migration name fields c'.indexes = .ok again := by
  unfold CompileOptions.migration at planned ⊢
  split at planned
  · next asked =>
    rw [if_pos asked]
    split at planned
    · cases planned
    · next migrator supplied =>
      obtain ⟨plan, drawn, -⟩ := bind_eq_ok_iff.1 planned
      have known := Plan.ofIndexes_ok_iff.1 ⟨plan, drawn⟩
      simp only [← alike.indexes] at known
      obtain ⟨plan', drawn'⟩ := Plan.ofIndexes_ok_iff.2 known
      exact ⟨_, bind_eq_ok_iff.2 ⟨plan', drawn', rfl⟩⟩
  · next idle =>
    rw [if_neg idle]
    exact ⟨none, rfl⟩

/-- A blueprint can be drawn from another order of the members as well, and lays the table out in
the same way, if the fields keep their order. -/
theorem blueprint_alike (drawn : options.blueprint name c mixinFields = .ok blueprint)
    (alike : c.Alike c')
    (own : c'.fields.map FieldDefinition.bare = c.fields.map FieldDefinition.bare)
    (mixed : nested.map FieldDefinition.bare = mixinFields.map FieldDefinition.bare) :
    ∃ again, options.blueprint name c' nested = .ok again ∧
      again.definition.name = blueprint.definition.name ∧
      blueprint.definition.SameLayout again.definition := by
  obtain ⟨explicitKey, explicitName, migration, key, stored, planned, definition, -⟩ :=
    blueprint_ok drawn
  have bare : (c'.fields ++ nested).map FieldDefinition.bare =
      (c.fields ++ mixinFields).map FieldDefinition.bare := by
    rw [List.map_append, List.map_append, own, mixed]
  have names (fields : List FieldDefinition) : fields.map FieldDefinition.name =
      (fields.map FieldDefinition.bare).map FieldDefinition.name := by simp
  rw [names, ← bare, ← names] at planned
  obtain ⟨migration', planned'⟩ := migration_alike planned alike
  rw [← alike.options] at key
  rw [OrderedMap.get?_erase, ← alike.options, ← OrderedMap.get?_erase] at stored
  refine ⟨_, bind_eq_ok_iff.2 ⟨_, bind_eq_ok_iff.2 ⟨_, key, rfl⟩, bind_eq_ok_iff.2 ⟨_,
    bind_eq_ok_iff.2 ⟨_, stored, rfl⟩, bind_eq_ok_iff.2 ⟨_, planned', rfl⟩⟩⟩, ?_, ?_⟩
  · rw [definition]
  · have fields : (c'.fields ++ nested).map FieldDefinition.bare =
        blueprint.definition.fields.map FieldDefinition.bare := by rw [bare, definition]
    refine (TableDefinition.SameLayout.of_bare _ fields).trans ?_
    rw [definition, alike.hasIdName, alike.hasIdType]
    refine ⟨rfl, rfl, (TableDefinition.SameLayout.refl _).fields, fun option => ?_⟩
    have kept : ((c'.options.erase primaryKeyOption).erase storedNameOption).get? option =
        ((c.options.erase primaryKeyOption).erase storedNameOption).get? option := by
      simp only [OrderedMap.get?_erase, alike.options]
    dsimp only
    rw [kept]
    exact Options.same_iff.1 (Options.same_refl _) option

end CompileOptions

/-! ## Opening a table again -/

/-- A record without a refusal is that of a run without one. -/
private theorem Follows.unrefused {σ η : Type} {agenda : List (Request κ)}
    {record : List (Exchange κ σ η)} {refusal : Option BuildError}
    (follows : Follows agenda record refusal)
    (granted : ∀ exchange ∈ record, exchange.refusal = none) : refusal = none := by
  induction follows with
  | finished => rfl
  | refused exchange rest stopped =>
    rw [granted exchange List.mem_cons_self] at stopped
    cases stopped
  | granted exchange went follows ih =>
    exact ih fun later listed => granted later (List.mem_cons_of_mem _ listed)

section Compile

variable {callbacks : Callbacks κ ε} {database : String} {cache : Nat} {options : CompileOptions κ}
  {description : Description κ} {world drafted after : World κ ε}

variable (callbacks) in
/-- What a compilation comes to whose definition the layer grants. -/
theorem compile_granted {blueprint : Blueprint κ}
    (ran : draft database cache options description world = (.ok blueprint, drafted))
    (asked : (drafted.database database).refusal? blueprint.definition = none) :
    let handle := drafted.nextHandle database blueprint.definition
    let opened := drafted.opening database blueprint.definition
    let others := Collaborators.inMemory callbacks database description.name
    (compile callbacks database cache options description world).1 =
        (blueprint.steps.forM (others.finish handle) opened).1.map (fun _ => handle) ∧
      compileRecord callbacks database cache options description world =
        ⟨.define blueprint.definition, none, drafted, none⟩ ::
          others.exchanges handle blueprint.steps opened := by
  have goes := compile_goes callbacks database cache options description world
  generalize compile callbacks database cache options description world = outcome,
    compileRecord callbacks database cache options description world = record at goes ⊢
  cases goes with
  | undrafted ran' => cases ran.symm.trans ran'
  | refused ran' asked' =>
    cases ran.symm.trans ran'
    cases asked.symm.trans asked'
  | opened ran' _ made performed =>
    cases ran.symm.trans ran'
    subst made
    refine ⟨?_, rfl⟩
    dsimp only [Collaborators.inMemory]
    rw [performed]

/-- A compilation that opens a table again. The layer grants the definition, which lays the table
out as it is, and leaves all rows and the other tables alone; a handle is what comes of it unless a
callback or a migrator refuses, and nobody else can. -/
structure Reopens (callbacks : Callbacks κ ε) (database : String) (cache : Nat)
    (options : CompileOptions κ) (description : Description κ) (definition : TableDefinition)
    (world : World κ ε) (made : Handle) : Prop where
  named : made.name = definition.name
  layout : definition.SameLayout made.definition
  granted : ∃ found, ⟨.define made.definition, none, found, none⟩ ∈
      compileRecord callbacks database cache options description world ∧
    let opened := defineTable database made.definition found
    opened.1 = .ok made ∧
    (opened.2.database database).tables.get? definition.name = some made ∧
    (opened.2.database database).tables.keys = (world.database database).tables.keys ∧
    (opened.2.database database).storages = (world.database database).storages
  completes : (∀ exchange ∈ compileRecord callbacks database cache options description world,
      exchange.refusal = none) →
    (compile callbacks database cache options description world).1 = .ok made
  refused : ∀ refusal, (compile callbacks database cache options description world).1 =
    .error refusal → refusal.isOfCall = true

/-- A table that was compiled is there, in its layout, unless a callback lays it out anew. -/
theorem compile_isLaidOut {handle : Handle}
    (kept : ∀ definition : TableDefinition, callbacks.KeepTables database definition.IsLaidOut)
    (went : compile callbacks database cache options description world = (.ok handle, after)) :
    handle.definition.IsLaidOut (after.database database).tables := by
  obtain ⟨filed, filing, keeps⟩ :=
    compile_tables callbacks database cache options description world
  rw [went] at filing keeps
  refine keeps _ (kept _) ?_
  rcases filing with ⟨-, refusal, failed⟩ | ⟨made, named, rfl, returned⟩
  · cases failed
  · obtain rfl := returned handle rfl
    rw [← named]
    exact ⟨handle, OrderedMap.get?_insert_self .., .refl _⟩

/-- A draft of the layout that a table has opens it again. -/
theorem reopens_of_draft {definition : TableDefinition} {blueprint : Blueprint κ}
    (faultless : definition.fault? = none)
    (present : definition.IsLaidOut (world.database database).tables)
    (ran : draft database cache options description world = (.ok blueprint, drafted))
    (named : blueprint.definition.name = definition.name)
    (same : definition.SameLayout blueprint.definition) :
    Reopens callbacks database cache options description definition world
      (drafted.nextHandle database blueprint.definition) := by
  have spared := draft_sameTables database cache options description world
  rw [ran] at spared
  obtain ⟨count, databases⟩ := spared.databases database
  obtain ⟨latest, found, current⟩ := present
  have asked : (drafted.database database).refusal? blueprint.definition = none := by
    rw [Database.refusal?_eq_none_iff, named, ← same.fault?, databases]
    refine ⟨faultless, fun existing found' => ?_⟩
    cases found.symm.trans found'
    exact current.symm.trans same
  have known : definition.name ∈ (world.database database).tables.keys :=
    (OrderedMap.mem_keys_iff _).2 ⟨latest, found⟩
  obtain ⟨outcome, record⟩ := compile_granted callbacks ran asked
  refine ⟨named, same, ⟨drafted, ?_, ?_⟩, fun granted => ?_, fun refusal refused => ?_⟩
  · rw [record]
    exact List.mem_cons_self
  · dsimp only [defineTable, World.nextHandle]
    rw [World.database_setDatabase, Function.update_self, Database.defineTable_accepted _ asked]
    refine ⟨rfl, ?_, ?_, ?_⟩
    · rw [← named]
      exact OrderedMap.get?_insert_self ..
    · dsimp only
      rw [databases, named, OrderedMap.keys_insert, if_pos known]
    · rw [databases]
  · rw [record, List.forall_mem_cons] at granted
    have follows := Collaborators.exchanges_follow
      (Collaborators.inMemory callbacks database description.name)
      (drafted.nextHandle database blueprint.definition) blueprint.steps
      (drafted.opening database blueprint.definition)
    obtain ⟨value, went⟩ := refusalOf_eq_none_iff.1 (follows.unrefused granted.2)
    rw [outcome, went]
    rfl
  · rw [outcome, map_eq_error_iff] at refused
    obtain ⟨step, -, found, failed⟩ := forM_refused refused
    rcases FinishingStep.perform_refused failed with ⟨_, _, _, rfl⟩ | ⟨_, _, rfl⟩ <;> rfl

end Compile

/-! ## Drafts from another order -/

/-- Calls at lookups that are due leave a cache coherent for all of them, if each resolves what the
others do. -/
private theorem Coherent.afterCalls_due {catalogue : Catalogue κ}
    {due : String → TableLookup → Prop}
    (steady : ∀ name earlier later, due name earlier → due name later →
      catalogue.Lasts earlier later) {calls : List (CacheCall κ)}
    (asked : ∀ database lookup fieldSources signature,
      .resolve database lookup fieldSources signature ∈ calls →
        catalogue.Lists signature ∧ due database lookup)
    {cache : SignatureCache} (sound : Coherent catalogue due cache) :
    Coherent catalogue due (cache.afterCalls calls) := by
  refine List.foldlRecOn calls SignatureCache.afterCall sound fun cache sound call isCall => ?_
  cases call with
  | resolve database lookup fieldSources signature =>
    obtain ⟨listed, now⟩ := asked database lookup fieldSources signature isCall
    exact (Description.resolve_exact now (fun _ => steady _ _ _ now) signature listed
      ⟨cache, fieldSources⟩ sound).resolved.coherent
  | evict database => exact sound.evict database
  | clear => exact Coherent.clear

/-- The fields that members declare are those of the field-like ones. -/
private theorem Description.ownFields_eq (description : Description κ) :
    description.ownFields = description.ownFieldMembers.filterMap declaredField? := by
  rw [ownFields, ownFieldMembers, List.filterMap_filter]
  refine List.filterMap_congr fun declared _ => ?_
  obtain ⟨name, member⟩ := declared
  cases member <;> cases reserved : isReservedName name <;>
    simp [declaredField?, isFieldMember, Member.isFieldLike, Member.bareField?, reserved]

/-- Members that were sorted are sorted in another order as well, wherever their validators can be
made again, and come to the same but for these. -/
theorem Description.classify_reordered {first second : Description κ} {table : String}
    {lookup lookup' : TableLookup} {c : Classification κ}
    (reordered : second.members.entries.Perm first.members.entries)
    (inOrder : second.ownFieldMembers = first.ownFieldMembers) (lasts : first.Lasts lookup lookup')
    (sorted : first.classify table lookup = .ok c) :
    ∃ fields c', second.classify table lookup' = .ok c' ∧ c.SameBare fields ∧
      ({ c with fields } : Classification κ).Alike c' ∧
      c'.fields.map FieldDefinition.bare = fields.map FieldDefinition.bare := by
  obtain ⟨again, sorted₁⟩ := classify_lasts lasts ⟨c, sorted⟩
  obtain ⟨c', sorted₂⟩ := (classify_ok_perm reordered).1 ⟨again, sorted₁⟩
  have alike := classify_alike reordered sorted₁ sorted₂
  obtain ⟨fields, same, bare⟩ := (classify_again lookup' sorted).resolve_right (by
    rintro ⟨field, source, failed⟩
    cases sorted₁.symm.trans failed)
  cases sorted₁.symm.trans same
  refine ⟨fields, c', sorted₂, bare, alike, ?_⟩
  rw [classify_fields sorted₂, bare, classify_fields sorted, ownFields_eq, inOrder, ← ownFields_eq]

section Reordered

variable {first second : Description κ} {database : String} {cache cache' : Nat}
  {options : CompileOptions κ} {world drafted later : World κ ε} {blueprint : Blueprint κ}
  {catalogue : Catalogue κ} {due : String → TableLookup → Prop}

/-- Mixins that were resolved are resolved wherever their validators can be made again, and to the
same fields but for these, whatever is cached. -/
private theorem resolveMixins_again {mixins : List (Description κ)} {lookup lookup' : TableLookup}
    {state : ResolveState} (state' : ResolveState) {mixinFields : List FieldDefinition}
    (listed : ∀ mixin ∈ mixins, catalogue.Lists mixin) (now : due database lookup)
    (andThen : due database lookup')
    (steady : ∀ name a b, due name a → due name b → catalogue.Lasts a b)
    (sound : Coherent catalogue due state.cache) (sound' : Coherent catalogue due state'.cache)
    (resolved : (resolveMixins database lookup mixins state).1 = .ok mixinFields) :
    ∃ nested, (resolveMixins database lookup' mixins state').1 = .ok nested ∧
      nested.map FieldDefinition.bare = mixinFields.map FieldDefinition.bare := by
  have agrees := resolveMixins_agrees now (fun _ => steady _ _ _ now) listed state sound
  have agrees' := resolveMixins_agrees andThen (fun _ => steady _ _ _ andThen) listed state' sound'
  rw [resolved] at agrees
  obtain ⟨expanded, expands, bare⟩ := agrees.of_ok
  obtain ⟨expanded', again⟩ :=
    expandMixins_again catalogue.closed (steady _ _ _ now andThen) listed ⟨expanded, expands⟩
  rw [again] at agrees'
  obtain ⟨nested, resolved', bare'⟩ := agrees'.symm.of_ok
  refine ⟨nested, resolved', ?_⟩
  rw [bare', ← bare, expandMixins_bare again, expandMixins_bare expands]

/-- A description that was drafted is drafted from another order of its members as well, with the
same layout, wherever its validators can be made again. -/
theorem draft_reordered
    (reordered : second.members.entries.Perm first.members.entries)
    (inOrder : second.ownFieldMembers = first.ownFieldMembers)
    (named : second.name = first.name) (mixed : second.mixins = first.mixins)
    (listed : ∀ mixin ∈ first.mixins, catalogue.Lists mixin)
    (now : due database (world.database database).lookup)
    (andThen : due database (later.database database).lookup)
    (steady : ∀ name a b, due name a → due name b → catalogue.Lasts a b)
    (lasts : first.Lasts (world.database database).lookup (later.database database).lookup)
    (sound : Coherent catalogue due (world.cache cache))
    (sound' : Coherent catalogue due (later.cache cache'))
    (ran : draft database cache options first world = (.ok blueprint, drafted)) :
    ∃ again after, draft database cache' options second later = (.ok again, after) ∧
      again.definition.name = blueprint.definition.name ∧
      blueprint.definition.SameLayout again.definition := by
  obtain ⟨c, mixinFields, sorted, resolved, drawn⟩ := draft_ok ran
  have table : options.tableName second = options.tableName first := by
    rw [CompileOptions.tableName, CompileOptions.tableName, named]
  obtain ⟨fields, c', sorted', bare, alike, own⟩ :=
    Description.classify_reordered reordered inOrder lasts sorted
  obtain ⟨nested, resolved', mixedBare⟩ := resolveMixins_again
    ⟨later.cache cache', (later.database database).fieldSourceCount⟩ listed now andThen steady sound
    sound' resolved
  -- The blueprint is drawn again from the old order and then from the new one.
  obtain ⟨redrawn, drawn₁, -, named₁, layout₁⟩ := CompileOptions.blueprint_again drawn bare
  obtain ⟨again, drawn₂, named₂, layout₂⟩ :=
    CompileOptions.blueprint_alike drawn₁ alike own mixedBare
  have asked : (resolveIn database cache' (fun lookup =>
      resolveMixins database lookup second.mixins) later).1 = .ok nested := by
    rw [mixed]
    exact resolved'
  rw [draft_run, table, sorted']
  dsimp only
  generalize resolveIn database cache' (fun lookup =>
    resolveMixins database lookup second.mixins) later = run at asked ⊢
  obtain ⟨result, after⟩ := run
  subst asked
  exact ⟨again, after, by rw [← drawn₂], named₂.trans named₁, layout₁.trans layout₂⟩

/-- The order in which members are declared makes no difference but to the order of fields. Two
orders of the same members are both sorted or both refused. If they are sorted, each field is what
its own member makes, maps and flags are the same, and each unreserved member is found in one place
and nothing of its name in any other.

If the fields keep their order as well, a table that was compiled from one order is opened again
when the other one is compiled, with the same name, mixins and options and with any cache: the
layer does not refuse it, and neither does anything but a callback or a migrator. This takes
callbacks that leave tables in their layouts, as all that are made of operations do
(`Application.keepLayouts`), and validators that can be made
again whenever they could be made before. -/
theorem reordered_members {first second : Description κ}
    (reordered : second.members.entries.Perm first.members.entries) :
    (∀ table lookup,
      ((∃ c, first.classify table lookup = .ok c) ↔ ∃ c, second.classify table lookup = .ok c) ∧
      ∀ c c', first.classify table lookup = .ok c → second.classify table lookup = .ok c' →
        c.Alike c' ∧
        List.Forall₂ (Makes (· = lookup)) first.ownFieldMembers c.fields ∧
        List.Forall₂ (Makes (· = lookup)) second.ownFieldMembers c'.fields ∧
        ∀ name member, (name, member) ∈ first.members.entries → isReservedName name = false →
          ∃ place, c.Files lookup place (name, member) ∧ c'.Files lookup place (name, member) ∧
            ∀ other, (c.Has name other ↔ other = place) ∧ (c'.Has name other ↔ other = place)) ∧
    ∀ (callbacks : Callbacks κ ε) (database : String) (cache cache' : Nat)
      (options : CompileOptions κ) (world after later : World κ ε) (handle : Handle)
      (catalogue : Catalogue κ) (due : String → TableLookup → Prop)
      (calls calls' : List (CacheCall κ)),
      second.ownFieldMembers = first.ownFieldMembers →
      second.name = first.name → second.mixins = first.mixins →
      compile callbacks database cache options first world = (.ok handle, after) →
      (∀ definition : TableDefinition, callbacks.KeepTables database definition.IsLaidOut) →
      (∀ definition : TableDefinition, definition.IsLaidOut (after.database database).tables →
        definition.IsLaidOut (later.database database).tables) →
      (∀ mixin ∈ first.mixins, catalogue.Lists mixin) →
      world.cache cache = SignatureCache.afterCalls {} calls →
      later.cache cache' = SignatureCache.afterCalls {} calls' →
      (∀ other lookup fieldSources signature,
        .resolve other lookup fieldSources signature ∈ calls ++ calls' →
          catalogue.Lists signature ∧ due other lookup) →
      due database (world.database database).lookup →
      due database (later.database database).lookup →
      (∀ name a b, due name a → due name b → catalogue.Lasts a b) →
      first.Lasts (world.database database).lookup (later.database database).lookup →
      ∃ made, Reopens callbacks database cache' options second handle.definition later made := by
  refine ⟨fun table lookup => ⟨Description.classify_ok_perm reordered,
    fun c c' sorted sorted' => ⟨Description.classify_alike reordered sorted sorted',
      Description.classify_makes sorted, Description.classify_makes sorted',
      fun name member declared unreserved => ?_⟩⟩, ?_⟩
  · have declared' := reordered.mem_iff.2 declared
    exact ⟨_, Description.classify_files sorted declared unreserved,
      Description.classify_files sorted' declared' unreserved, fun other =>
        ⟨Description.classify_has_iff sorted declared unreserved,
          Description.classify_has_iff sorted' declared' unreserved⟩⟩
  · intro callbacks database cache cache' options world after later handle catalogue due calls calls'
      inOrder named mixed went kept onwards listed reached reached' asked now andThen steady lasts
    obtain ⟨found, granted⟩ := granted_of_compiled (congrArg Prod.fst went)
    obtain ⟨blueprint, ran, same, made, accepted, -⟩ := draft_of_granted granted
    have faultless := (Database.refusal?_eq_none_iff.1
      (Database.defineTable_isOk_iff.1 ⟨made, accepted⟩)).1
    have present := onwards _ (compile_isLaidOut kept went)
    have sound := Coherent.afterCalls_due steady (fun _ _ _ _ listed =>
      asked _ _ _ _ (List.mem_append_left calls' listed)) Coherent.empty
    have sound' := Coherent.afterCalls_due steady (fun _ _ _ _ listed =>
      asked _ _ _ _ (List.mem_append_right calls listed)) Coherent.empty
    rw [← reached] at sound
    rw [← reached'] at sound'
    obtain ⟨again, drafted, ran', named', layout⟩ := draft_reordered reordered inOrder named mixed
      listed now andThen steady lasts sound sound' ran
    rw [same] at named' layout
    exact ⟨_, reopens_of_draft faultless present ran' named' layout⟩

end Reordered

namespace Shuffled

/-- Two stored fields, which the other members do not come between. -/
def fields : List (String × Member Unit) :=
  [("title", .field (.ofType "string")), ("size", .field (.ofType "integer"))]

def others : List (String × Member Unit) :=
  [("before_insert", .hook ⟨0, .call ()⟩), ("by_title", .index (.on [.field "title"])),
    ("engine", .option (.string "log")), ("__comment", .option .null)]

/-- A mixin with one more field. -/
def stamped : Description Unit :=
  ⟨2, "stamped", .ofList [("at", .field (.ofType "datetime"))], []⟩

def fieldsFirst : Description Unit := ⟨1, "notes", .ofList (fields ++ others), [stamped]⟩

def fieldsLast : Description Unit := ⟨3, "notes", .ofList (others ++ fields), [stamped]⟩

/-- Whenever a table is finished, a row is written to it, and then it is opened once more. -/
def keeper : Application Unit Unit :=
  { Idle.conduct with
    tableMethod := fun _ _ _ => .finish (.ok .null)
    onDefineTable := fun _ _ handle =>
      .insert handle.id (.ofList [("title", .string "first")]) fun _ =>
        .define handle.database handle.definition fun _ => .finish (.ok ())
    onDefineModel := fun _ _ _ => .finish (.ok ())
    migrate := fun _ _ _ => .finish (.ok ()) }

def callbacks : Callbacks Unit (Observed Unit Unit) := keeper.callbacks 1

def told : CompileOptions Unit := { onDefineTable := some () }

/-- The world after the first order was compiled. -/
def compiled : World Unit (Observed Unit Unit) :=
  (compile callbacks "main" 0 told fieldsFirst Idle.start).2

def catalogue : Catalogue Unit where
  Lists description := description = stamped
  closed description listed mixin isMixin := by
    subst listed
    cases isMixin
  identified a b listed listed' _ := listed.trans listed'.symm

private theorem entries_fieldsFirst : fieldsFirst.members.entries = fields ++ others :=
  OrderedMap.entries_ofList (by decide)

private theorem entries_fieldsLast : fieldsLast.members.entries = others ++ fields :=
  OrderedMap.entries_ofList (by decide)

/-- No member of the two descriptions waits for a table. -/
theorem lasts {description : Description Unit}
    (ready : ∀ name stored, (name, Member.field stored) ∈ description.members.entries →
      stored.requirements = []) (earlier later : TableLookup) : description.Lasts earlier later := by
  intro name stored declared requirement asked
  rw [ready name stored declared] at asked
  cases asked

theorem reordered_members_notes :
    ∃ handle, (compile callbacks "main" 0 told fieldsFirst Idle.start).1 = .ok handle ∧
      ∃ made, (compile callbacks "main" 1 told fieldsLast compiled).1 = .ok made ∧
        made.name = handle.name ∧ handle.definition.SameLayout made.definition := by
  obtain ⟨handle, went⟩ := refusalOf_eq_none_iff.1
    (by decide +kernel : refusalOf (compile callbacks "main" 0 told fieldsFirst Idle.start).1 = none)
  have leads : compile callbacks "main" 0 told fieldsFirst Idle.start = (.ok handle, compiled) := by
    rw [compiled, ← went]
    exact (Prod.eta _).symm
  have reordered : fieldsLast.members.entries.Perm fieldsFirst.members.entries := by
    rw [entries_fieldsFirst, entries_fieldsLast]
    exact List.perm_append_comm
  have inOrder : fieldsLast.ownFieldMembers = fieldsFirst.ownFieldMembers := by
    rw [Description.ownFieldMembers, Description.ownFieldMembers, entries_fieldsFirst,
      entries_fieldsLast]
    rfl
  have unused : compiled.caches.get? 1 = none :=
    Option.isNone_iff_eq_none.1 (by decide +kernel)
  have empty : compiled.cache 1 = SignatureCache.afterCalls {} ([] : List (CacheCall Unit)) := by
    rw [World.cache, unused]
    rfl
  have asked : (compileRecord callbacks "main" 1 told fieldsLast compiled).all
      (fun exchange => exchange.refusal.isNone) = true := by decide +kernel
  have steady (earlier later : TableLookup) : catalogue.Lasts earlier later := by
    intro description listed
    subst listed
    refine lasts (fun name stored declared => ?_) earlier later
    cases List.mem_singleton.1 declared
    rfl
  have again (earlier later : TableLookup) : fieldsFirst.Lasts earlier later := by
    refine lasts (fun name stored declared => ?_) earlier later
    rw [entries_fieldsFirst] at declared
    simp only [fields, others, List.cons_append, List.nil_append, List.mem_cons, Prod.mk.injEq,
      Member.field.injEq, reduceCtorEq, and_false, List.not_mem_nil, or_false] at declared
    rcases declared with ⟨-, rfl⟩ | ⟨-, rfl⟩ <;> rfl
  obtain ⟨made, opened⟩ := (reordered_members reordered).2 callbacks "main" 0 1 told Idle.start
    compiled compiled handle catalogue (fun _ _ => True) [] [] inOrder rfl rfl leads
    (keeper.keepLayouts 1 "main") (fun _ here => here)
    (fun mixin isMixin => List.mem_singleton.1 isMixin) rfl empty (by simp) trivial trivial
    (fun _ _ _ _ _ => steady _ _) (again _ _)
  refine ⟨handle, went, made, opened.completes fun exchange listed => ?_, opened.named,
    opened.layout⟩
  exact Option.isNone_iff_eq_none.1 (List.all_eq_true.1 asked exchange listed)

end Shuffled
end SchemaCompiler
