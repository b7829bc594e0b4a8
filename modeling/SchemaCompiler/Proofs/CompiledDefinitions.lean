import SchemaCompiler.Proofs.CompilationRuns
import SchemaCompiler.Proofs.FieldMembers

/-! What is registered when a table is compiled. Once the layer has granted a definition, its
fields, options, stored name and explicit key can be read off the description and the options
alone, whatever of the mixins came out of the signature cache. The compilation goes on from the
world in which it is registered (`compile_defines`). -/
namespace SchemaCompiler

open Effect

variable {κ ε : Type}

/-! ## Options -/

/-- What is found under a name among the sorted options is the option declared under it. -/
theorem Classification.Sorts.option? {c : Classification κ} {description : Description κ}
    (sorted : c.Sorts description) (name : String) :
    c.options.get? name = description.option? name := by
  ext value
  rw [OrderedMap.get?_eq_some_iff, sorted.options, Description.ownOptions, Description.own,
    List.mem_filterMap]
  constructor
  · rintro ⟨⟨other, member⟩, listed, picked⟩
    split at picked
    · cases picked
    · next unreserved =>
      cases member <;> simp [Member.option?] at picked
      obtain ⟨rfl, rfl⟩ := picked
      rw [Description.option?, (description.members.get?_eq_some_iff _ _).2 listed]
      exact if_neg unreserved
  · intro found
    unfold Description.option? at found
    split at found
    · next value' declared =>
      split at found
      · cases found
      · next unreserved =>
        cases found
        exact ⟨_, (description.members.get?_eq_some_iff _ _).1 declared, if_neg unreserved⟩
    · cases found

namespace Options

variable {table : String}

private theorem keyColumns_ok {items : List Json} {columns : List String}
    (read : items.mapM (keyColumn table) = .ok columns) : items = columns.map .string := by
  induction items generalizing columns with
  | nil =>
    cases read
    rfl
  | cons item rest ih =>
    rw [List.mapM_cons] at read
    obtain ⟨column, first, read⟩ := bind_eq_ok_iff.1 read
    obtain ⟨others, later, read⟩ := bind_eq_ok_iff.1 read
    cases read
    cases item <;> cases first
    rw [List.map_cons, ih later]

/-- An explicit key is one column under its name, or a list of names. -/
private theorem readPrimaryKey_ok {value : Json} {columns : Option (List String)}
    (read : readPrimaryKey table (some value) = .ok columns) (given : value ≠ .null) :
    ∃ key, columns = some key ∧
      ((∃ column, value = .string column ∧ key = [column]) ∨
        value = .array (key.map .string) ∧ key ≠ []) := by
  unfold readPrimaryKey at read
  split at read
  · next absent => cases absent
  · next null => exact absurd (Option.some.inj null) given
  · next column single =>
    cases read
    exact ⟨[column], rfl, Or.inl ⟨column, Option.some.inj single, rfl⟩⟩
  · next first rest several =>
    obtain ⟨key, listed, same⟩ := bind_eq_ok_iff.1 read
    cases same
    have named := keyColumns_ok listed
    refine ⟨key, rfl, Or.inr ⟨named ▸ Option.some.inj several, ?_⟩⟩
    rintro rfl
    cases named
  · cases read

/-- A stored name is read from a string, and from nothing else. -/
private theorem readStoredName_ok {value : Option Json} {name : Option String}
    (read : readStoredName table value = .ok name) : name = value.bind Json.asString? := by
  unfold readStoredName at read
  split at read <;> cases read <;> rfl

end Options

/-- The name a table is to be stored under: with a prefix, unless that is empty, before its logical
name, or else under the name that is declared for it, or else under its logical name. -/
def CompileOptions.storedName (options : CompileOptions κ) (description : Description κ) : String :=
  if options.tablePrefix.getD "" ≠ "" then
    options.tablePrefix.getD "" ++ options.tableName description
  else
    ((description.option? storedNameOption).bind Json.asString?).getD (options.tableName description)

namespace CompileOptions

variable {options : CompileOptions κ} {description : Description κ} {c : Classification κ}
  {mixinFields : List FieldDefinition} {blueprint : Blueprint κ}

private theorem physicalName_chosen (tablePrefix : Option String) (name : String)
    (given : Option String) :
    (chooseStoredName tablePrefix name given).getD name =
      if tablePrefix.getD "" ≠ "" then tablePrefix.getD "" ++ name else given.getD name := by
  cases tablePrefix with
  | none => simp [chooseStoredName]
  | some text => by_cases empty : text = "" <;> simp [chooseStoredName, prefixedName, empty]

/-- What a definition takes from the declared options. -/
theorem blueprint_options (sorted : c.Sorts description)
    (drawn : options.blueprint (options.tableName description) c mixinFields = .ok blueprint) :
    blueprint.definition.options.entries = description.ownOptions.filter (fun declared =>
        declared.1 ≠ primaryKeyOption ∧ declared.1 ≠ storedNameOption) ∧
      blueprint.definition.physicalName = options.storedName description ∧
      ∀ value, description.option? primaryKeyOption = some value → value ≠ .null →
        ∃ key, blueprint.definition.primaryKey = some key ∧
          ((∃ column, value = .string column ∧ key = [column]) ∨
            value = .array (key.map .string) ∧ key ≠ []) := by
  obtain ⟨explicitKey, explicitName, _, key, stored, -, definition, -⟩ := blueprint_ok drawn
  rw [sorted.option?] at key
  rw [OrderedMap.get?_erase, if_neg (by decide), sorted.option?] at stored
  rw [definition]
  refine ⟨?_, ?_, fun value declared given => ?_⟩
  · simp only [OrderedMap.erase, Entries.erase, sorted.options, List.filter_filter]
    refine List.filter_congr fun declared _ => ?_
    simp [Bool.and_comm]
  · change (chooseStoredName _ _ _).getD _ = _
    rw [physicalName_chosen, storedName, Options.readStoredName_ok stored]
  · rw [declared] at key
    obtain ⟨columns, rfl, shape⟩ := Options.readPrimaryKey_ok key given
    exact ⟨columns, rfl, shape⟩

end CompileOptions

/-! ## The granted definition -/

section Compile

variable {callbacks : Callbacks κ ε} {database : String} {cache : Nat}
  {options : CompileOptions κ} {description : Description κ} {world : World κ ε}

/-- Once the layer has granted a definition, the compilation takes its steps with the new handle and
ends as these end. -/
theorem draft_of_granted {definition : TableDefinition} {handle : Option Handle}
    {found : World κ ε}
    (granted : ⟨.define definition, handle, found, none⟩ ∈
      compileRecord callbacks database cache options description world) :
    ∃ blueprint, draft database cache options description world = (.ok blueprint, found) ∧
      blueprint.definition = definition ∧
      ∃ made, (defineTable database definition found).1 = .ok made ∧
        let finished := blueprint.steps.forM (FinishingStep.perform callbacks description.name made)
          ((defineTable database definition found).2.hold made)
        compile callbacks database cache options description world =
          (finished.1.map fun _ => made, finished.2.release found) := by
  have goes := compile_goes callbacks database cache options description world
  generalize compile callbacks database cache options description world = outcome,
    compileRecord callbacks database cache options description world = record at granted goes
  cases goes with
  | undrafted => cases granted
  | refused => cases List.mem_singleton.1 granted
  | @opened blueprint drafted finished after handle ran asked made steps =>
    rcases List.mem_cons.1 granted with same | later
    · cases same
      obtain ⟨accepted, opened⟩ := defineTable_opens asked
      refine ⟨blueprint, ran, rfl, handle, made ▸ accepted, ?_⟩
      rw [made, opened, ← made, steps]
    · obtain ⟨step, -, finishing⟩ := Collaborators.exchanges_request _ handle later
      cases finishing

theorem defineTable_registered {definition : TableDefinition} {made : Handle}
    (asked : (defineTable database definition world).1 = .ok made) :
    made.definition = definition ∧
      ((defineTable database definition world).2.database database).tables.get? definition.name =
        some made := by
  rw [defineTable] at asked ⊢
  dsimp only at asked ⊢
  rw [World.database_setDatabase, Function.update_self]
  have accepted := Database.defineTable_isOk_iff.1 ⟨made, asked⟩
  rw [Database.defineTable_accepted _ accepted] at asked ⊢
  cases asked
  exact ⟨rfl, OrderedMap.get?_insert_self ..⟩

/-- A compilation that succeeds had its definition granted. -/
theorem granted_of_compiled {compiled : Handle}
    (went : (compile callbacks database cache options description world).1 = .ok compiled) :
    ∃ found, ⟨.define compiled.definition, none, found, none⟩ ∈
      compileRecord callbacks database cache options description world := by
  have goes := compile_goes callbacks database cache options description world
  generalize compile callbacks database cache options description world = outcome,
    compileRecord callbacks database cache options description world = record at went goes ⊢
  cases goes with
  | undrafted | refused => cases went
  | @opened blueprint drafted finished after handle ran asked made steps =>
    have own : handle.definition = blueprint.definition := made ▸ rfl
    cases finished <;> cases went
    exact ⟨drafted, own ▸ List.mem_cons_self⟩

/-- A compiled table is stored under the name that it is to have. -/
theorem stored_of_compiled {compiled : Handle}
    (went : (compile callbacks database cache options description world).1 = .ok compiled) :
    compiled.definition.physicalName = options.storedName description := by
  obtain ⟨found, granted⟩ := granted_of_compiled went
  obtain ⟨blueprint, ran, same, -⟩ := draft_of_granted granted
  obtain ⟨c, mixinFields, sorted, -, drawn⟩ := draft_ok ran
  obtain ⟨-, stored, -⟩ :=
    CompileOptions.blueprint_options (Description.classify_sorted sorted) drawn
  exact same ▸ stored

/-- Once the layer has granted a definition, it is registered under the logical name. The compilation
goes on from there with the new handle, which it gives if it succeeds, and the handle is still filed
when it ends, unless a callback files another one.

The fields are made by the members of the description in declaration order, at that moment, and then
by the members of the mixins in depth-first order, at that moment or when they were resolved before,
whatever is cached. The options are the declared ones in their order, apart from the two that are
meant for the compiler: these decide on the stored name, where a prefix wins, and on the key. -/
theorem compile_defines {catalogue : Catalogue κ} {calls : List (CacheCall κ)}
    (due : ∀ database lookup fieldSources signature,
      .resolve database lookup fieldSources signature ∈ calls → catalogue.Lists signature)
    (reached : world.cache cache = SignatureCache.afterCalls {} calls)
    (listed : ∀ mixin ∈ description.mixins, catalogue.Lists mixin)
    {definition : TableDefinition} {handle : Option Handle} {found : World κ ε}
    (granted : ⟨.define definition, handle, found, none⟩ ∈
      compileRecord callbacks database cache options description world) :
    let lookup := (world.database database).lookup
    definition.name = options.tableName description ∧
    (∃ own nested, definition.fields = own ++ nested ∧
      List.Forall₂ (Makes (· = lookup)) description.ownFieldMembers own ∧
      List.Forall₂ (Makes fun other => other = lookup ∨ LookedUp calls database other)
        (mixinFieldMembers description.mixins) nested) ∧
    definition.options.entries = description.ownOptions.filter (fun declared =>
      declared.1 ≠ primaryKeyOption ∧ declared.1 ≠ storedNameOption) ∧
    definition.physicalName = options.storedName description ∧
    (∀ value, description.option? primaryKeyOption = some value → value ≠ .null →
      ∃ key, definition.primaryKey = some key ∧
        ((∃ column, value = .string column ∧ key = [column]) ∨
          value = .array (key.map .string) ∧ key ≠ [])) ∧
    ∃ made, (defineTable database definition found).1 = .ok made ∧ made.definition = definition ∧
      let registered := (defineTable database definition found).2
      let finished := (options.attachments description ++ options.calls description).forM
        (FinishingStep.perform callbacks description.name made) (registered.hold made)
      let ended := compile callbacks database cache options description world
      (registered.database database).tables.get? definition.name = some made ∧
      ended = (finished.1.map fun _ => made, finished.2.release found) ∧
      (∀ compiled, ended.1 = .ok compiled → compiled = made) ∧
      (callbacks.KeepTables database (fun tables => tables.get? definition.name = some made) →
        (ended.2.database database).tables.get? definition.name = some made) := by
  intro lookup
  obtain ⟨blueprint, ran, rfl, made, asked, goes⟩ := draft_of_granted granted
  obtain ⟨c, mixinFields, sorted, resolved, drawn⟩ := draft_ok ran
  obtain ⟨_, _, _, -, -, -, definition, -⟩ := CompileOptions.blueprint_ok drawn
  obtain ⟨rest, stored, key⟩ :=
    CompileOptions.blueprint_options (Description.classify_sorted sorted) drawn
  obtain ⟨own, registered⟩ := defineTable_registered asked
  let seen (name : String) (other : TableLookup) : Prop :=
    name = database ∧ other = lookup ∨ LookedUp calls name other
  have faithful : Faithful catalogue seen (world.cache cache) := by
    rw [reached]
    exact Faithful.empty.afterCalls fun database lookup fieldSources signature asked =>
      ⟨due _ _ _ _ asked, Or.inr ⟨fieldSources, signature, asked⟩⟩
  have nested := (resolveMixins_faithful (Or.inl ⟨rfl, rfl⟩ : seen database lookup) listed
    ⟨world.cache cache, (world.database database).fieldSourceCount⟩ faithful).made _ resolved
  refine ⟨by rw [definition], ⟨c.fields, mixinFields, by rw [definition], ?_, ?_⟩, rest, stored,
    key, made, asked, own, registered, ?_, fun compiled went => ?_, fun kept => ?_⟩
  · exact Description.classify_makes sorted
  · exact nested.imp fun _ _ makes => makes.mono fun _ was => was.imp_left And.right
  · obtain ⟨steps, -⟩ :=
      CompileOptions.blueprint_steps (Description.classify_sorted sorted) drawn
    rwa [steps] at goes
  · rw [goes] at went
    obtain ⟨_, -, same⟩ := map_eq_ok_iff.1 went
    exact same.symm
  · rw [goes]
    exact forM_keeps (P := fun now : World κ ε =>
        (now.database database).tables.get? blueprint.definition.name = some made)
      (fun step _ => step.perform_tables kept description.name made) registered

end Compile

namespace Archive

/-- A table with a mixin, a key, an option for the layer and a stored name of its own. -/
def notes : Description Unit :=
  ⟨4, "notes", .ofList [("text", .field (.ofType "string")), ("engine", .option (.string "log")),
    (primaryKeyOption, .option (.string "text")), ("__comment", .option (.string "reserved")),
    (storedNameOption, .option (.string "old_notes"))], [SharedMixin.book]⟩

/-- The mixin is cached from a time when there were users to be looked up. There are none now. -/
def world : World Unit Unit where
  caches := .ofList [(0, SignatureCache.afterCalls {} SharedMixin.calls)]
  application := ()

/-- The empty prefix counts for nothing. -/
def unprefixed : CompileOptions Unit := { tablePrefix := some "" }

theorem compile_defines_notes :
    ∃ handle, (compile (.refused Unit Unit) "main" 0 unprefixed notes world).1 = .ok handle ∧
      handle.definition.fieldNames = ["text", "owner"] ∧
      handle.definition.options.entries = [("engine", .string "log")] ∧
      handle.definition.physicalName = "old_notes" ∧
      handle.definition.primaryKey = some ["text"] ∧
      ((compile (.refused Unit Unit) "main" 0 unprefixed notes world).2.database "main").tables.get?
        "notes" = some handle := by
  obtain ⟨handle, compiled⟩ := refusalOf_eq_none_iff.1
    (by decide +kernel : refusalOf (compile (.refused Unit Unit) "main" 0 unprefixed notes world).1 =
      none)
  obtain ⟨found, granted⟩ := granted_of_compiled compiled
  obtain ⟨named, ⟨own, nested, fields, made, mixed⟩, rest, stored, key, _, -, -, -, -, same, filed⟩ :=
    compile_defines SharedMixin.library_admits.listed rfl (fun mixin isMixin => by
      rw [List.mem_singleton.1 isMixin]
      simp [SharedMixin.library]) granted
  cases same handle compiled
  refine ⟨handle, compiled, ?_, rest, stored, ?_, ?_⟩
  · rw [TableDefinition.fieldNames, fields, List.map_append, Makes.names made, Makes.names mixed]
    rfl
  · obtain ⟨columns, same, ⟨column, single, rfl⟩ | ⟨several, -⟩⟩ := key _ rfl (by simp)
    · cases single
      exact same
    · cases several
  · have logical : unprefixed.tableName notes = "notes" := rfl
    rw [named, logical] at filed
    exact filed ⟨fun _ _ _ _ => id, fun _ _ _ _ => id, fun _ _ _ _ => id, fun _ _ _ _ => id⟩

end Archive
end SchemaCompiler
