import SchemaCompiler.Proofs.CompiledDefinitions

/-! Which tables are given a key on `id`. The rule speaks of the columns of a table
(`automaticKey`). What decides is noted while a description's own members are sorted, and exactly
so (`Classification.Notes`), but the columns of its mixins are appended later and noted by nobody.
So the key is the one that the rule gives for the own columns alone, and `automatic_key_exact` says
for which mixins that is the key of the table. -/
namespace SchemaCompiler

variable {κ ε : Type}

/-! ## The rule -/

/-- The stored columns among fields. -/
def storedColumns (fields : List FieldDefinition) : List PlainField :=
  fields.filterMap FieldDefinition.plain?

private theorem storedColumns_append (own nested : List FieldDefinition) :
    storedColumns (own ++ nested) = storedColumns own ++ storedColumns nested :=
  List.filterMap_append

section Rule

variable (columns : List PlainField)

/-- Whether a column is named like the layer's own key. -/
def NamesId : Prop := ∃ column ∈ columns, column.name = idColumn

/-- Whether a column is typed as the layer's own key. -/
def TypesId : Prop := ∃ column ∈ columns, column.typeArgs.head? = some idType

instance : Decidable (NamesId columns) :=
  inferInstanceAs (Decidable (∃ column ∈ columns, column.name = idColumn))

instance : Decidable (TypesId columns) :=
  inferInstanceAs (Decidable (∃ column ∈ columns, column.typeArgs.head? = some idType))

/-- The key that is made up for columns: `id`, if there is a column of that name and the layer's own
key is not among them. -/
def automaticKey : Option (List String) :=
  if NamesId columns ∧ ¬TypesId columns then some [idColumn] else none

end Rule

private theorem namesId_append {own nested : List PlainField} :
    NamesId (own ++ nested) ↔ NamesId own ∨ NamesId nested := by
  simp only [NamesId, List.mem_append, or_and_right, exists_or]

private theorem typesId_append {own nested : List PlainField} :
    TypesId (own ++ nested) ↔ TypesId own ∨ TypesId nested := by
  simp only [TypesId, List.mem_append, or_and_right, exists_or]

private theorem automaticKey_eq_iff {a b : List PlainField} :
    automaticKey a = automaticKey b ↔
      (NamesId a ∧ ¬TypesId a ↔ NamesId b ∧ ¬TypesId b) := by
  unfold automaticKey
  split <;> split <;> simp only [reduceCtorEq, false_iff, true_iff] <;> tauto

/-- More columns leave the key as it is unless they change what decides on it. -/
private theorem automaticKey_append_iff {own nested : List PlainField}
    (apart : ¬(NamesId own ∧ NamesId nested)) :
    automaticKey own = automaticKey (own ++ nested) ↔
      TypesId own ∨ (NamesId own → ¬TypesId nested) ∧ (NamesId nested → TypesId nested) := by
  rw [automaticKey_eq_iff, namesId_append, typesId_append]
  by_cases named : NamesId own
  · have others : ¬NamesId nested := fun also => apart ⟨named, also⟩
    simp [named, others]
    tauto
  · simp [named]
    tauto

/-! ## What sorting notes -/

namespace Classification

variable {lookup : TableLookup} {c after : Classification κ} {declared : String × Member κ}

/-- Whether what a classification has noted is what its columns say. -/
structure Notes (c : Classification κ) : Prop where
  name : c.hasIdName = true ↔ NamesId (storedColumns c.fields)
  type : c.hasIdType = true ↔ TypesId (storedColumns c.fields)

theorem Placed.notes (placed : Placed lookup c declared after) (notes : c.Notes) : after.Notes := by
  obtain ⟨name, type⟩ := notes
  cases placed with
  | @field _ field validators unreserved made =>
    constructor
    · dsimp only
      rw [storedColumns_append, namesId_append, ← name]
      simp [storedColumns, FieldDefinition.plain?, NamesId]
    · dsimp only
      rw [storedColumns_append, typesId_append, ← type]
      simp [storedColumns, FieldDefinition.plain?, TypesId, Field.hasIdType, Field.type?]
  | virtual | method =>
    constructor
    · rwa [storedColumns_append, namesId_append, or_iff_left (by simp [storedColumns,
        FieldDefinition.plain?, NamesId])]
    · rwa [storedColumns_append, typesId_append, or_iff_left (by simp [storedColumns,
        FieldDefinition.plain?, TypesId])]
  | _ => exact ⟨name, type⟩

/-- A table that gets no explicit key gets the one that its own columns call for. -/
theorem Notes.key (notes : c.Notes) :
    choosePrimaryKey c.hasIdName c.hasIdType true none = automaticKey (storedColumns c.fields) := by
  unfold choosePrimaryKey automaticKey
  simp only [← notes.name, ← notes.type, Bool.true_and, Bool.and_eq_true, Bool.not_eq_true']
  simp

end Classification

theorem Description.classify_notes {description : Description κ} {table : String}
    {lookup : TableLookup} {c : Classification κ}
    (sorted : description.classify table lookup = .ok c) : c.Notes :=
  Classification.foldlM_keeps (fun _ _ _ placed notes => placed.notes notes) sorted
    ⟨by simp [storedColumns, NamesId], by simp [storedColumns, TypesId]⟩

/-! ## The key of a compiled table -/

/-- Columns of different fields cannot both be named `id`. -/
private theorem apart_of_distinct {own nested : List FieldDefinition}
    (distinct : ((own ++ nested).map FieldDefinition.name).Nodup) :
    ¬(NamesId (storedColumns own) ∧ NamesId (storedColumns nested)) := by
  have listed {fields : List FieldDefinition} (named : NamesId (storedColumns fields)) :
      idColumn ∈ fields.map FieldDefinition.name := by
    obtain ⟨column, isColumn, same⟩ := named
    obtain ⟨field, isField, stored⟩ := List.mem_filterMap.1 isColumn
    cases field <;> cases stored
    exact List.mem_map.2 ⟨_, isField, same⟩
  rw [List.map_append] at distinct
  exact fun ⟨here, there⟩ =>
    (List.nodup_append.1 distinct).2.2 _ (listed here) _ (listed there) rfl

private theorem readPrimaryKey_unset {table : String} {value : Option Json}
    {key : Option (List String)} (unset : ∀ given, value = some given → given = .null)
    (read : Options.readPrimaryKey table value = .ok key) : key = none := by
  cases value with
  | none =>
    cases read
    rfl
  | some given =>
    obtain rfl := unset given rfl
    cases read
    rfl

section Compile

variable {callbacks : Callbacks κ ε} {database : String} {cache : Nat}
  {options : CompileOptions κ} {description : Description κ} {world : World κ ε} {handle : Handle}

/-- A compiled table without an explicit key, where keys on `id` are to be made up. Its fields are
made by the members of the description, and then come those that its mixins resolve to, however
they are nested and whatever of them is cached. Its key is the one that the rule gives for the
columns of the description alone. That is the key which the rule gives for all its columns exactly
in these cases: the description declares a column typed `id`, or else the columns of the mixins
neither take a key on a declared `id` away, by one that is typed `id`, nor call for one themselves,
by one named `id` with none typed so. -/
theorem automatic_key_exact
    (went : (compile callbacks database cache options description world).1 = .ok handle)
    (asked : options.autoKey = true)
    (unset : ∀ value, description.option? primaryKeyOption = some value → value = .null) :
    ∃ own nested, handle.definition.fields = own ++ nested ∧
      List.Forall₂ (Makes (· = (world.database database).lookup)) description.ownFieldMembers own ∧
      (resolveMixins database (world.database database).lookup description.mixins
        ⟨world.cache cache, (world.database database).fieldSourceCount⟩).1 = .ok nested ∧
      handle.definition.primaryKey = automaticKey (storedColumns own) ∧
      (handle.definition.primaryKey = automaticKey handle.definition.plainFields ↔
        TypesId (storedColumns own) ∨
          (NamesId (storedColumns own) → ¬TypesId (storedColumns nested)) ∧
            (NamesId (storedColumns nested) → TypesId (storedColumns nested))) := by
  obtain ⟨found, granted⟩ := granted_of_compiled went
  obtain ⟨blueprint, ran, same, made, accepted, -⟩ := draft_of_granted granted
  obtain ⟨c, nested, sorted, resolved, drawn⟩ := draft_ok ran
  obtain ⟨explicitKey, _, _, read, -, -, definition, -⟩ := CompileOptions.blueprint_ok drawn
  rw [(Description.classify_sorted sorted).option?] at read
  obtain rfl := readPrimaryKey_unset unset read
  rw [same] at definition
  have fields : handle.definition.fields = c.fields ++ nested := by rw [definition]
  have key : handle.definition.primaryKey = automaticKey (storedColumns c.fields) := by
    rw [definition, ← (Description.classify_notes sorted).key, ← asked]
  have faultless := (Database.refusal?_eq_none_iff.1
    (Database.defineTable_isOk_iff.1 ⟨made, accepted⟩)).1
  have distinct := (TableDefinition.consistent_of_faultless faultless).distinct
  rw [TableDefinition.fieldNames, fields] at distinct
  refine ⟨c.fields, nested, fields, Description.classify_makes sorted, resolved, key, ?_⟩
  have columns : handle.definition.plainFields =
      storedColumns c.fields ++ storedColumns nested := by
    rw [TableDefinition.plainFields, fields, ← storedColumns_append, storedColumns]
  rw [key, columns]
  exact automaticKey_append_iff (apart_of_distinct distinct)

end Compile

namespace Numbered

/-- A signature with one column of a type. -/
def column (identity : Nat) (name type : String) : Description Unit :=
  ⟨identity, name, .ofList [(name, .field (.ofType type))], []⟩

/-- A table with a column of its own and one that comes from a mixin of a mixin. -/
def table (name : String) (own : Description Unit) (inner : Description Unit) : Description Unit :=
  ⟨10, name, own.members, [⟨11, "outer", .empty, [inner]⟩]⟩

/-- The `id` comes from the mixin. -/
def notes : Description Unit := table "notes" (column 1 "text" "string") (column 2 "id" "integer")

/-- The mixin has the layer's own key. -/
def drafts : Description Unit := table "drafts" (column 1 "id" "integer") (column 2 "serial" "id")

def world : World Unit Unit := { application := () }

def asking : CompileOptions Unit := { autoKey := true }

/-- What the compilation of a table in an empty database comes to. -/
def compiled (description : Description Unit) : Except BuildError Handle :=
  (compile (.refused Unit Unit) "main" 0 asking description world).1

/-- The names, the key and the due key of a table, if it compiles. -/
def shown (description : Description Unit) :
    Option (List String × Option (List String) × Option (List String)) :=
  (compiled description).toOption.map fun handle =>
    (handle.definition.fieldNames, handle.definition.primaryKey,
      automaticKey handle.definition.plainFields)

/-- The first table has a column `id` and none typed so, but no key. The second has a column typed
`id`, and a key on another one. -/
theorem mixin_columns_overlooked :
    asking.autoKey = true ∧ notes.option? primaryKeyOption = none ∧
      shown notes = some (["text", "id"], none, some ["id"]) ∧
      drafts.option? primaryKeyOption = none ∧
      shown drafts = some (["id", "serial"], some ["id"], none) := by
  decide +kernel

theorem automatic_key_exact_drafts :
    ∃ handle, compiled drafts = .ok handle ∧ handle.definition.primaryKey = some ["id"] ∧
      handle.definition.primaryKey ≠ automaticKey handle.definition.plainFields := by
  obtain ⟨handle, went⟩ := refusalOf_eq_none_iff.1
    (by decide +kernel : refusalOf (compiled drafts) = none)
  have unset : drafts.option? primaryKeyOption = none := by decide +kernel
  obtain ⟨own, nested, -, made, resolved, key, lawful⟩ :=
    automatic_key_exact went rfl (by simp [unset])
  have typed : (resolveMixins "main" (world.database "main").lookup drafts.mixins
      ⟨world.cache 0, (world.database "main").fieldSourceCount⟩).1.toOption.map
        (fun fields => decide (TypesId (storedColumns fields))) = some true := by decide +kernel
  rw [resolved] at typed
  have members : drafts.ownFieldMembers = [("id", .field (.ofType "integer"))] := rfl
  rw [members] at made
  obtain _ | ⟨makes, rest⟩ := made
  cases rest
  cases makes with
  | stored due validators =>
    refine ⟨handle, went, key, fun same => ?_⟩
    rcases lawful.1 same with ownType | ⟨untyped, -⟩
    · exact absurd ownType (by simp [storedColumns, FieldDefinition.plain?, TypesId, Field.ofType,
        idType])
    · refine untyped ?_ (of_decide_eq_true (Option.some.inj typed))
      exact ⟨_, List.mem_cons_self, rfl⟩

end Numbered
end SchemaCompiler
