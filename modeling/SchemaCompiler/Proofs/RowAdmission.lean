import SchemaCompiler.Proofs.RowIds
import SchemaCompiler.Proofs.RowOrigins

/-! Which rows an insertion takes, and what it refuses the others for. The conditions are stated on
the fields of a definition, apart from the loops that check them: `Insertable` lists them all, and
`Refused` says of each in turn that it is the first that fails, and at which column, field or
validator. Every check is shown to decide its condition and to stop at the first failure. All but the
first look at the row with its defaults, which are its own columns and then those of `defaulted`
(`entries_withDefaults`). -/
namespace SchemaCompiler

open Effect

/-- The first element of a list that does not have a property. -/
def FirstWithout {α : Type} (p : α → Prop) (list : List α) (item : α) : Prop :=
  ∃ earlier later, list = earlier ++ item :: later ∧ (∀ other ∈ earlier, p other) ∧ ¬ p item

private theorem find?_eq_some_iff_firstWithout {α : Type} {p : α → Prop} {test : α → Bool}
    {list : List α} {item : α} (fails : ∀ a, test a = true ↔ ¬ p a) :
    list.find? test = some item ↔ FirstWithout p list item := by
  rw [List.find?_eq_some_iff_append]
  constructor
  · rintro ⟨failed, earlier, later, split, passed⟩
    refine ⟨earlier, later, split, fun other listed => ?_, (fails item).1 failed⟩
    have fine := passed other listed
    by_contra failed
    rw [(fails other).2 failed] at fine
    cases fine
  · rintro ⟨earlier, later, split, passed, failed⟩
    refine ⟨(fails item).2 failed, earlier, later, split, fun other listed => ?_⟩
    rw [Bool.not_eq_true', Bool.eq_false_iff, ne_eq, fails, not_not]
    exact passed other listed

/-- An integer that is no 64-bit word is no id. -/
private theorem Json.asUInt64?_eq_some_iff {value : Json} {id : UInt64} :
    value.asUInt64? = some id ↔ value = .ofUInt64 id := by
  constructor
  · intro read
    unfold asUInt64? at read
    split at read
    · next n =>
      split at read
      · next fits =>
        cases read
        obtain ⟨positive, small⟩ := fits
        have word : (UInt64.ofNat n.toNat).toNat = n.toNat :=
          UInt64.toNat_ofNat_of_lt' (by omega)
        rw [ofUInt64, word, Int.toNat_of_nonneg positive]
      · cases read
    · cases read
  · rintro rfl
    have small := id.toNat_lt_size
    have fits : (0 : Int) ≤ (id.toNat : Int) ∧ (id.toNat : Int) < (UInt64.size : Int) := by omega
    rw [ofUInt64, asUInt64?, if_pos fits, Int.toNat_natCast, UInt64.ofNat_toNat]

theorem Json.ofUInt64_inj {a b : UInt64} : ofUInt64 a = ofUInt64 b ↔ a = b := by
  rw [← asUInt64?_eq_some_iff, asUInt64?_eq_some_iff.2 rfl, Option.some.injEq]

private theorem lt_lastId_iff {id : UInt64} : id < lastId ↔ id.toNat + 1 < UInt64.size := by
  have last : lastId.toNat + 1 = UInt64.size := rfl
  rw [UInt64.lt_iff_toNat_lt]
  omega

/-- Whether a row has the value that a field may require of it. -/
def PlainField.GivenIn (field : PlainField) (row : Row) : Prop :=
  field.isRequired = true → ∃ value, row.get? field.name = some value ∧ value ≠ .null

namespace TableDefinition

/-! ## The conditions -/

/-- A row may have a column of this name. -/
def Names (definition : TableDefinition) (column : String) : Prop :=
  column = idColumn ∨ ∃ field, FieldDefinition.plain field ∈ definition.fields ∧ field.name = column

/-- The validators of a column accept the value, if the column has any. -/
def Accepts (definition : TableDefinition) (isRow : RowLookup) (entry : String × Json) : Prop :=
  ∀ field, FieldDefinition.plain field ∈ definition.fields → field.name = entry.1 →
    ∀ validator ∈ field.validators, validator.check isRow entry.2 = .ok ()

/-- A row may have all the columns of the values. -/
def ColumnsNamed (definition : TableDefinition) (values : Row) : Prop :=
  ∀ column ∈ values.keys, definition.Names column

/-- A row lacks no required value. -/
def RequiredGiven (definition : TableDefinition) (row : Row) : Prop :=
  ∀ field ∈ definition.plainFields, field.GivenIn row

/-- The validators accept all values of a row. -/
def ValuesAccepted (definition : TableDefinition) (isRow : RowLookup) (row : Row) : Prop :=
  ∀ entry ∈ row.entries, definition.Accepts isRow entry

/-- The columns that a row lacks and that have a default, in the order of the fields. -/
def defaulted (definition : TableDefinition) (values : Row) : List (String × Json) :=
  definition.plainFields.filterMap fun field =>
    if values.contains field.name then none else field.default?.map (field.name, ·)

/-- The value in the `id` column can key a row: it is an unsigned integer below the last one. -/
def CanKey (value : Json) : Prop := ∃ id : UInt64, value = .ofUInt64 id ∧ id < lastId

/-- What it takes of values to be stored as a row beside rows with certain keys. Apart from the first
condition it is asked of the row with its defaults. -/
structure Insertable (definition : TableDefinition) (isRow : RowLookup) (keys : List UInt64)
    (values : Row) : Prop where
  columns : definition.ColumnsNamed values
  required : definition.RequiredGiven (definition.withDefaults values)
  accepted : definition.ValuesAccepted isRow (definition.withDefaults values)
  id : ∀ value, (definition.withDefaults values).get? idColumn = some value → value ≠ .null →
    CanKey value
  free : ∀ id, (definition.withDefaults values).get? idColumn = some (.ofUInt64 id) → id ∉ keys

/-- What values are refused for that are no row to be stored: the first condition that they do not
meet, and the first column, field and validator where they do not. -/
inductive Refused (definition : TableDefinition) (isRow : RowLookup) (keys : List UInt64)
    (values : Row) : RowError → Prop where
  | column {column : String} (first : FirstWithout definition.Names values.keys column) :
      Refused definition isRow keys values (.unknownColumn definition.name column)
  | required {field : PlainField} (columns : definition.ColumnsNamed values)
      (first : FirstWithout (fun field => field.GivenIn (definition.withDefaults values))
        definition.plainFields field) :
      Refused definition isRow keys values
        (.validation definition.name field.name "required" "value is required")
  | validator {field : PlainField} {value : Json} {validator : Validator} {reason : String}
      (columns : definition.ColumnsNamed values)
      (required : definition.RequiredGiven (definition.withDefaults values))
      (first : FirstWithout (definition.Accepts isRow) (definition.withDefaults values).entries
        (field.name, value))
      (declared : FieldDefinition.plain field ∈ definition.fields)
      (judge : FirstWithout (fun validator => validator.check isRow value = .ok ()) field.validators
        validator)
      (refuses : validator.check isRow value = .error reason) :
      Refused definition isRow keys values
        (.validation definition.name field.name validator.name reason)
  | id {value : Json} (columns : definition.ColumnsNamed values)
      (required : definition.RequiredGiven (definition.withDefaults values))
      (accepted : definition.ValuesAccepted isRow (definition.withDefaults values))
      (given : (definition.withDefaults values).get? idColumn = some value) (present : value ≠ .null)
      (unusable : ¬ CanKey value) :
      Refused definition isRow keys values (.invalidId definition.name value.compact)
  | key {id : UInt64} (columns : definition.ColumnsNamed values)
      (required : definition.RequiredGiven (definition.withDefaults values))
      (accepted : definition.ValuesAccepted isRow (definition.withDefaults values))
      (given : (definition.withDefaults values).get? idColumn = some (.ofUInt64 id))
      (usable : id < lastId) (taken : id ∈ keys) :
      Refused definition isRow keys values (.duplicateKey definition.name id)

variable {definition : TableDefinition} {isRow : RowLookup} {keys : List UInt64}
  {values row : Row} {column reason : String} {value : Json} {refusal : RowError} {id : UInt64}
  {field : PlainField} {validator : Validator}

/-! ## Columns -/

private theorem names_iff (consistent : definition.Consistent) :
    definition.Names column ↔ column = idColumn ∨ definition.stores column = true := by
  unfold Names
  rw [stores_iff]
  refine or_congr_right ⟨?_, ?_⟩
  · rintro ⟨field, declared, rfl⟩
    exact ⟨field, field?_of_mem consistent declared⟩
  · rintro ⟨field, found⟩
    exact ⟨field, mem_of_field? found⟩

theorem checkColumns_passes_iff (consistent : definition.Consistent) :
    definition.checkColumns values = .ok () ↔ definition.ColumnsNamed values := by
  rw [checkColumns_ok_iff]
  exact forall₂_congr fun column _ => (names_iff consistent).symm

theorem checkColumns_error_iff (consistent : definition.Consistent) :
    definition.checkColumns values = .error refusal ↔
      ∃ column, FirstWithout definition.Names values.keys column ∧
        refusal = .unknownColumn definition.name column := by
  have first (column : String) :
      values.keys.find? (fun column => !(column == idColumn || definition.stores column)) =
        some column ↔ FirstWithout definition.Names values.keys column :=
    find?_eq_some_iff_firstWithout fun other => by simp [names_iff consistent]
  unfold checkColumns
  constructor
  · intro refused
    split at refused
    · next column found =>
      cases refused
      exact ⟨column, (first column).1 found, rfl⟩
    · cases refused
  · rintro ⟨column, missing, rfl⟩
    rw [(first column).2 missing]

/-! ## Required fields -/

private theorem lacks_iff :
    (field.isRequired && (row.valueAt field.name).isNull) = true ↔ ¬ field.GivenIn row := by
  unfold PlainField.GivenIn Row.valueAt
  rw [Bool.and_eq_true, Classical.not_imp]
  refine and_congr_right fun _ => ?_
  cases row.get? field.name with
  | none => simp [Json.isNull]
  | some value => cases value <;> simp [Json.isNull]

theorem checkRequired_passes_iff :
    definition.checkRequired row = .ok () ↔ definition.RequiredGiven row := by
  unfold checkRequired
  constructor
  · intro passed field listed
    split at passed
    · cases passed
    · next none =>
      by_contra lacking
      exact List.find?_eq_none.1 none field listed (lacks_iff.2 lacking)
  · intro given
    have none : (definition.plainFields.find? fun field =>
        field.isRequired && (row.valueAt field.name).isNull) = none :=
      List.find?_eq_none.2 fun field listed lacking => lacks_iff.1 lacking (given field listed)
    rw [none]

theorem checkRequired_error_iff :
    definition.checkRequired row = .error refusal ↔
      ∃ field, FirstWithout (fun field => field.GivenIn row) definition.plainFields field ∧
        refusal = .validation definition.name field.name "required" "value is required" := by
  have first (field : PlainField) :
      definition.plainFields.find? (fun field =>
        field.isRequired && (row.valueAt field.name).isNull) = some field ↔
          FirstWithout (fun field => field.GivenIn row) definition.plainFields field :=
    find?_eq_some_iff_firstWithout fun _ => lacks_iff
  unfold checkRequired
  constructor
  · intro refused
    split at refused
    · next field found =>
      cases refused
      exact ⟨field, (first field).1 found, rfl⟩
    · cases refused
  · rintro ⟨field, lacking, rfl⟩
    rw [(first field).2 lacking]

/-! ## Validators -/

private theorem plain_at_iff (consistent : definition.Consistent) :
    (definition.field? column).bind FieldDefinition.plain? = some field ↔
      FieldDefinition.plain field ∈ definition.fields ∧ field.name = column := by
  rw [Option.bind_eq_some_iff]
  constructor
  · rintro ⟨found, declared, same⟩
    cases found <;> cases same
    exact mem_of_field? declared
  · rintro ⟨declared, rfl⟩
    exact ⟨_, field?_of_mem consistent declared, rfl⟩

theorem validateValue_passes_iff (consistent : definition.Consistent) :
    definition.validateValue isRow column value = .ok () ↔
      definition.Accepts isRow (column, value) := by
  unfold validateValue Accepts
  cases found : (definition.field? column).bind FieldDefinition.plain? with
  | none =>
    refine iff_of_true rfl fun field declared named => ?_
    rw [(plain_at_iff consistent).2 ⟨declared, named⟩] at found
    cases found
  | some field =>
    obtain ⟨declared, named⟩ := (plain_at_iff consistent).1 found
    dsimp only
    rw [forM_eq_ok_iff]
    constructor
    · intro passed other declared' named' validator listed
      have same := (plain_at_iff consistent).2 ⟨declared', named'⟩
      rw [found] at same
      cases same
      have accepted := passed validator listed
      split at accepted
      · next good => exact good
      · cases accepted
    · intro accepts validator listed
      rw [accepts field declared named validator listed]

theorem validateValue_error_iff (consistent : definition.Consistent) :
    definition.validateValue isRow column value = .error refusal ↔
      ∃ field validator reason, FieldDefinition.plain field ∈ definition.fields ∧
        field.name = column ∧
        FirstWithout (fun validator => validator.check isRow value = .ok ()) field.validators
          validator ∧
        validator.check isRow value = .error reason ∧
        refusal = .validation definition.name column validator.name reason := by
  unfold validateValue
  cases found : (definition.field? column).bind FieldDefinition.plain? with
  | none =>
    constructor
    · rintro ⟨⟩
    · rintro ⟨field, -, -, declared, named, -⟩
      rw [(plain_at_iff consistent).2 ⟨declared, named⟩] at found
      cases found
  | some field =>
    obtain ⟨declared, named⟩ := (plain_at_iff consistent).1 found
    dsimp only
    rw [forM_eq_error_iff]
    constructor
    · rintro ⟨earlier, validator, later, split, passed, failed⟩
      cases verdict : validator.check isRow value with
      | ok =>
        rw [verdict] at failed
        cases failed
      | error reason =>
        rw [verdict] at failed
        cases failed
        refine ⟨field, validator, reason, declared, named, ⟨earlier, later, split, ?_, ?_⟩, verdict,
          rfl⟩
        · intro other listed
          have accepted := passed other listed
          split at accepted
          · next good => exact good
          · cases accepted
        · intro accepted
          rw [verdict] at accepted
          cases accepted
    · rintro ⟨other, validator, reason, declared', named', ⟨earlier, later, split, passed, -⟩, verdict,
        rfl⟩
      have same := (plain_at_iff consistent).2 ⟨declared', named'⟩
      rw [found] at same
      cases same
      refine ⟨earlier, validator, later, split, fun other listed => ?_, ?_⟩
      · rw [passed other listed]
      · rw [verdict]

theorem validate_passes_iff (consistent : definition.Consistent) :
    definition.validate isRow row = .ok () ↔ definition.ValuesAccepted isRow row := by
  unfold validate
  rw [forM_eq_ok_iff]
  exact forall₂_congr fun entry _ => validateValue_passes_iff consistent

theorem validate_error_iff (consistent : definition.Consistent) :
    definition.validate isRow row = .error refusal ↔
      ∃ field value validator reason,
        FirstWithout (definition.Accepts isRow) row.entries (field.name, value) ∧
        FieldDefinition.plain field ∈ definition.fields ∧
        FirstWithout (fun validator => validator.check isRow value = .ok ()) field.validators
          validator ∧
        validator.check isRow value = .error reason ∧
        refusal = .validation definition.name field.name validator.name reason := by
  unfold validate
  rw [forM_eq_error_iff]
  constructor
  · rintro ⟨earlier, ⟨column, value⟩, later, split, passed, failed⟩
    have refuses : ¬ definition.Accepts isRow (column, value) := by
      rw [← validateValue_passes_iff consistent, failed]
      rintro ⟨⟩
    obtain ⟨field, validator, reason, declared, rfl, judge, verdict, rfl⟩ :=
      (validateValue_error_iff consistent).1 failed
    exact ⟨field, value, validator, reason,
      ⟨earlier, later, split,
        fun other listed => (validateValue_passes_iff consistent).1 (passed other listed), refuses⟩,
      declared, judge, verdict, rfl⟩
  · rintro ⟨field, value, validator, reason, ⟨earlier, later, split, passed, -⟩, declared, judge,
      verdict, rfl⟩
    refine ⟨earlier, (field.name, value), later, split,
      fun other listed => (validateValue_passes_iff consistent).2 (passed other listed), ?_⟩
    exact (validateValue_error_iff consistent).2
      ⟨field, validator, reason, declared, rfl, judge, verdict, rfl⟩

/-! ## The id -/

private theorem canKey_iff :
    CanKey value ↔ ∃ id, value.asUInt64? = some id ∧ id.toNat + 1 < UInt64.size := by
  unfold CanKey
  exact exists_congr fun id => and_congr Json.asUInt64?_eq_some_iff.symm lt_lastId_iff

private theorem broughtId_of_missing
    (missing : ∀ value, row.get? idColumn = some value → value = .null) :
    definition.broughtId row = .ok none := by
  unfold broughtId Row.valueAt
  cases given : row.get? idColumn with
  | none => rfl
  | some value => rw [missing value given]; rfl

private theorem broughtId_of_given (given : row.get? idColumn = some value)
    (present : value ≠ .null) :
    definition.broughtId row =
      match value.asUInt64? with
      | some id =>
        if id.toNat + 1 < UInt64.size then .ok (some id)
        else .error (.invalidId definition.name value.compact)
      | none => .error (.invalidId definition.name value.compact) := by
  unfold broughtId Row.valueAt
  rw [given]
  cases value with
  | null => exact absurd rfl present
  | _ => rfl

theorem broughtId_some_iff :
    definition.broughtId row = .ok (some id) ↔
      row.get? idColumn = some (.ofUInt64 id) ∧ id < lastId := by
  constructor
  · intro read
    by_cases missing : ∀ value, row.get? idColumn = some value → value = .null
    · rw [broughtId_of_missing missing] at read
      cases read
    · simp only [not_forall] at missing
      obtain ⟨value, given, present⟩ := missing
      rw [broughtId_of_given given present] at read
      split at read
      · next found =>
        split at read
        · next fits =>
          cases read
          rw [Json.asUInt64?_eq_some_iff] at found
          exact ⟨found ▸ given, lt_lastId_iff.2 fits⟩
        · cases read
      · cases read
  · rintro ⟨given, fits⟩
    rw [broughtId_of_given given Json.noConfusion, Json.asUInt64?_eq_some_iff.2 rfl]
    exact if_pos (lt_lastId_iff.1 fits)

theorem broughtId_none_iff :
    definition.broughtId row = .ok none ↔ ∀ value, row.get? idColumn = some value → value = .null := by
  refine ⟨fun read value given => ?_, broughtId_of_missing⟩
  by_contra present
  rw [broughtId_of_given given present] at read
  split at read
  · split at read <;> cases read
  · cases read

theorem broughtId_error_iff :
    definition.broughtId row = .error refusal ↔
      ∃ value, row.get? idColumn = some value ∧ value ≠ .null ∧ ¬ CanKey value ∧
        refusal = .invalidId definition.name value.compact := by
  constructor
  · intro refused
    by_cases missing : ∀ value, row.get? idColumn = some value → value = .null
    · rw [broughtId_of_missing missing] at refused
      cases refused
    · simp only [not_forall] at missing
      obtain ⟨value, given, present⟩ := missing
      refine ⟨value, given, present, ?_⟩
      rw [canKey_iff]
      rw [broughtId_of_given given present] at refused
      split at refused
      · next id found =>
        split at refused
        · cases refused
        · next large =>
          cases refused
          refine ⟨?_, rfl⟩
          rintro ⟨other, same, fits⟩
          rw [found] at same
          cases same
          exact large fits
      · next none =>
        cases refused
        refine ⟨?_, rfl⟩
        rintro ⟨other, same, -⟩
        rw [none] at same
        cases same
  · rintro ⟨value, given, present, unusable, rfl⟩
    rw [canKey_iff] at unusable
    rw [broughtId_of_given given present]
    split
    · next id found => exact if_neg fun fits => unusable ⟨id, found, fits⟩
    · rfl

/-! ## Defaults -/

/-- The stored fields of a consistent definition have different names. -/
private theorem plainFields_distinct (consistent : definition.Consistent) :
    (definition.plainFields.map PlainField.name).Nodup := by
  have distinct := consistent.distinct
  unfold fieldNames at distinct
  unfold plainFields
  refine List.Nodup.sublist ?_ distinct
  generalize definition.fields = fields
  induction fields with
  | nil => exact .slnil
  | cons field rest ih =>
    cases field with
    | plain field => exact ih.cons_cons field.name
    | virtual name getter => exact ih.cons name
    | method name call => exact ih.cons name

/-- The row with its defaults has its own columns first, as they are, nulls included. Then come the
defaults of fields it has no column for. -/
theorem entries_withDefaults (consistent : definition.Consistent) :
    (definition.withDefaults values).entries = values.entries ++ definition.defaulted values := by
  have distinct := plainFields_distinct consistent
  unfold withDefaults defaulted
  generalize definition.plainFields = fields at distinct ⊢
  induction fields generalizing values with
  | nil => exact (List.append_nil _).symm
  | cons field rest ih =>
    obtain ⟨fresh, distinct⟩ := List.nodup_cons.1 distinct
    rw [List.foldl_cons, ih distinct, List.filterMap_cons]
    by_cases present : values.contains field.name = true
    · cases field.default? <;> simp [present]
    · cases field.default? with
      | none => simp
      | some value =>
        have absent : field.name ∉ values.keys := by
          rwa [← OrderedMap.contains_iff_mem_keys]
        -- Filling in one field changes nothing for those that come after it.
        have others : ∀ later ∈ rest, (values.insert field.name value).contains later.name =
            values.contains later.name := by
          intro later listed
          have other : field.name ≠ later.name := fun same =>
            fresh (List.mem_map.2 ⟨later, listed, same.symm⟩)
          rw [OrderedMap.contains, OrderedMap.get?_insert, if_neg other, OrderedMap.contains]
        simp only [present, Bool.false_eq_true, ↓reduceIte, Option.map_some,
          OrderedMap.entries_insert_of_not_mem _ _ absent, List.append_assoc, List.singleton_append]
        congr 2
        exact List.filterMap_congr fun later listed => by rw [others later listed]

/-- Defaults leave the columns that are there, also those that are null. -/
theorem get?_withDefaults (consistent : definition.Consistent) (given : values.get? column = some value) :
    (definition.withDefaults values).get? column = some value := by
  rw [OrderedMap.get?_eq_some_iff] at given ⊢
  rw [entries_withDefaults consistent]
  exact List.mem_append_left _ given

/-! ## The checks in turn -/

theorem admitInsertion_error_iff :
    definition.admitInsertion isRow values = .error refusal ↔
      let filled := definition.withDefaults values
      definition.checkColumns values = .error refusal ∨
      definition.checkColumns values = .ok () ∧
        (definition.checkRequired filled = .error refusal ∨
        definition.checkRequired filled = .ok () ∧
          (definition.validate isRow filled = .error refusal ∨
          definition.validate isRow filled = .ok () ∧
            definition.broughtId filled = .error refusal)) := by
  simp only [admitInsertion, bind_eq_error_iff]
  constructor
  · rintro (columns | ⟨_, columns, required | ⟨_, required, valid | ⟨_, valid, id | ⟨_, _, ⟨⟩⟩⟩⟩⟩)
    · exact Or.inl columns
    · exact Or.inr ⟨columns, Or.inl required⟩
    · exact Or.inr ⟨columns, Or.inr ⟨required, Or.inl valid⟩⟩
    · exact Or.inr ⟨columns, Or.inr ⟨required, Or.inr ⟨valid, id⟩⟩⟩
  · rintro (columns | ⟨columns, required | ⟨required, valid | ⟨valid, id⟩⟩⟩)
    · exact Or.inl columns
    · exact Or.inr ⟨(), columns, Or.inl required⟩
    · exact Or.inr ⟨(), columns, Or.inr ⟨(), required, Or.inl valid⟩⟩
    · exact Or.inr ⟨(), columns, Or.inr ⟨(), required, Or.inr ⟨(), valid, Or.inl id⟩⟩⟩

/-- Values that are refused are no row to be stored. -/
theorem Refused.not_insertable (refused : definition.Refused isRow keys values refusal) :
    ¬ definition.Insertable isRow keys values := by
  intro insertable
  cases refused with
  | column first =>
    obtain ⟨earlier, later, split, -, failed⟩ := first
    exact failed (insertable.columns _ (by simp [split]))
  | required _ first =>
    obtain ⟨earlier, later, split, -, failed⟩ := first
    exact failed (insertable.required _ (by simp [split]))
  | validator _ _ first =>
    obtain ⟨earlier, later, split, -, failed⟩ := first
    exact failed (insertable.accepted _ (by simp [split]))
  | id _ _ _ given present unusable => exact unusable (insertable.id _ given present)
  | key _ _ _ given _ taken => exact insertable.free _ given taken

end TableDefinition
end SchemaCompiler
