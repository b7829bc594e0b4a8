import Mathlib.Data.List.Basic
import SchemaCompiler.Proofs.EffectRuns
import SchemaCompiler.Signature

/-! The fields of a signature without a cache. `Description.expand` expands every mixin anew, each
time it is listed, and `Description.declared` reads the same fields off the declarations alone:
the signature's own, then those of each mixin in turn. The two differ only in the validators, which
depend on what the database holds when they are made (`expand_declared`). -/
namespace SchemaCompiler

variable {κ : Type}

/-! ## Declared fields -/

/-- A field without its validators. -/
def FieldDefinition.bare : FieldDefinition → FieldDefinition
  | .plain column => .plain { column with validators := [] }
  | .virtual name getter => .virtual name getter
  | .method name call => .method name call

@[simp] theorem FieldDefinition.name_bare (field : FieldDefinition) : field.bare.name = field.name := by
  cases field <;> rfl

/-- The field that a member stands for, if it is one. -/
def Member.bareField? (name : String) : Member κ → Option FieldDefinition
  | .field stored => some (.plain { name, typeArgs := stored.typeArgs, options := stored.options })
  | .virtual getter => some (.virtual name getter)
  | .method call => some (.method name call)
  | .hook _ | .tableMethod _ | .index _ | .option _ => none

/-- The field of a declared member. Reserved names carry none. -/
def declaredField? (declared : String × Member κ) : Option FieldDefinition :=
  if isReservedName declared.1 then none else declared.2.bareField? declared.1

/-- A description's own fields in declaration order. -/
def Description.ownFields (description : Description κ) : List FieldDefinition :=
  description.members.entries.filterMap declaredField?

mutual

/-- A description's own fields, then those of its mixins, one mixin after the other. -/
def Description.declared : Description κ → List FieldDefinition
  | ⟨identity, name, members, mixins⟩ =>
    Description.ownFields ⟨identity, name, members, mixins⟩ ++ declaredByMixins mixins

def declaredByMixins : List (Description κ) → List FieldDefinition
  | [] => []
  | mixin :: rest => mixin.declared ++ declaredByMixins rest

end

private theorem Description.declared_eq (description : Description κ) :
    description.declared = description.ownFields ++ declaredByMixins description.mixins := by
  obtain ⟨identity, name, members, mixins⟩ := description
  rw [Description.declared]

/-! ## Induction over mixins -/

theorem Description.sizeOf_mixin {description mixin : Description κ}
    (listed : mixin ∈ description.mixins) : sizeOf mixin < sizeOf description := by
  obtain ⟨identity, name, members, mixins⟩ := description
  have inside : sizeOf mixin < sizeOf mixins := List.sizeOf_lt_of_mem listed
  simp only [Description.mk.sizeOf_spec]
  omega

/-- What holds of a description as soon as it holds of its mixins holds of every description. -/
@[elab_as_elim]
theorem Description.mixin_induction {motive : Description κ → Prop}
    (step : ∀ description, (∀ mixin ∈ description.mixins, motive mixin) → motive description)
    (description : Description κ) : motive description :=
  step description fun mixin _ => mixin_induction step mixin
termination_by sizeOf description
decreasing_by exact Description.sizeOf_mixin ‹_›

/-! ## Classification -/

/-- Whether a member can be placed when requirements are resolved with a lookup. -/
def Placeable (lookup : TableLookup) (declared : String × Member κ) : Prop :=
  isReservedName declared.1 = true ∨
    match declared.2 with
    | .hook _ => Phase.ofName? declared.1 ≠ none
    | .field field => Phase.ofName? declared.1 = none ∧
      ∃ validators, Requirement.resolveAll lookup field.requirements = .ok validators
    | _ => Phase.ofName? declared.1 = none

namespace Classification

variable {table : String} {lookup : TableLookup} {c after : Classification κ}
  {declared : String × Member κ}

/-- Placing a member adds its field, if it is one, after those before it. -/
private theorem add_fields (placed : c.add table lookup declared = .ok after) :
    after.fields.map FieldDefinition.bare =
      c.fields.map FieldDefinition.bare ++ (declaredField? declared).toList := by
  obtain ⟨name, member⟩ := declared
  simp only [add] at placed
  simp only [declaredField?]
  by_cases reserved : isReservedName name = true
  · simp only [reserved, ↓reduceIte, Except.ok.injEq] at placed
    simp [reserved, placed]
  · simp only [reserved, Bool.false_eq_true, ↓reduceIte] at placed ⊢
    cases phase : Phase.ofName? name with
    | some phase =>
      cases member <;> simp only [phase] at placed <;> cases placed
      simp [Member.bareField?]
    | none =>
      simp only [phase] at placed
      cases member with
      | field stored =>
        simp only [addMember, addField] at placed
        cases made : Requirement.resolveAll lookup stored.requirements with
        | error source => simp only [made] at placed; cases placed
        | ok validators =>
          simp only [made] at placed
          cases placed
          simp [FieldDefinition.bare, Member.bareField?]
      | virtual getter =>
        cases placed
        simp [FieldDefinition.bare, Member.bareField?]
      | method call =>
        cases placed
        simp [FieldDefinition.bare, Member.bareField?]
      | tableMethod callback =>
        simp only [addMember] at placed
        by_cases own : name = onDefineName
        · simp only [own, ↓reduceIte] at placed
          cases placed
          simp [Member.bareField?]
        · simp only [own, ↓reduceIte] at placed
          cases placed
          simp [Member.bareField?]
      | index index =>
        cases placed
        simp [Member.bareField?]
      | option value =>
        cases placed
        simp [Member.bareField?]
      | hook hook => cases placed

/-- Whether a member can be placed does not depend on those placed before it. -/
theorem add_ok_iff (table : String) (c : Classification κ) :
    (∃ after, c.add table lookup declared = .ok after) ↔ Placeable lookup declared := by
  obtain ⟨name, member⟩ := declared
  simp only [add, Placeable]
  by_cases reserved : isReservedName name = true
  · simp [reserved]
  · cases phase : Phase.ofName? name with
    | some phase => cases member <;> simp [reserved]
    | none =>
      cases member with
      | field stored =>
        simp only [reserved, addMember, addField]
        cases Requirement.resolveAll lookup stored.requirements <;> simp
      | tableMethod callback =>
        simp only [reserved, Bool.false_eq_true, ↓reduceIte, addMember]
        split <;> simp
      | _ => simp [reserved, addMember]

private theorem foldlM_fields {members : List (String × Member κ)}
    (placed : members.foldlM (add table lookup) c = .ok after) :
    after.fields.map FieldDefinition.bare =
      c.fields.map FieldDefinition.bare ++ members.filterMap declaredField? := by
  induction members generalizing c with
  | nil =>
    cases placed
    simp
  | cons declared rest ih =>
    rw [List.foldlM_cons] at placed
    cases first : c.add table lookup declared with
    | error refusal =>
      rw [first] at placed
      cases placed
    | ok middle =>
      rw [first] at placed
      rw [ih placed, add_fields first, List.append_assoc]
      cases field : declaredField? declared <;> simp [field]

theorem foldlM_ok_iff {members : List (String × Member κ)} :
    (∃ after, members.foldlM (add table lookup) c = .ok after) ↔
      ∀ declared ∈ members, Placeable lookup declared := by
  induction members generalizing c with
  | nil => exact ⟨fun _ => List.forall_mem_nil _, fun _ => ⟨c, rfl⟩⟩
  | cons declared rest ih =>
    rw [List.foldlM_cons, List.forall_mem_cons, ← add_ok_iff table c]
    cases first : c.add table lookup declared with
    | error refusal =>
      refine ⟨fun ⟨_, placed⟩ => ?_, fun ⟨⟨_, placed⟩, _⟩ => ?_⟩ <;> cases placed
    | ok middle =>
      exact ⟨fun placed => ⟨⟨middle, rfl⟩, ih.mp placed⟩, fun ⟨_, others⟩ => ih.mpr others⟩

end Classification

/-- Classification finds the description's own fields, in declaration order. -/
theorem Description.classify_fields {description : Description κ} {table : String}
    {lookup : TableLookup} {c : Classification κ} (sorted : description.classify table lookup = .ok c) :
    c.fields.map FieldDefinition.bare = description.ownFields := by
  rw [Classification.foldlM_fields sorted]
  rfl

/-! ## Requirements that last -/

theorem Requirement.resolveAll_ok_iff {lookup : TableLookup} {requirements : List Requirement} :
    (∃ validators, resolveAll lookup requirements = .ok validators) ↔
      ∀ requirement ∈ requirements, ∃ validator, requirement.resolve lookup = .ok validator :=
  Effect.mapM_ok_iff

/-- Each requirement of the description's own fields that one lookup resolves is resolved by the
other as well. -/
def Description.Lasts (description : Description κ) (earlier later : TableLookup) : Prop :=
  ∀ name stored, (name, Member.field stored) ∈ description.members.entries →
    ∀ requirement ∈ stored.requirements, ∀ validator,
      requirement.resolve earlier = .ok validator →
        ∃ again, requirement.resolve later = .ok again

theorem Placeable.lasts {description : Description κ} {earlier later : TableLookup}
    (lasts : description.Lasts earlier later) {declared : String × Member κ}
    (listed : declared ∈ description.members.entries) (placeable : Placeable earlier declared) :
    Placeable later declared := by
  obtain ⟨name, member⟩ := declared
  rcases placeable with reserved | placeable
  · exact Or.inl reserved
  · refine Or.inr ?_
    cases member with
    | field stored =>
      obtain ⟨noPhase, resolved⟩ := placeable
      refine ⟨noPhase, Requirement.resolveAll_ok_iff.mpr fun requirement asked => ?_⟩
      obtain ⟨validator, made⟩ := Requirement.resolveAll_ok_iff.mp resolved requirement asked
      exact lasts name stored listed requirement asked validator made
    | _ => exact placeable

theorem Description.classify_lasts {description : Description κ} {table : String}
    {earlier later : TableLookup} (lasts : description.Lasts earlier later)
    (sorted : ∃ c, description.classify table earlier = .ok c) :
    ∃ c, description.classify table later = .ok c :=
  Classification.foldlM_ok_iff.mpr fun declared listed =>
    Placeable.lasts lasts listed (Classification.foldlM_ok_iff.mp sorted declared listed)

/-! ## Expansion -/

/-- The refusal of a field source that repeats a name. Only names matter. -/
def repeatedField? (source : String) (fields : List FieldDefinition) : Option LayerError :=
  (TableDefinition.firstRepeated? [] (fields.map FieldDefinition.name)).map fun name =>
    .rejected source (DefinitionFault.duplicateField name).message

theorem fieldSource_eq (name : String) (fields : List FieldDefinition) :
    ({ name, fields } : TableDefinition).fieldSource =
      match repeatedField? name fields with
      | some refusal => .error refusal
      | none => .ok fields := by
  simp only [TableDefinition.fieldSource, TableDefinition.fault?, repeatedField?,
    TableDefinition.fieldNames]
  cases TableDefinition.firstRepeated? [] (fields.map FieldDefinition.name) <;> rfl

theorem repeatedField?_bare (name : String) {fields others : List FieldDefinition}
    (same : fields.map FieldDefinition.bare = others.map FieldDefinition.bare) :
    repeatedField? name fields = repeatedField? name others := by
  have names (list : List FieldDefinition) : list.map FieldDefinition.name =
      (list.map FieldDefinition.bare).map FieldDefinition.name := by simp
  rw [repeatedField?, repeatedField?, names fields, names others, same]

mutual

/-- The fields of a signature, its mixins expanded wherever they are listed. -/
def Description.expand (lookup : TableLookup) :
    Description κ → Except BuildError (List FieldDefinition)
  | ⟨identity, name, members, mixins⟩ =>
    match (⟨identity, name, members, mixins⟩ : Description κ).classify name lookup with
    | .error refusal => .error refusal
    | .ok own =>
      match expandMixins lookup mixins with
      | .error refusal => .error refusal
      | .ok nested =>
        match repeatedField? name (own.fields ++ nested) with
        | some refusal => .error (.layer refusal)
        | none => .ok (own.fields ++ nested)

def expandMixins (lookup : TableLookup) :
    List (Description κ) → Except BuildError (List FieldDefinition)
  | [] => .ok []
  | mixin :: rest =>
    match mixin.expand lookup with
    | .error refusal => .error refusal
    | .ok fields =>
      match expandMixins lookup rest with
      | .error refusal => .error refusal
      | .ok others => .ok (fields ++ others)

end

theorem Description.expand_eq (lookup : TableLookup) (description : Description κ) :
    description.expand lookup =
      match description.classify description.name lookup with
      | .error refusal => .error refusal
      | .ok own =>
        match expandMixins lookup description.mixins with
        | .error refusal => .error refusal
        | .ok nested =>
          match repeatedField? description.name (own.fields ++ nested) with
          | some refusal => .error (.layer refusal)
          | none => .ok (own.fields ++ nested) := by
  obtain ⟨identity, name, members, mixins⟩ := description
  rw [Description.expand]

/-- What a signature expands to, if it can be expanded at all. -/
theorem Description.expand_ok_iff {lookup : TableLookup} {description : Description κ}
    {fields : List FieldDefinition} :
    description.expand lookup = .ok fields ↔
      ∃ own nested, description.classify description.name lookup = .ok own ∧
        expandMixins lookup description.mixins = .ok nested ∧
        repeatedField? description.name (own.fields ++ nested) = none ∧
        fields = own.fields ++ nested := by
  rw [Description.expand_eq]
  constructor
  · intro expanded
    split at expanded
    · cases expanded
    · rename_i own sorted
      split at expanded
      · cases expanded
      · rename_i nested below
        split at expanded
        · cases expanded
        · rename_i distinct
          cases expanded
          exact ⟨own, nested, sorted, below, distinct, rfl⟩
  · rintro ⟨own, nested, sorted, below, distinct, rfl⟩
    simp only [sorted, below, distinct]

private theorem expandMixins_cons_ok_iff {lookup : TableLookup} {mixin : Description κ}
    {rest : List (Description κ)} {fields : List FieldDefinition} :
    expandMixins lookup (mixin :: rest) = .ok fields ↔
      ∃ first others, mixin.expand lookup = .ok first ∧ expandMixins lookup rest = .ok others ∧
        fields = first ++ others := by
  rw [expandMixins]
  constructor
  · intro expanded
    split at expanded
    · cases expanded
    · rename_i first begun
      split at expanded
      · cases expanded
      · rename_i others ended
        cases expanded
        exact ⟨first, others, begun, ended, rfl⟩
  · rintro ⟨first, others, begun, ended, rfl⟩
    simp only [begun, ended]

private theorem expandMixins_declared {lookup : TableLookup} {mixins : List (Description κ)}
    (below : ∀ mixin ∈ mixins, ∀ fields, mixin.expand lookup = .ok fields →
      fields.map FieldDefinition.bare = mixin.declared)
    {fields : List FieldDefinition} (expanded : expandMixins lookup mixins = .ok fields) :
    fields.map FieldDefinition.bare = declaredByMixins mixins := by
  induction mixins generalizing fields with
  | nil =>
    rw [expandMixins] at expanded
    cases expanded
    rw [declaredByMixins, List.map_nil]
  | cons mixin rest ih =>
    obtain ⟨first, others, begun, ended, rfl⟩ := expandMixins_cons_ok_iff.mp expanded
    rw [List.forall_mem_cons] at below
    rw [declaredByMixins, List.map_append, below.1 first begun, ih below.2 ended]

/-- Whatever a lookup makes of its requirements, a signature expands to the fields it declares: its
own in declaration order, then those of each mixin in listed order. -/
theorem Description.expand_declared {lookup : TableLookup} (description : Description κ)
    {fields : List FieldDefinition} (expanded : description.expand lookup = .ok fields) :
    fields.map FieldDefinition.bare = description.declared := by
  induction description using Description.mixin_induction generalizing fields with
  | step description below =>
    obtain ⟨own, nested, sorted, expandedBelow, -, rfl⟩ := Description.expand_ok_iff.mp expanded
    rw [Description.declared_eq, List.map_append, Description.classify_fields sorted,
      expandMixins_declared (fun mixin listed _ => below mixin listed) expandedBelow]

private theorem expandMixins_lasts {earlier later : TableLookup} {mixins : List (Description κ)}
    (below : ∀ mixin ∈ mixins, (∃ fields, mixin.expand earlier = .ok fields) →
      ∃ fields, mixin.expand later = .ok fields)
    (expanded : ∃ fields, expandMixins earlier mixins = .ok fields) :
    ∃ fields, expandMixins later mixins = .ok fields := by
  induction mixins with
  | nil => exact ⟨[], by rw [expandMixins]⟩
  | cons mixin rest ih =>
    obtain ⟨_, expanded⟩ := expanded
    obtain ⟨first, others, begun, ended, -⟩ := expandMixins_cons_ok_iff.mp expanded
    rw [List.forall_mem_cons] at below
    obtain ⟨first', begun'⟩ := below.1 ⟨first, begun⟩
    obtain ⟨others', ended'⟩ := ih below.2 ⟨others, ended⟩
    exact ⟨first' ++ others', expandMixins_cons_ok_iff.mpr ⟨first', others', begun', ended', rfl⟩⟩

/-- A signature that one lookup expands is expanded by every other at which all requirements below
it last. -/
theorem Description.expand_lasts {earlier later : TableLookup} {listed : Description κ → Prop}
    (closed : ∀ description, listed description → ∀ mixin ∈ description.mixins, listed mixin)
    (lasts : ∀ description, listed description → description.Lasts earlier later)
    (description : Description κ) (here : listed description)
    (expanded : ∃ fields, description.expand earlier = .ok fields) :
    ∃ fields, description.expand later = .ok fields := by
  induction description using Description.mixin_induction with
  | step description below =>
    obtain ⟨fields, expanded⟩ := expanded
    have declared := Description.expand_declared description expanded
    obtain ⟨own, nested, sorted, expandedBelow, distinct, rfl⟩ :=
      Description.expand_ok_iff.mp expanded
    obtain ⟨own', sorted'⟩ := Description.classify_lasts (lasts description here) ⟨own, sorted⟩
    obtain ⟨nested', expandedBelow'⟩ := expandMixins_lasts
      (fun mixin isMixin => below mixin isMixin (closed description here mixin isMixin))
      ⟨nested, expandedBelow⟩
    -- Both lookups give fields of the same names, so neither repeats one.
    have declared' : (own'.fields ++ nested').map FieldDefinition.bare = description.declared := by
      rw [Description.declared_eq, List.map_append, Description.classify_fields sorted',
        expandMixins_declared (fun mixin _ _ => Description.expand_declared mixin) expandedBelow']
    refine ⟨own'.fields ++ nested', Description.expand_ok_iff.mpr
      ⟨own', nested', sorted', expandedBelow', ?_, rfl⟩⟩
    rw [← distinct]
    exact repeatedField?_bare description.name (declared'.trans declared.symm)

theorem expandMixins_bare {lookup : TableLookup} {mixins : List (Description κ)}
    {fields : List FieldDefinition} (expanded : expandMixins lookup mixins = .ok fields) :
    fields.map FieldDefinition.bare = declaredByMixins mixins :=
  expandMixins_declared (fun mixin _ _ => mixin.expand_declared) expanded

theorem expandMixins_again {earlier later : TableLookup} {listed : Description κ → Prop}
    (closed : ∀ description, listed description → ∀ mixin ∈ description.mixins, listed mixin)
    (lasts : ∀ description, listed description → description.Lasts earlier later)
    {mixins : List (Description κ)} (here : ∀ mixin ∈ mixins, listed mixin)
    (expanded : ∃ fields, expandMixins earlier mixins = .ok fields) :
    ∃ fields, expandMixins later mixins = .ok fields :=
  expandMixins_lasts (fun mixin isMixin =>
    Description.expand_lasts closed lasts mixin (here mixin isMixin)) expanded

end SchemaCompiler
