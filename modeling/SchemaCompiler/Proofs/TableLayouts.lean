import Mathlib.Data.List.Forall2
import Mathlib.Data.List.Perm.Subperm
import SchemaCompiler.Database

/-! When two definitions lay a table out in the same way. The check of a new definition against an
older one looks for the first difference; `SameLayout` says what is left when there is none
(`difference?_eq_none_iff`). It is an equivalence, although options are compared as maps, in
whatever order they were given, and fields without their callables. -/
namespace SchemaCompiler

/-! ## Maps that file matching values -/

namespace OrderedMap

variable {α β : Type} [DecidableEq α] {same : β → β → Bool}

omit [DecidableEq α] in
/-- The keys of a map are those of another one of its size, if all of them are. -/
private theorem keys_subset {a b : OrderedMap α β} (sizes : a.size = b.size)
    (inside : a.keys ⊆ b.keys) : b.keys ⊆ a.keys := by
  have lengths : b.keys.length ≤ a.keys.length := by
    simp only [keys, List.length_map]
    exact Nat.le_of_eq sizes.symm
  exact ((List.subperm_of_subset a.keys_nodup inside).perm_of_length_le lengths).symm.subset

/-- Two maps are the same if, under every key, both file matching values or none. -/
private theorem sameEntries_iff (a b : OrderedMap α β) :
    a.sameEntries same b = true ↔
      ∀ key, Option.Rel (fun x y => same x y = true) (a.get? key) (b.get? key) := by
  simp only [sameEntries, Bool.and_eq_true, beq_iff_eq, List.all_eq_true]
  constructor
  · rintro ⟨sizes, found⟩ key
    have inside : a.keys ⊆ b.keys := by
      intro other listed
      obtain ⟨entry, member, rfl⟩ := List.mem_map.1 listed
      have matched := found entry member
      split at matched
      · next value known => exact List.mem_map.2 ⟨_, (b.get?_eq_some_iff _ _).1 known, rfl⟩
      · cases matched
    cases here : a.get? key with
    | none =>
      have absent : b.get? key = none := by
        rw [get?_eq_none_iff] at here ⊢
        exact fun listed => here (keys_subset sizes inside listed)
      rw [absent]
      exact .none
    | some value =>
      have matched := found (key, value) ((a.get?_eq_some_iff _ _).1 here)
      dsimp only at matched
      split at matched
      · next other known =>
        rw [known]
        exact .some matched
      · cases matched
  · intro related
    have listed_iff (key : α) : key ∈ a.keys ↔ key ∈ b.keys := by
      rw [← contains_iff_mem_keys, ← contains_iff_mem_keys, contains, contains]
      have here := related key
      revert here
      cases a.get? key <;> cases b.get? key <;> rintro ⟨⟩ <;> simp
    refine ⟨?_, fun entry member => ?_⟩
    · have perm := (List.perm_ext_iff_of_nodup a.keys_nodup b.keys_nodup).2 listed_iff
      simpa [keys, size] using perm.length_eq
    · have here := related entry.1
      rw [(a.get?_eq_some_iff entry.1 entry.2).2 member] at here
      cases known : b.get? entry.1 with
      | none =>
        rw [known] at here
        cases here
      | some value =>
        rw [known] at here
        cases here with
        | some matched => exact matched

end OrderedMap

namespace Options

variable {a b c : Options}

theorem same_iff : a.same b = true ↔
    ∀ key, Option.Rel (fun x y => x.same y = true) (a.get? key) (b.get? key) :=
  OrderedMap.sameEntries_iff a b

theorem same_symm (same : a.same b = true) : b.same a = true := by
  rw [same_iff] at same ⊢
  intro key
  have here := same key
  generalize a.get? key = x, b.get? key = y at here ⊢
  cases here with
  | none => exact .none
  | some matched => exact .some (Json.same_symm matched)

theorem same_trans (first : a.same b = true) (second : b.same c = true) : a.same c = true := by
  rw [same_iff] at first second ⊢
  intro key
  have here := first key
  have later := second key
  generalize a.get? key = x, b.get? key = y, c.get? key = z at here later ⊢
  cases here with
  | none => exact later
  | some matched =>
    cases later with
    | some matched' => exact .some (Json.same_trans matched matched')

/-- A truth value is the same in options that are the same. -/
private theorem flag?_same (same : a.same b = true) (name : String) :
    a.flag? name = b.flag? name := by
  have here := same_iff.1 same name
  unfold flag?
  generalize a.get? name = x, b.get? name = y at here ⊢
  cases here with
  | none => rfl
  | @some x y matched =>
    cases x <;> cases y <;> simp [Json.same] at matched <;> simp [Json.asBool?, matched]

end Options

/-! ## Fields of one shape -/

namespace FieldDefinition

variable {a b c : FieldDefinition}

theorem sameShape_refl (a : FieldDefinition) : a.sameShape a = true := by
  cases a <;> simp [sameShape, Options.same_refl]

theorem sameShape_symm (same : a.sameShape b = true) : b.sameShape a = true := by
  cases a <;> cases b <;> simp only [sameShape, Bool.false_eq_true, Bool.and_eq_true, beq_iff_eq]
    at same ⊢
  · exact ⟨⟨same.1.1.symm, same.1.2.symm⟩, Options.same_symm same.2⟩
  · exact same.symm
  · exact same.symm

theorem sameShape_trans (first : a.sameShape b = true) (second : b.sameShape c = true) :
    a.sameShape c = true := by
  cases a <;> cases b <;> simp only [sameShape, Bool.false_eq_true, Bool.and_eq_true, beq_iff_eq]
    at first <;>
  cases c <;> simp only [sameShape, Bool.false_eq_true, Bool.and_eq_true, beq_iff_eq] at second ⊢
  · exact ⟨⟨first.1.1.trans second.1.1, first.1.2.trans second.1.2⟩,
      Options.same_trans first.2 second.2⟩
  · exact first.trans second
  · exact first.trans second

end FieldDefinition

namespace TableDefinition

/-! ## Definitions of one layout -/

/-- Two definitions that lay a table out in the same way. -/
structure SameLayout (a b : TableDefinition) : Prop where
  physicalName : a.physicalName = b.physicalName
  primaryKey : a.primaryKey = b.primaryKey
  /-- Position by position. -/
  fields : List.Forall₂ (fun x y => x.sameShape y = true) a.fields b.fields
  /-- As maps, in whatever order. -/
  options : ∀ key, Option.Rel (fun x y => x.same y = true) (a.options.get? key) (b.options.get? key)

namespace SameLayout

variable {a b c : TableDefinition}

theorem refl (a : TableDefinition) : a.SameLayout a where
  physicalName := rfl
  primaryKey := rfl
  fields := List.forall₂_same.2 fun field _ => field.sameShape_refl
  options := Options.same_iff.1 a.options.same_refl

theorem symm (same : a.SameLayout b) : b.SameLayout a where
  physicalName := same.physicalName.symm
  primaryKey := same.primaryKey.symm
  fields := (same.fields.imp fun _ _ => FieldDefinition.sameShape_symm).flip
  options := Options.same_iff.1 (Options.same_symm (Options.same_iff.2 same.options))

private theorem sameFields_trans {xs ys zs : List FieldDefinition}
    (first : List.Forall₂ (fun x y => x.sameShape y = true) xs ys)
    (second : List.Forall₂ (fun x y => x.sameShape y = true) ys zs) :
    List.Forall₂ (fun x y => x.sameShape y = true) xs zs := by
  induction first generalizing zs with
  | nil => exact second
  | cons same _ ih =>
    cases second with
    | cons same' others => exact .cons (FieldDefinition.sameShape_trans same same') (ih others)

theorem trans (first : a.SameLayout b) (second : b.SameLayout c) : a.SameLayout c where
  physicalName := first.physicalName.trans second.physicalName
  primaryKey := first.primaryKey.trans second.primaryKey
  fields := sameFields_trans first.fields second.fields
  options := Options.same_iff.1
    (Options.same_trans (Options.same_iff.2 first.options) (Options.same_iff.2 second.options))

/-- A stored field of one definition has its counterpart in the other. -/
theorem plain (same : a.SameLayout b) {field : PlainField}
    (declared : FieldDefinition.plain field ∈ a.fields) :
    ∃ other, FieldDefinition.plain other ∈ b.fields ∧ other.name = field.name ∧
      other.isRequired = field.isRequired := by
  have fields := same.fields
  generalize a.fields = xs, b.fields = ys at declared fields
  induction fields with
  | nil => cases declared
  | @cons x y xs ys alike _ ih =>
    rcases List.mem_cons.1 declared with rfl | later
    · cases y with
      | plain other =>
        simp only [FieldDefinition.sameShape, Bool.and_eq_true, beq_iff_eq] at alike
        refine ⟨other, List.mem_cons_self, alike.1.1.symm, ?_⟩
        rw [PlainField.isRequired, PlainField.isRequired, Options.flag?_same alike.2]
      | _ => cases alike
    · obtain ⟨other, listed, named, required⟩ := ih later
      exact ⟨other, List.mem_cons_of_mem _ listed, named, required⟩

end SameLayout

/-- The check finds no difference exactly between definitions of one layout. -/
theorem difference?_eq_none_iff {old new : TableDefinition} :
    old.difference? new = none ↔ old.SameLayout new := by
  have fields_iff : List.Forall₂ (fun x y => x.sameShape y = true) old.fields new.fields ↔
      old.fields.length = new.fields.length ∧
        (old.fields.zip new.fields).find? (fun pair => !pair.1.sameShape pair.2) = none := by
    rw [List.forall₂_iff_zip, List.find?_eq_none]
    simp
  unfold difference?
  constructor
  · intro alike
    split at alike
    · cases alike
    · next names =>
      split at alike
      · cases alike
      · next keys =>
        split at alike
        · cases alike
        · next lengths =>
          split at alike
          · cases alike
          · next shapes =>
            split at alike
            · next options =>
              exact ⟨not_not.1 names, not_not.1 keys, fields_iff.2 ⟨not_not.1 lengths, shapes⟩,
                Options.same_iff.1 options⟩
            · cases alike
  · intro same
    obtain ⟨lengths, shapes⟩ := fields_iff.1 same.fields
    simp only [same.physicalName, same.primaryKey, lengths, shapes, Options.same_iff.2 same.options,
      ne_eq, not_true_eq_false, ↓reduceIte]

/-! ## Definitions that contradict themselves -/

/-- What a definition has to be in itself: its fields have different names, and the columns of its
key are stored fields. -/
structure Consistent (definition : TableDefinition) : Prop where
  distinct : definition.fieldNames.Nodup
  key : ∀ columns, definition.primaryKey = some columns → ∀ column ∈ columns,
    ∃ field, FieldDefinition.plain field ∈ definition.fields ∧ field.name = column

private theorem firstRepeated?_eq_none_iff {seen names : List String} :
    firstRepeated? seen names = none ↔ names.Nodup ∧ ∀ name ∈ names, name ∉ seen := by
  induction names generalizing seen with
  | nil => simp [firstRepeated?]
  | cons name rest ih =>
    rw [firstRepeated?]
    split
    · next again => simp [again]
    · next fresh =>
      rw [ih, List.nodup_cons, List.forall_mem_cons]
      simp only [List.mem_cons, not_or]
      constructor
      · rintro ⟨distinct, others⟩
        exact ⟨⟨fun listed => (others name listed).1 rfl, distinct⟩, fresh,
          fun other listed => (others other listed).2⟩
      · rintro ⟨⟨absent, distinct⟩, -, others⟩
        exact ⟨distinct, fun other listed => ⟨fun same => absent (same ▸ listed), others other listed⟩⟩

private theorem exists_plain_of_stores {definition : TableDefinition} {column : String}
    (stored : definition.stores column = true) :
    ∃ field, FieldDefinition.plain field ∈ definition.fields ∧ field.name = column := by
  unfold stores field? at stored
  rw [Option.any_eq_true] at stored
  obtain ⟨field, found, plain⟩ := stored
  have named := List.find?_some found
  cases field with
  | plain field => exact ⟨field, List.mem_of_find?_eq_some found, beq_iff_eq.1 named⟩
  | _ => cases plain

theorem consistent_of_faultless {definition : TableDefinition}
    (faultless : definition.fault? = none) : definition.Consistent := by
  unfold fault? at faultless
  split at faultless
  · cases faultless
  · next distinct =>
    refine ⟨(firstRepeated?_eq_none_iff.1 distinct).1, fun columns key column listed => ?_⟩
    rw [Option.map_eq_none_iff, List.find?_eq_none, key] at faultless
    exact exists_plain_of_stores (by simpa using faultless column listed)

end TableDefinition
end SchemaCompiler
