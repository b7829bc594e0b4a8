import Mathlib.Data.List.Perm.Basic
import SchemaCompiler.Proofs.AutomaticKeys

/-! Descriptions whose members are declared in another order. Whether a member can be placed, and
what is made of it, depends on that member alone, and no two are filed under one name. So two orders
of the same members are both sorted or both refused, and come to the same maps
(`Description.classify_alike`); only the fields are kept in declaration order. Nothing is lost on
the way and nothing is filed twice: each unreserved member is found in the place where it belongs,
and nothing is found under its name elsewhere (`Description.classify_files`,
`Description.classify_has_iff`). -/
namespace SchemaCompiler

variable {κ : Type}

/-! ## Reordered entries -/

/-- The order of entries does not matter for what is found. -/
theorem OrderedMap.get?_perm {α β : Type} [DecidableEq α] {a b : OrderedMap α β}
    (perm : a.entries.Perm b.entries) (key : α) : a.get? key = b.get? key := by
  ext value
  rw [OrderedMap.get?_eq_some_iff, OrderedMap.get?_eq_some_iff, perm.mem_iff]

section Own

variable {α : Type} {pick : String → Member κ → Option α} {first second description : Description κ}

private theorem Description.mem_own {value : α} : value ∈ description.own pick ↔
    ∃ name member, (name, member) ∈ description.members.entries ∧ isReservedName name = false ∧
      pick name member = some value := by
  rw [Description.own, List.mem_filterMap]
  constructor
  · rintro ⟨⟨name, member⟩, declared, picked⟩
    split at picked
    · cases picked
    · next unreserved => exact ⟨name, member, declared, by simpa using unreserved, picked⟩
  · rintro ⟨name, member, declared, unreserved, picked⟩
    exact ⟨(name, member), declared, by simp [unreserved, picked]⟩

/-- Reordered members stand for the same, in another order. -/
private theorem Description.own_perm
    (reordered : second.members.entries.Perm first.members.entries) :
    (second.own pick).Perm (first.own pick) := reordered.filterMap _

end Own

/-- At one lookup a member makes one field. -/
private theorem Makes.rightUnique (lookup : TableLookup) :
    Relator.RightUnique (Makes (κ := κ) (· = lookup)) := by
  intro declared field other makes makes'
  cases makes with
  | stored due made =>
    cases makes' with
    | stored due' made' =>
      subst due due'
      cases made.symm.trans made'
      rfl
  | virtual =>
    cases makes'
    rfl
  | method =>
    cases makes'
    rfl

private theorem Makes.exists_of_mem {seen : TableLookup → Prop} {members : List (String × Member κ)}
    {fields : List FieldDefinition} (made : List.Forall₂ (Makes seen) members fields)
    {declared : String × Member κ} (listed : declared ∈ members) :
    ∃ field ∈ fields, Makes seen declared field := by
  induction made with
  | nil => cases listed
  | cons makes _ ih =>
    rcases List.mem_cons.1 listed with rfl | later
    · exact ⟨_, List.mem_cons_self, makes⟩
    · obtain ⟨field, made, makes'⟩ := ih later
      exact ⟨field, List.mem_cons_of_mem _ made, makes'⟩

/-! ## Alike classifications -/

variable {first second description : Description κ} {table : String} {lookup : TableLookup}
  {c c' : Classification κ}

/-- The same apart from the order in which members were declared. -/
structure Classification.Alike (c c' : Classification κ) : Prop where
  fields : c'.fields.Perm c.fields
  hooks : ∀ phase, c'.hooks.get? phase = c.hooks.get? phase
  tableMethods : ∀ name, c'.tableMethods.get? name = c.tableMethods.get? name
  indexes : ∀ name, c'.indexes.get? name = c.indexes.get? name
  options : ∀ name, c'.options.get? name = c.options.get? name
  onDefine : c'.onDefine = c.onDefine
  hasIdName : c'.hasIdName = c.hasIdName
  hasIdType : c'.hasIdType = c.hasIdType

/-- What is noted of fields does not depend on their order. -/
theorem Classification.Notes.perm (notes : c.Notes) (notes' : c'.Notes)
    (perm : c'.fields.Perm c.fields) :
    c'.hasIdName = c.hasIdName ∧ c'.hasIdType = c.hasIdType := by
  have columns : (storedColumns c'.fields).Perm (storedColumns c.fields) := perm.filterMap _
  constructor
  · rw [Bool.eq_iff_iff, notes'.name, notes.name]
    simp only [NamesId, columns.mem_iff]
  · rw [Bool.eq_iff_iff, notes'.type, notes.type]
    simp only [TypesId, columns.mem_iff]

/-- Two orders of the same members come to alike classifications. -/
theorem Description.classify_alike
    (reordered : second.members.entries.Perm first.members.entries)
    (sorted : first.classify table lookup = .ok c)
    (sorted' : second.classify table lookup = .ok c') : c.Alike c' := by
  have places := Description.classify_sorted sorted
  have places' := Description.classify_sorted sorted'
  have filed {α β : Type} [DecidableEq α] {pick : String → Member κ → Option (α × β)}
      {a b : OrderedMap α β} (own : a.entries = first.own pick) (own' : b.entries = second.own pick)
      (key : α) : b.get? key = a.get? key := by
    refine OrderedMap.get?_perm ?_ key
    rw [own, own']
    exact Description.own_perm reordered
  have fields : c'.fields.Perm c.fields :=
    List.rel_perm_imp (Makes.rightUnique lookup) (Description.classify_makes sorted')
      (Description.classify_makes sorted) (reordered.filter isFieldMember)
  obtain ⟨hasIdName, hasIdType⟩ :=
    (Description.classify_notes sorted).perm (Description.classify_notes sorted') fields
  refine ⟨fields, filed places.hooks places'.hooks, filed places.tableMethods places'.tableMethods,
    filed places.indexes places'.indexes, filed places.options places'.options, ?_, hasIdName,
    hasIdType⟩
  rw [places'.onDefine, places.onDefine, Description.onDefine?, Description.onDefine?,
    OrderedMap.get?_perm reordered]

/-- Two orders of the same members are both sorted or both refused. -/
theorem Description.classify_ok_perm
    (reordered : second.members.entries.Perm first.members.entries) :
    (∃ c, first.classify table lookup = .ok c) ↔ ∃ c, second.classify table lookup = .ok c := by
  unfold Description.classify
  rw [Classification.foldlM_ok_iff, Classification.foldlM_ok_iff]
  simp only [reordered.mem_iff]

/-! ## Places -/

/-- Where members can be found once they are sorted. -/
inductive Place where
  | fields
  | hooks
  | tableMethods
  | indexes
  | options
  | onDefine
  deriving DecidableEq

/-- The place where a member belongs. -/
def Member.place (name : String) : Member κ → Place
  | .field _ | .virtual _ | .method _ => .fields
  | .hook _ => .hooks
  | .tableMethod _ => if name = onDefineName then .onDefine else .tableMethods
  | .index _ => .indexes
  | .option _ => .options

namespace Classification

/-- Whether there is anything under a name in a place. -/
def Has (c : Classification κ) (name : String) : Place → Prop
  | .fields => name ∈ c.fieldNames
  | .hooks => ∃ phase ∈ c.hooks.keys, phase.name = name
  | .tableMethods => name ∈ c.tableMethods.keys
  | .indexes => name ∈ c.indexes.keys
  | .options => name ∈ c.options.keys
  | .onDefine => name = onDefineName ∧ c.onDefine ≠ none

/-- Whether a place has what a member declares, under its name. -/
inductive Files (c : Classification κ) (lookup : TableLookup) : Place → String × Member κ → Prop
  | field {declared : String × Member κ} {field : FieldDefinition}
      (makes : Makes (· = lookup) declared field) (listed : field ∈ c.fields) :
      Files c lookup .fields declared
  | hook {name : String} {phase : Phase} {hook : Hook κ} (named : Phase.ofName? name = some phase)
      (filed : c.hooks.get? phase = some hook) : Files c lookup .hooks (name, .hook hook)
  | tableMethod {name : String} {callback : κ}
      (filed : c.tableMethods.get? name = some callback) :
      Files c lookup .tableMethods (name, .tableMethod callback)
  | index {name : String} {index : Index} (filed : c.indexes.get? name = some index) :
      Files c lookup .indexes (name, .index index)
  | option {name : String} {value : Json} (filed : c.options.get? name = some value) :
      Files c lookup .options (name, .option value)
  | onDefine {callback : κ} (filed : c.onDefine = some callback) :
      Files c lookup .onDefine (onDefineName, .tableMethod callback)

end Classification

/-- Each unreserved member is filed where it belongs. -/
theorem Description.classify_files (sorted : description.classify table lookup = .ok c)
    {name : String} {member : Member κ} (declared : (name, member) ∈ description.members.entries)
    (unreserved : isReservedName name = false) :
    c.Files lookup (member.place name) (name, member) := by
  have places := Description.classify_sorted sorted
  have own {α : Type} {pick : String → Member κ → Option α} {value : α}
      (picked : pick name member = some value) : value ∈ description.own pick :=
    Description.mem_own.2 ⟨name, member, declared, unreserved, picked⟩
  have field (fieldLike : member.isFieldLike = true) : c.Files lookup .fields (name, member) := by
    have listed : (name, member) ∈ description.ownFieldMembers :=
      List.mem_filter.2 ⟨declared, by simp [isFieldMember, unreserved, fieldLike]⟩
    obtain ⟨field, made, makes⟩ := Makes.exists_of_mem (Description.classify_makes sorted) listed
    exact .field makes made
  cases member with
  | field stored => exact field rfl
  | virtual getter => exact field rfl
  | method call => exact field rfl
  | hook hook =>
    have placeable := Classification.foldlM_ok_iff.1 ⟨c, sorted⟩ _ declared
    obtain ⟨phase, named⟩ := Option.ne_none_iff_exists'.1
      (placeable.resolve_left (by simp [unreserved]))
    refine .hook named ((c.hooks.get?_eq_some_iff _ _).2 ?_)
    rw [places.hooks]
    exact own (by simp [Member.hook?, named])
  | tableMethod callback =>
    rw [Member.place]
    by_cases same : name = onDefineName
    · subst same
      rw [if_pos rfl]
      refine .onDefine ?_
      rw [places.onDefine, Description.onDefine?,
        (description.members.get?_eq_some_iff _ _).2 declared]
    · rw [if_neg same]
      refine .tableMethod ((c.tableMethods.get?_eq_some_iff _ _).2 ?_)
      rw [places.tableMethods]
      exact own (by simp [Member.tableMethod?, same])
  | index index => exact .index ((c.indexes.get?_eq_some_iff _ _).2 (places.indexes ▸ own rfl))
  | option value => exact .option ((c.options.get?_eq_some_iff _ _).2 (places.options ▸ own rfl))

/-- A key of what was filed is there for a member of its name. -/
private theorem Description.declared_of_listed {α β : Type} (named : α → String) {place : Place}
    {pick : String → Member κ → Option (α × β)} {map : OrderedMap α β}
    (own : map.entries = description.own pick)
    (belongs : ∀ name member key value, pick name member = some (key, value) →
      named key = name ∧ member.place name = place) {key : α} (listed : key ∈ map.keys) :
    ∃ member, (named key, member) ∈ description.members.entries ∧
      member.place (named key) = place := by
  obtain ⟨⟨_, value⟩, filed, rfl⟩ := List.mem_map.1 listed
  rw [own] at filed
  obtain ⟨name, member, declared, -, picked⟩ := Description.mem_own.1 filed
  obtain ⟨rfl, same⟩ := belongs _ _ _ _ picked
  exact ⟨member, declared, same⟩

/-- What is found under a name in a place is there for a member of that name that belongs there. -/
private theorem Description.classify_has (sorted : description.classify table lookup = .ok c)
    {name : String} {place : Place} (has : c.Has name place) :
    ∃ member, (name, member) ∈ description.members.entries ∧ member.place name = place := by
  have places := Description.classify_sorted sorted
  cases place with
  | fields =>
    rw [Classification.Has, Classification.fieldNames,
      Makes.names (Description.classify_makes sorted)] at has
    obtain ⟨⟨_, member⟩, listed, rfl⟩ := List.mem_map.1 has
    obtain ⟨declared, fieldLike⟩ := List.mem_filter.1 listed
    refine ⟨member, declared, ?_⟩
    cases member <;> simp [isFieldMember, Member.isFieldLike] at fieldLike <;> rfl
  | hooks =>
    obtain ⟨phase, listed, rfl⟩ := has
    refine Description.declared_of_listed Phase.name places.hooks
      (fun name member key hook picked => ?_) listed
    refine ⟨Member.hook?_named picked, ?_⟩
    cases member <;> first | rfl | cases picked
  | tableMethods =>
    refine Description.declared_of_listed id places.tableMethods
      (fun name member key callback picked => ?_) has
    refine ⟨Member.tableMethod?_named picked, ?_⟩
    cases member <;> simp [Member.tableMethod?] at picked
    exact if_neg picked.1
  | indexes =>
    refine Description.declared_of_listed id places.indexes
      (fun name member key index picked => ?_) has
    refine ⟨Member.index?_named picked, ?_⟩
    cases member <;> first | rfl | cases picked
  | options =>
    refine Description.declared_of_listed id places.options
      (fun name member key value picked => ?_) has
    refine ⟨Member.option?_named picked, ?_⟩
    cases member <;> first | rfl | cases picked
  | onDefine =>
    obtain ⟨rfl, given⟩ := has
    rw [places.onDefine, Description.onDefine?] at given
    split at given
    · next callback found =>
      exact ⟨_, (description.members.get?_eq_some_iff _ _).1 found, by simp [Member.place]⟩
    · exact absurd rfl given

theorem Classification.Files.has {place : Place} {declared : String × Member κ}
    (files : c.Files lookup place declared) : c.Has declared.1 place := by
  have listed {α β : Type} [DecidableEq α] {map : OrderedMap α β} {key : α} {value : β}
      (found : map.get? key = some value) : key ∈ map.keys :=
    List.mem_map.2 ⟨_, (map.get?_eq_some_iff _ _).1 found, rfl⟩
  cases files with
  | field makes made =>
    refine List.mem_map.2 ⟨_, made, ?_⟩
    cases makes <;> rfl
  | hook named filed => exact ⟨_, listed filed, (Phase.ofName?_eq_some_iff.1 named).symm⟩
  | tableMethod filed => exact listed filed
  | index filed => exact listed filed
  | option filed => exact listed filed
  | onDefine filed => exact ⟨rfl, by simp [filed]⟩

/-- Nothing of an unreserved member's name is found but where the member belongs. -/
theorem Description.classify_has_iff (sorted : description.classify table lookup = .ok c)
    {name : String} {member : Member κ} (declared : (name, member) ∈ description.members.entries)
    (unreserved : isReservedName name = false) {place : Place} :
    c.Has name place ↔ place = member.place name := by
  refine ⟨fun has => ?_, fun same => ?_⟩
  · obtain ⟨other, declared', same⟩ := Description.classify_has sorted has
    -- Members have distinct names.
    have found := (description.members.get?_eq_some_iff _ _).2 declared
    rw [(description.members.get?_eq_some_iff _ _).2 declared'] at found
    cases found
    exact same.symm
  · subst same
    exact (Description.classify_files sorted declared unreserved).has

end SchemaCompiler
