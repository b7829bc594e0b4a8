import Mathlib.Data.List.Forall2
import Mathlib.Data.Prod.Basic
import SchemaCompiler.Proofs.CacheCoherence
import SchemaCompiler.Proofs.FieldMembers

/-! Resolving mixins that differ in members from which no field is made. One classifier sorts all
members, so what is said of it is that the fields come from the field-like ones alone
(`Description.classify_fieldMembers`). Two lists of mixins are then resolved in lockstep: whatever
relation between states is preserved by looking up, hitting, counting and keeping, resolving
preserves it (`resolveMixins_lockstep`). Equality is such a relation if the descriptions keep their
identities. If they go by others, caches hold the same fields under other identities
(`Lockstep.translates`). -/
namespace SchemaCompiler

open Effect

variable {κ α β : Type}

/-! ## Sorting, seen in part -/

namespace Classification

variable {table : String} {lookup : TableLookup}

/-- Two classifications that look alike still do when the same members are placed in both, and
members that do not show at all can be left out. -/
theorem foldlM_seen {view : Classification κ → β} {shows : String × Member κ → Bool}
    (alike : ∀ (c c' : Classification κ) declared, view c = view c' →
      (c.add table lookup declared).map view = (c'.add table lookup declared).map view)
    {members : List (String × Member κ)}
    (hidden : ∀ declared ∈ members, shows declared = false → ∀ c : Classification κ,
      (c.add table lookup declared).map view = .ok (view c))
    {c c' : Classification κ} (same : view c = view c') :
    (members.foldlM (add table lookup) c).map view =
      ((members.filter shows).foldlM (add table lookup) c').map view := by
  induction members generalizing c c' with
  | nil => exact congrArg Except.ok same
  | cons declared rest ih =>
    rw [List.forall_mem_cons] at hidden
    rw [List.foldlM_cons]
    cases shown : shows declared with
    | true =>
      rw [List.filter_cons_of_pos shown, List.foldlM_cons]
      have placed := alike c c' declared same
      cases first : c.add table lookup declared with
      | error refusal =>
        rw [first] at placed
        rw [map_eq_error_iff.1 placed.symm]
        rfl
      | ok middle =>
        rw [first] at placed
        obtain ⟨middle', second, same'⟩ := map_eq_ok_iff.1 placed.symm
        rw [second]
        exact ih hidden.2 same'.symm
    | false =>
      rw [List.filter_cons_of_neg (by simp [shown])]
      obtain ⟨middle, first, passed⟩ := map_eq_ok_iff.1 (hidden.1 shown c)
      rw [first]
      exact ih hidden.2 (passed.trans same)

/-- What a member adds to the fields does not depend on what there is. -/
private theorem add_fields_seen (c : Classification κ) (declared : String × Member κ) :
    (c.add table lookup declared).map fields =
      ((({} : Classification κ).add table lookup declared).map fields).map (c.fields ++ ·) := by
  obtain ⟨name, member⟩ := declared
  simp only [add]
  split
  · simp [Except.map]
  · cases Phase.ofName? name with
    | some phase => cases member <;> simp [Except.map]
    | none =>
      cases member with
      | field field =>
        simp only [addMember, addField]
        split <;> simp [Except.map]
      | tableMethod callback =>
        simp only [addMember]
        split <;> simp [Except.map]
      | _ => simp [addMember, Except.map]

end Classification

/-- Every member that makes no field can be placed. -/
def Description.PlacesRest (description : Description κ) (lookup : TableLookup) : Prop :=
  ∀ declared ∈ description.members.entries, isFieldMember declared = false →
    Placeable lookup declared

section Classify

variable {description : Description κ} {table : String} {lookup : TableLookup}

/-- The fields of a classification come from the field-like members alone. -/
theorem Description.classify_fieldMembers (rest : description.PlacesRest lookup) :
    (description.classify table lookup).map Classification.fields =
      (description.ownFieldMembers.foldlM (Classification.add table lookup) {}).map
        Classification.fields := by
  refine Classification.foldlM_seen (fun c c' declared same => ?_)
    (fun declared listed other c => ?_) rfl
  · rw [Classification.add_fields_seen, Classification.add_fields_seen c', same]
  · obtain ⟨after, added⟩ :=
      (Classification.add_ok_iff table c).2 (rest declared listed other)
    obtain ⟨fields, same, made⟩ := (Classification.placed_of_add added).makes
    rw [List.filter_cons_of_neg (by simp [other])] at made
    cases made
    rw [added]
    exact congrArg Except.ok (same.trans (List.append_nil _))

end Classify

/-! ## Mixins that make the same fields -/

/-- Descriptions of one name whose own members make the same fields, with an identity that a function
translates into that of the other. What members they have besides can be placed. -/
structure Description.MakesSame (lookup : TableLookup) (rename : Nat → Nat)
    (mixin other : Description κ) : Prop where
  identity : other.identity = rename mixin.identity
  name : other.name = mixin.name
  fieldMembers : other.ownFieldMembers = mixin.ownFieldMembers
  places : mixin.PlacesRest lookup
  places' : other.PlacesRest lookup

/-- Mixins that one by one make the same fields, in the same arrangement at every depth. -/
inductive AlikeMixins (lookup : TableLookup) (rename : Nat → Nat) :
    List (Description κ) → List (Description κ) → Prop
  | nil : AlikeMixins lookup rename [] []
  | cons {mixin other : Description κ} {rest others : List (Description κ)}
      (same : mixin.MakesSame lookup rename other)
      (below : AlikeMixins lookup rename mixin.mixins other.mixins)
      (later : AlikeMixins lookup rename rest others) :
      AlikeMixins lookup rename (mixin :: rest) (other :: others)

mutual

/-- A description reduced to its field-like members, and so are its mixins, under identities that a
function translates. -/
def Description.stripped (rename : Nat → Nat) : Description κ → Description κ
  | ⟨identity, name, members, mixins⟩ =>
    ⟨rename identity, name, members.filter fun name member => isFieldMember (name, member),
      strippedMixins rename mixins⟩

def strippedMixins (rename : Nat → Nat) : List (Description κ) → List (Description κ)
  | [] => []
  | mixin :: rest => mixin.stripped rename :: strippedMixins rename rest

end

private theorem Description.ownFieldMembers_stripped (rename : Nat → Nat)
    (description : Description κ) :
    (description.stripped rename).ownFieldMembers = description.ownFieldMembers := by
  obtain ⟨identity, name, members, mixins⟩ := description
  rw [Description.stripped]
  exact List.filter_filter.trans (congrArg (members.entries.filter ·) (funext fun _ => Bool.and_self _))

/-- What is left of mixins when all but their field-like members is removed is alike, if what is
removed could be placed. That mixins are alike any, themselves for one, says as much. -/
theorem AlikeMixins.stripped {lookup : TableLookup} {rename : Nat → Nat}
    {mixins others : List (Description κ)} (alike : AlikeMixins lookup rename mixins others)
    (renameAgain : Nat → Nat) :
    AlikeMixins lookup renameAgain mixins (strippedMixins renameAgain mixins) := by
  induction alike with
  | nil =>
    rw [strippedMixins]
    exact .nil
  | @cons mixin _ _ _ same _ _ below later =>
    have fieldMembers := mixin.ownFieldMembers_stripped renameAgain
    have places := same.places
    obtain ⟨identity, name, members, mixins⟩ := mixin
    rw [strippedMixins]
    rw [Description.stripped] at fieldMembers ⊢
    refine .cons ⟨rfl, rfl, fieldMembers, places, fun declared listed other => ?_⟩ below later
    simp only [OrderedMap.filter, List.mem_filter] at listed
    exact absurd listed.2 (by simp [other])

/-! ## Resolving in lockstep -/

/-- A relation between states that looking up, hitting, counting and keeping preserve while mixins
are resolved. -/
structure Lockstep (database : String) (rename : Nat → Nat)
    (related : ResolveState → ResolveState → Prop) : Prop where
  looks : ∀ {state other}, related state other → ∀ identity,
    (other.cache.entries.get? (database, rename identity)).map Signature.fields =
      (state.cache.entries.get? (database, identity)).map Signature.fields
  hit : ∀ {state other}, related state other →
    related { state with cache := state.cache.hit } { other with cache := other.cache.hit }
  counted : ∀ {state other}, related state other →
    related { state with fieldSources := state.fieldSources + 1 }
      { other with fieldSources := other.fieldSources + 1 }
  kept : ∀ {state other}, related state other → ∀ identity name fields,
    related { state with cache := (state.cache.keep database identity name fields).2 }
      { other with cache := (other.cache.keep database (rename identity) name fields).2 }

section Lockstep

variable {database : String} {lookup : TableLookup} {rename : Nat → Nat}
  {related : ResolveState → ResolveState → Prop}

private theorem compileSource_lockstep (lockstep : Lockstep database rename related)
    (identity : Nat) (name : String) (fields : List FieldDefinition) {state other : ResolveState}
    (same : related state other) :
    Twins related (fun signature signature' => signature'.fields = signature.fields)
      (Resolve.compileSource database identity name fields state)
      (Resolve.compileSource database (rename identity) name fields other) := by
  rw [compileSource_run, compileSource_run]
  cases repeatedField? name fields with
  | some refusal => exact .refused (lockstep.counted same)
  | none => exact .granted rfl (lockstep.kept (lockstep.counted same) identity name fields)

/-- A mixin comes to the same fields from related states, if those below it do. -/
theorem Description.resolve_lockstep (lockstep : Lockstep database rename related)
    {mixin other : Description κ} (alike : mixin.MakesSame lookup rename other)
    (below : ∀ {state state' : ResolveState}, related state state' →
      Twins related (· = ·) (resolveMixins database lookup mixin.mixins state)
        (resolveMixins database lookup other.mixins state'))
    {state state' : ResolveState} (same : related state state') :
    Twins related (fun signature signature' => signature'.fields = signature.fields)
      (mixin.resolve database lookup state) (other.resolve database lookup state') := by
  -- Either both are cached or neither is.
  have looks := lockstep.looks same mixin.identity
  rw [← alike.identity] at looks
  cases found : state.cache.entries.get? (database, mixin.identity) with
  | some signature =>
    rw [found] at looks
    obtain ⟨signature', found', fields⟩ := Option.map_eq_some_iff.1 looks
    rw [resolve_hit mixin state found, resolve_hit other state' found']
    exact .granted fields (lockstep.hit same)
  | none =>
    rw [found] at looks
    have sorted : (other.classify other.name lookup).map Classification.fields =
        (mixin.classify mixin.name lookup).map Classification.fields := by
      rw [Description.classify_fieldMembers alike.places',
        Description.classify_fieldMembers alike.places, alike.fieldMembers, alike.name]
    rw [resolve_miss mixin state found, resolve_miss other state' (Option.map_eq_none_iff.1 looks)]
    cases first : mixin.classify mixin.name lookup with
    | error refusal =>
      rw [first] at sorted
      rw [map_eq_error_iff.1 sorted]
      exact .refused same
    | ok own =>
      rw [first] at sorted
      obtain ⟨own', second, fields⟩ := map_eq_ok_iff.1 sorted
      have nested := below same
      rw [second]
      dsimp only
      generalize resolveMixins database lookup mixin.mixins state = ran at nested ⊢
      generalize resolveMixins database lookup other.mixins state' = ran' at nested ⊢
      cases nested with
      | refused same => exact .refused same
      | granted agrees same =>
        subst agrees
        dsimp only
        rw [fields, alike.name, alike.identity]
        exact compileSource_lockstep lockstep mixin.identity mixin.name _ same

/-- Alike mixins come to the same fields from related states. -/
theorem resolveMixins_lockstep (lockstep : Lockstep database rename related)
    {mixins others : List (Description κ)} (alike : AlikeMixins lookup rename mixins others)
    {state state' : ResolveState} (same : related state state') :
    Twins related (· = ·) (resolveMixins database lookup mixins state)
      (resolveMixins database lookup others state') := by
  induction alike generalizing state state' with
  | nil =>
    rw [resolveMixins_nil, resolveMixins_nil]
    exact .granted rfl same
  | cons alike _ _ below later =>
    rw [resolveMixins, resolveMixins]
    refine (Description.resolve_lockstep lockstep alike below same).bind
      fun fields same => (later same).bind fun agrees same => ?_
    exact .granted (by rw [fields, agrees]) same

end Lockstep

/-- Descriptions that keep their identities leave one state. -/
theorem Lockstep.same (database : String) : Lockstep database id (· = ·) where
  looks := by
    rintro state _ rfl identity
    rfl
  hit := by
    rintro state _ rfl
    rfl
  counted := by
    rintro state _ rfl
    rfl
  kept := by
    rintro state _ rfl identity name fields
    rfl

/-! ## Other identities -/

/-- Maps with the same number of entries, whose keys a function translates in their order and whose
values are related. -/
def OrderedMap.Translates {α' β' : Type} (rename : α → α') (related : β → β' → Prop)
    (map : OrderedMap α β) (other : OrderedMap α' β') : Prop :=
  List.Forall₂ (fun entry entry' => entry'.1 = rename entry.1 ∧ related entry.2 entry'.2)
    map.entries other.entries

namespace OrderedMap.Translates

variable {α' β' : Type} [DecidableEq α] [DecidableEq α'] {rename : α → α'} {related : β → β' → Prop}
  {map : OrderedMap α β} {other : OrderedMap α' β'}

theorem get? (injective : Function.Injective rename) (translates : map.Translates rename related other)
    (key : α) : Option.Rel related (map.get? key) (other.get? (rename key)) := by
  obtain ⟨entries, distinct⟩ := map
  obtain ⟨entries', distinct'⟩ := other
  simp only [Translates, OrderedMap.get?] at translates ⊢
  clear distinct distinct'
  induction translates with
  | nil => exact .none
  | @cons entry entry' _ _ here _ ih =>
    obtain ⟨k, v⟩ := entry
    obtain ⟨_, v'⟩ := entry'
    obtain ⟨rfl, values⟩ := here
    simp only [Entries.get?, injective.eq_iff]
    split
    · exact .some values
    · exact ih

theorem insert (injective : Function.Injective rename)
    (translates : map.Translates rename related other) (key : α) {value : β} {value' : β'}
    (values : related value value') :
    (map.insert key value).Translates rename related (other.insert (rename key) value') := by
  obtain ⟨entries, distinct⟩ := map
  obtain ⟨entries', distinct'⟩ := other
  simp only [Translates, OrderedMap.insert] at translates ⊢
  clear distinct distinct'
  induction translates with
  | nil => exact .cons ⟨rfl, values⟩ .nil
  | @cons entry entry' _ _ here later ih =>
    obtain ⟨k, v⟩ := entry
    obtain ⟨_, v'⟩ := entry'
    obtain ⟨rfl, found⟩ := here
    simp only [Entries.insert, injective.eq_iff]
    split
    · exact .cons ⟨rfl, values⟩ later
    · exact .cons ⟨rfl, found⟩ ih

end OrderedMap.Translates

/-- Caches that hold the same fields in the same order, under identities that a function
translates. -/
def SignatureCache.Translates (rename : Nat → Nat) (cache other : SignatureCache) : Prop :=
  cache.entries.Translates (Prod.map id rename)
    (fun signature signature' => signature'.fields = signature.fields) other.entries

/-- States in which as many field sources were asked for, and caches hold the same fields. -/
structure ResolveState.Translates (rename : Nat → Nat) (state other : ResolveState) : Prop where
  cache : state.cache.Translates rename other.cache
  fieldSources : other.fieldSources = state.fieldSources

/-- Descriptions that go by other identities, each by one of its own, leave the same fields. -/
theorem Lockstep.translates (database : String) {rename : Nat → Nat}
    (injective : Function.Injective rename) :
    Lockstep database rename (ResolveState.Translates rename) where
  looks {state other} same identity := by
    have found := OrderedMap.Translates.get? (Function.injective_id.prodMap injective) same.cache
      (database, identity)
    change Option.Rel _ _ (other.cache.entries.get? (database, rename identity)) at found
    generalize state.cache.entries.get? (database, identity) = signature at found ⊢
    generalize other.cache.entries.get? (database, rename identity) = signature' at found ⊢
    cases found with
    | some fields => exact congrArg some fields
    | none => rfl
  hit same := ⟨same.cache, same.fieldSources⟩
  counted same := ⟨same.cache, congrArg (· + 1) same.fieldSources⟩
  kept same identity _ _ := ⟨OrderedMap.Translates.insert
    (Function.injective_id.prodMap injective) same.cache (database, identity) rfl, same.fieldSources⟩

end SchemaCompiler
