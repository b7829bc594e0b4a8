import Mathlib.Data.List.Forall2
import SchemaCompiler.Proofs.CacheCoherence
import SchemaCompiler.Proofs.MemberSorting

/-! Which member every field of a signature is made from. A cached signature was resolved earlier,
each of its mixins perhaps at another moment, so a validator that looks rows up may come from any
lookup of its database since. Apart from that a field is what its member says (`Makes`), in the
order of the members, and whether it comes out of a cache makes no difference
(`Description.resolve_faithful`). Other than coherence, this asks of lookups nothing at all. -/
namespace SchemaCompiler

open Effect

variable {κ : Type}

/-! ## Members -/

/-- Whether a member stands for a field: a stored one, a virtual one or a row method. -/
def Member.isFieldLike : Member κ → Bool
  | .field _ | .virtual _ | .method _ => true
  | .hook _ | .tableMethod _ | .index _ | .option _ => false

/-- Whether a declared member stands for a field. Reserved names carry none. -/
def isFieldMember (declared : String × Member κ) : Bool :=
  !isReservedName declared.1 && declared.2.isFieldLike

/-- A description's own field-like members in declaration order. -/
def Description.ownFieldMembers (description : Description κ) : List (String × Member κ) :=
  description.members.entries.filter isFieldMember

mutual

/-- A description's own field-like members, then those of its mixins, one mixin after the other. -/
def Description.fieldMembers : Description κ → List (String × Member κ)
  | ⟨identity, name, members, mixins⟩ =>
    Description.ownFieldMembers ⟨identity, name, members, mixins⟩ ++ mixinFieldMembers mixins

def mixinFieldMembers : List (Description κ) → List (String × Member κ)
  | [] => []
  | mixin :: rest => mixin.fieldMembers ++ mixinFieldMembers rest

end

private theorem Description.fieldMembers_eq (description : Description κ) :
    description.fieldMembers =
      description.ownFieldMembers ++ mixinFieldMembers description.mixins := by
  obtain ⟨identity, name, members, mixins⟩ := description
  rw [Description.fieldMembers]

/-- The field that a member makes. The validators of a stored one are what its requirements resolve
to, in their order, at one of the lookups that were seen. -/
inductive Makes (seen : TableLookup → Prop) : String × Member κ → FieldDefinition → Prop
  | stored {name : String} {field : Field} {lookup : TableLookup} {validators : List Validator}
      (due : seen lookup)
      (made : Requirement.resolveAll lookup field.requirements = .ok validators) :
      Makes seen (name, .field field)
        (.plain { name, typeArgs := field.typeArgs, options := field.options, validators })
  | virtual {name : String} {getter : Getter} :
      Makes seen (name, .virtual getter) (.virtual name getter)
  | method {name : String} {call : RowMethod} : Makes seen (name, .method call) (.method name call)

theorem Makes.mono {seen more : TableLookup → Prop} (covered : ∀ lookup, seen lookup → more lookup)
    {declared : String × Member κ} {field : FieldDefinition} (makes : Makes seen declared field) :
    Makes more declared field := by
  cases makes with
  | stored due made => exact .stored (covered _ due) made
  | virtual => exact .virtual
  | method => exact .method

/-- Fields have the names of the members that make them. -/
theorem Makes.names {seen : TableLookup → Prop} {members : List (String × Member κ)}
    {fields : List FieldDefinition} (made : List.Forall₂ (Makes seen) members fields) :
    fields.map FieldDefinition.name = members.map Prod.fst := by
  induction made with
  | nil => rfl
  | cons makes _ ih => cases makes <;> simp [FieldDefinition.name, ih]

namespace Classification

variable {table : String} {lookup : TableLookup} {c after : Classification κ}

/-- Placing a member adds the field that it makes, if it is field-like, after those before it. -/
theorem Placed.makes {declared : String × Member κ} (placed : Placed lookup c declared after) :
    ∃ fields, after.fields = c.fields ++ fields ∧
      List.Forall₂ (Makes (· = lookup)) ([declared].filter isFieldMember) fields := by
  have nothing (other : isFieldMember declared = false) :
      List.Forall₂ (Makes (· = lookup)) ([declared].filter isFieldMember) [] := by
    rw [List.filter_cons_of_neg (by simp [other])]
    exact .nil
  have one {field : FieldDefinition} (own : isFieldMember declared = true)
      (makes : Makes (· = lookup) declared field) :
      List.Forall₂ (Makes (· = lookup)) ([declared].filter isFieldMember) [field] := by
    rw [List.filter_cons_of_pos own]
    exact .cons makes .nil
  cases placed with
  | field unreserved made =>
    exact ⟨_, rfl, one (by simp [isFieldMember, unreserved, Member.isFieldLike]) (.stored rfl made)⟩
  | virtual unreserved =>
    exact ⟨_, rfl, one (by simp [isFieldMember, unreserved, Member.isFieldLike]) .virtual⟩
  | method unreserved =>
    exact ⟨_, rfl, one (by simp [isFieldMember, unreserved, Member.isFieldLike]) .method⟩
  | skipped reserved => exact ⟨[], by simp, nothing (by simp [isFieldMember, reserved])⟩
  | _ => exact ⟨[], by simp, nothing (by simp [isFieldMember, Member.isFieldLike])⟩

private theorem foldlM_makes {members : List (String × Member κ)}
    (sorted : members.foldlM (add table lookup) c = .ok after) :
    ∃ fields, after.fields = c.fields ++ fields ∧
      List.Forall₂ (Makes (· = lookup)) (members.filter isFieldMember) fields := by
  induction members generalizing c with
  | nil =>
    cases sorted
    exact ⟨[], by simp, .nil⟩
  | cons declared rest ih =>
    rw [List.foldlM_cons] at sorted
    obtain ⟨middle, first, later⟩ := bind_eq_ok_iff.1 sorted
    obtain ⟨field, added, here⟩ := (placed_of_add first).makes
    obtain ⟨fields, added', others⟩ := ih later
    refine ⟨field ++ fields, by rw [added', added, List.append_assoc], ?_⟩
    rw [← List.singleton_append, List.filter_append]
    exact List.rel_append here others

end Classification

/-- A description's own fields are made at the lookup it is sorted with. -/
theorem Description.classify_makes {description : Description κ} {table : String}
    {lookup : TableLookup} {c : Classification κ}
    (sorted : description.classify table lookup = .ok c) :
    List.Forall₂ (Makes (· = lookup)) description.ownFieldMembers c.fields := by
  obtain ⟨fields, same, made⟩ := Classification.foldlM_makes sorted
  rw [List.nil_append] at same
  rwa [same]

/-! ## Caches -/

section Caches

variable {catalogue : Catalogue κ} {seen : String → TableLookup → Prop} {cache : SignatureCache}

/-- Every entry has the fields that a listed description makes, at lookups that were seen. -/
def Faithful (catalogue : Catalogue κ) (seen : String → TableLookup → Prop)
    (cache : SignatureCache) : Prop :=
  ∀ database identity signature, cache.entries.get? (database, identity) = some signature →
    ∃ description, catalogue.Lists description ∧ description.identity = identity ∧
      List.Forall₂ (Makes (seen database)) description.fieldMembers signature.fields

namespace Faithful

theorem empty : Faithful catalogue seen {} := fun _ _ _ found => nomatch found

theorem evict (faithful : Faithful catalogue seen cache) (database : String) :
    Faithful catalogue seen (cache.evict database) := by
  intro other identity signature found
  rw [SignatureCache.evict, OrderedMap.get?_filter, Option.filter_eq_some_iff] at found
  exact faithful other identity signature found.1

theorem clear : Faithful catalogue seen cache.clear := fun _ _ _ found => nomatch found

theorem keep (faithful : Faithful catalogue seen cache) {database : String}
    {description : Description κ} {fields : List FieldDefinition}
    (listed : catalogue.Lists description)
    (made : List.Forall₂ (Makes (seen database)) description.fieldMembers fields) :
    Faithful catalogue seen
      (cache.keep database description.identity description.name fields).2 := by
  intro other identity signature found
  rw [SignatureCache.get?_keep] at found
  by_cases own : (database, description.identity) = (other, identity)
  · rw [if_pos own] at found
    cases own
    cases found
    exact ⟨description, listed, rfl, made⟩
  · rw [if_neg own] at found
    exact faithful other identity signature found

end Faithful

/-- What resolving comes to: a cache that is still faithful and, if it is not refused, the fields
that the members make. -/
structure FaithfullyResolved (catalogue : Catalogue κ) (seen : String → TableLookup → Prop)
    (database : String) (members : List (String × Member κ))
    (outcome : Except BuildError (List FieldDefinition)) (after : ResolveState) : Prop where
  faithful : Faithful catalogue seen after.cache
  made : ∀ fields, outcome = .ok fields → List.Forall₂ (Makes (seen database)) members fields

variable {database : String} {lookup : TableLookup}

private theorem resolveMixins_each {mixins : List (Description κ)}
    (below : ∀ mixin ∈ mixins, ∀ state : ResolveState, Faithful catalogue seen state.cache →
      FaithfullyResolved catalogue seen database mixin.fieldMembers
        ((mixin.resolve database lookup state).1.map Signature.fields)
        (mixin.resolve database lookup state).2)
    (state : ResolveState) (faithful : Faithful catalogue seen state.cache) :
    FaithfullyResolved catalogue seen database (mixinFieldMembers mixins)
      (resolveMixins database lookup mixins state).1
      (resolveMixins database lookup mixins state).2 := by
  induction mixins generalizing state with
  | nil =>
    rw [resolveMixins_nil, mixinFieldMembers]
    refine ⟨faithful, fun fields same => ?_⟩
    cases same
    exact .nil
  | cons mixin rest ih =>
    rw [List.forall_mem_cons] at below
    have first := below.1 state faithful
    rw [resolveMixins_cons, mixinFieldMembers]
    generalize mixin.resolve database lookup state = run at first ⊢
    cases run using outcome_cases with
    | error refusal => exact ⟨first.faithful, fun _ same => nomatch same⟩
    | ok signature middle =>
      have later := ih below.2 middle first.faithful
      dsimp only
      generalize resolveMixins database lookup rest middle = run at later ⊢
      cases run using outcome_cases with
      | error refusal => exact ⟨later.faithful, fun _ same => nomatch same⟩
      | ok fields after =>
        refine ⟨later.faithful, fun all same => ?_⟩
        cases same
        exact List.rel_append (first.made _ rfl) (later.made _ rfl)

/-- Against a faithful cache a signature resolves to the fields that its members and those of its
mixins make, whatever of them is cached, and the cache stays faithful. -/
theorem Description.resolve_faithful (due : seen database lookup) (description : Description κ)
    (listed : catalogue.Lists description) (state : ResolveState)
    (faithful : Faithful catalogue seen state.cache) :
    FaithfullyResolved catalogue seen database description.fieldMembers
      ((description.resolve database lookup state).1.map Signature.fields)
      (description.resolve database lookup state).2 := by
  induction description using Description.mixin_induction generalizing state with
  | step description below =>
    cases found : state.cache.entries.get? (database, description.identity) with
    | some signature =>
      obtain ⟨other, otherListed, same, made⟩ := faithful _ _ signature found
      obtain rfl := catalogue.identified other description otherListed listed same
      rw [resolve_hit other state found]
      refine ⟨faithful, fun fields same => ?_⟩
      cases same
      exact made
    | none =>
      rw [resolve_miss description state found]
      cases sorted : description.classify description.name lookup with
      | error refusal => exact ⟨faithful, fun _ same => nomatch same⟩
      | ok own =>
        have nested := resolveMixins_each (fun mixin isMixin =>
          below mixin isMixin (catalogue.closed description listed mixin isMixin)) state faithful
        dsimp only
        generalize resolveMixins database lookup description.mixins state = run at nested ⊢
        cases run using outcome_cases with
        | error refusal => exact ⟨nested.faithful, fun _ same => nomatch same⟩
        | ok fields after =>
          have all : List.Forall₂ (Makes (seen database)) description.fieldMembers
              (own.fields ++ fields) := by
            rw [Description.fieldMembers_eq]
            refine List.rel_append ?_ (nested.made fields rfl)
            exact (Description.classify_makes sorted).imp fun _ _ makes =>
              makes.mono fun _ same => same ▸ due
          dsimp only
          rw [compileSource_run]
          cases repeatedField? description.name (own.fields ++ fields) with
          | some refusal => exact ⟨nested.faithful, fun _ same => nomatch same⟩
          | none =>
            refine ⟨nested.faithful.keep listed all, fun fields same => ?_⟩
            cases same
            exact all

/-- The mixins of a description are resolved like signatures, one after the other. -/
theorem resolveMixins_faithful (due : seen database lookup) {mixins : List (Description κ)}
    (listed : ∀ mixin ∈ mixins, catalogue.Lists mixin) (state : ResolveState)
    (faithful : Faithful catalogue seen state.cache) :
    FaithfullyResolved catalogue seen database (mixinFieldMembers mixins)
      (resolveMixins database lookup mixins state).1
      (resolveMixins database lookup mixins state).2 :=
  resolveMixins_each (fun mixin isMixin => Description.resolve_faithful due mixin (listed mixin isMixin))
    state faithful

/-- Any run of listed resolves, evictions and clearings leaves a faithful cache faithful. -/
theorem Faithful.afterCalls {calls : List (CacheCall κ)}
    (due : ∀ database lookup fieldSources signature,
      .resolve database lookup fieldSources signature ∈ calls →
        catalogue.Lists signature ∧ seen database lookup)
    (faithful : Faithful catalogue seen cache) :
    Faithful catalogue seen (cache.afterCalls calls) := by
  refine List.foldlRecOn calls SignatureCache.afterCall faithful fun cache faithful call isCall => ?_
  cases call with
  | resolve database lookup fieldSources signature =>
    obtain ⟨listed, now⟩ := due database lookup fieldSources signature isCall
    exact (Description.resolve_faithful now signature listed ⟨cache, fieldSources⟩
      faithful).faithful
  | evict database => exact faithful.evict database
  | clear => exact Faithful.clear

end Caches

end SchemaCompiler
