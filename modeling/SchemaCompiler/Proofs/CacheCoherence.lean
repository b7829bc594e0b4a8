import Mathlib.Data.List.Count
import SchemaCompiler.Proofs.EffectRuns
import SchemaCompiler.Proofs.SignatureExpansion

/-! A signature cache against expansion without one. What a cache holds was left behind by other
parents, by calls that failed later on, and before evictions of other databases, so the invariant
(`Coherent`) speaks about each entry alone: the signature it was compiled from, and that this
signature can still be expanded at every lookup ahead. Resolving keeps it
(`Description.resolve_exact`), and a run of resolves, evictions and clearings follows
(`cache_run_exact`). The history of a cache is what the databases were asked for and built
(`Asks.compiled_eq`). -/
namespace SchemaCompiler

open Effect

variable {κ : Type}

/-! ## What resolving does, step by step -/

section Steps

variable {database : String} {lookup : TableLookup}

theorem compileSource_run (identity : Nat) (name : String)
    (fields : List FieldDefinition) (state : ResolveState) :
    Resolve.compileSource database identity name fields state =
      match repeatedField? name fields with
      | some refusal => (.error (.layer refusal), { state with fieldSources := state.fieldSources + 1 })
      | none =>
        (.ok (state.cache.keep database identity name fields).1,
          ⟨(state.cache.keep database identity name fields).2, state.fieldSources + 1⟩) := by
  simp only [Resolve.compileSource, bind_run, modify_run, fieldSource_eq]
  cases repeatedField? name fields <;> rfl

theorem resolve_hit (description : Description κ) (state : ResolveState)
    {signature : Signature}
    (found : state.cache.entries.get? (database, description.identity) = some signature) :
    description.resolve database lookup state =
      (.ok signature, { state with cache := state.cache.hit }) := by
  obtain ⟨identity, name, members, mixins⟩ := description
  simp only [Description.resolve, bind_run, get_run, found, modify_run, pure_run]

/-- A signature that is not cached is put together in three steps, each of which may be refused. -/
theorem resolve_compiles (description : Description κ) (state : ResolveState)
    (absent : state.cache.entries.get? (database, description.identity) = none) :
    description.resolve database lookup state =
      (do
        let own ← (description.classify description.name lookup : Resolve (Classification κ))
        let nested ← resolveMixins database lookup description.mixins
        Resolve.compileSource database description.identity description.name
          (own.fields ++ nested)) state := by
  obtain ⟨identity, name, members, mixins⟩ := description
  simp only [Description.resolve, bind_run, get_run, absent]

theorem resolve_miss (description : Description κ) (state : ResolveState)
    (absent : state.cache.entries.get? (database, description.identity) = none) :
    description.resolve database lookup state =
      match description.classify description.name lookup with
      | .error refusal => (.error refusal, state)
      | .ok own =>
        match resolveMixins database lookup description.mixins state with
        | (.error refusal, after) => (.error refusal, after)
        | (.ok nested, after) =>
          Resolve.compileSource database description.identity description.name
            (own.fields ++ nested) after := by
  rw [resolve_compiles description state absent, bind_run, lift_run]
  cases description.classify description.name lookup with
  | error refusal => rfl
  | ok own =>
    dsimp only
    rw [bind_run]
    cases resolveMixins database lookup description.mixins state using outcome_cases <;> rfl

theorem resolveMixins_nil (state : ResolveState) :
    resolveMixins database lookup ([] : List (Description κ)) state = (.ok [], state) := by
  simp only [resolveMixins, pure_run]

theorem resolveMixins_cons_eq (mixin : Description κ) (rest : List (Description κ)) :
    resolveMixins database lookup (mixin :: rest) = do
      let signature ← mixin.resolve database lookup
      let fields ← resolveMixins database lookup rest
      return signature.fields ++ fields := by
  rw [resolveMixins]

theorem resolveMixins_cons (mixin : Description κ) (rest : List (Description κ))
    (state : ResolveState) :
    resolveMixins database lookup (mixin :: rest) state =
      match mixin.resolve database lookup state with
      | (.error refusal, middle) => (.error refusal, middle)
      | (.ok signature, middle) =>
        match resolveMixins database lookup rest middle with
        | (.error refusal, after) => (.error refusal, after)
        | (.ok fields, after) => (.ok (signature.fields ++ fields), after) := by
  rw [resolveMixins_cons_eq, bind_run]
  cases mixin.resolve database lookup state using outcome_cases with
  | error refusal => rfl
  | ok signature middle =>
    dsimp only
    rw [bind_run]
    cases resolveMixins database lookup rest middle using outcome_cases <;> rfl

end Steps

/-! ## The signatures in play -/

/-- A family of descriptions that has the mixins of its members. Within it an identity belongs to
one description only. -/
structure Catalogue (κ : Type) where
  Lists : Description κ → Prop
  closed : ∀ description, Lists description → ∀ mixin ∈ description.mixins, Lists mixin
  identified : ∀ a b, Lists a → Lists b → a.identity = b.identity → a = b

/-- Whether all that one lookup resolves for a listed description is resolved by the other. -/
def Catalogue.Lasts (catalogue : Catalogue κ) (earlier later : TableLookup) : Prop :=
  ∀ description, catalogue.Lists description → description.Lasts earlier later

/-- Two outcomes with the same refusal, or with the same fields up to their validators. -/
def SameFields : Except BuildError (List FieldDefinition) →
    Except BuildError (List FieldDefinition) → Prop
  | .ok fields, .ok others => fields.map FieldDefinition.bare = others.map FieldDefinition.bare
  | .error refusal, .error other => refusal = other
  | _, _ => False

namespace SameFields

variable {expected outcome : Except BuildError (List FieldDefinition)}

theorem symm (same : SameFields expected outcome) : SameFields outcome expected := by
  cases expected <;> cases outcome <;> first | exact Eq.symm same | exact same.elim

theorem of_error {refusal : BuildError} (same : SameFields expected (.error refusal)) :
    expected = .error refusal := by
  cases expected with
  | error other => exact congrArg Except.error same
  | ok fields => exact same.elim

theorem of_ok {others : List FieldDefinition} (same : SameFields expected (.ok others)) :
    ∃ fields, expected = .ok fields ∧
      fields.map FieldDefinition.bare = others.map FieldDefinition.bare := by
  cases expected with
  | error refusal => exact same.elim
  | ok fields => exact ⟨fields, rfl, same⟩

end SameFields

/-! ## Coherence -/

/-- Every entry was compiled from a listed description, which every lookup ahead of its database
can expand. -/
def Coherent (catalogue : Catalogue κ) (ahead : String → TableLookup → Prop)
    (cache : SignatureCache) : Prop :=
  ∀ database identity signature, cache.entries.get? (database, identity) = some signature →
    ∃ description, catalogue.Lists description ∧ description.identity = identity ∧
      signature.fields.map FieldDefinition.bare = description.declared ∧
      ∀ lookup, ahead database lookup → ∃ fields, description.expand lookup = .ok fields

/-- The history of compilations grew by what the cache holds for a database and did not hold
before, each once. Nothing it held is gone. -/
def Grows (database : String) (before after : SignatureCache) : Prop :=
  ∃ fresh, after.compiled = fresh ++ before.compiled ∧
    ∀ identity, fresh.count (database, identity) + (before.contains database identity).toNat =
      (after.contains database identity).toNat

/-- What an entry that was not there before was compiled from. -/
def AddedBelow (catalogue : Catalogue κ) (bound : Nat) (database : String)
    (before after : SignatureCache) : Prop :=
  ∀ identity, after.contains database identity = true → before.contains database identity = true ∨
    ∃ description, catalogue.Lists description ∧ description.identity = identity ∧
      sizeOf description < bound

theorem AddedBelow.trans {catalogue : Catalogue κ} {bound larger : Nat} {database : String}
    {before middle after : SignatureCache}
    (first : AddedBelow catalogue bound database before middle)
    (second : AddedBelow catalogue larger database middle after) (smaller : bound ≤ larger) :
    AddedBelow catalogue larger database before after := by
  intro identity held
  rcases second identity held with held | added
  · refine (first identity held).imp_right ?_
    rintro ⟨description, listed, own, small⟩
    exact ⟨description, listed, own, by omega⟩
  · exact Or.inr added

theorem AddedBelow.refl {catalogue : Catalogue κ} {bound : Nat} {database : String}
    (cache : SignatureCache) : AddedBelow catalogue bound database cache cache :=
  fun _ held => Or.inl held

namespace Grows

variable {database : String} {before middle after : SignatureCache}

theorem of_same
    (held : ∀ identity, after.contains database identity = before.contains database identity)
    (history : after.compiled = before.compiled) : Grows database before after :=
  ⟨[], history, fun identity => by simp [held identity]⟩

theorem trans (first : Grows database before middle) (second : Grows database middle after) :
    Grows database before after := by
  obtain ⟨early, history, counted⟩ := first
  obtain ⟨late, history', counted'⟩ := second
  refine ⟨late ++ early, by rw [history', history, List.append_assoc], fun identity => ?_⟩
  rw [List.count_append]
  have := counted identity
  have := counted' identity
  omega

/-- Nothing is compiled twice while the cache grows. -/
theorem count_le_one (grows : Grows database before after) :
    ∃ fresh, after.compiled = fresh ++ before.compiled ∧
      ∀ identity, fresh.count (database, identity) ≤ 1 := by
  obtain ⟨fresh, history, counted⟩ := grows
  refine ⟨fresh, history, fun identity => ?_⟩
  have := counted identity
  have := Bool.toNat_le (after.contains database identity)
  omega

end Grows

section Cache

variable {cache : SignatureCache} {database identity name} {fields : List FieldDefinition}

theorem SignatureCache.get?_keep (probe : String × Nat) :
    (cache.keep database identity name fields).2.entries.get? probe =
      if (database, identity) = probe then some (cache.keep database identity name fields).1
      else cache.entries.get? probe :=
  cache.entries.get?_insert (database, identity) probe _

theorem SignatureCache.contains_keep (other : String) (probe : Nat) :
    (cache.keep database identity name fields).2.contains other probe =
      (decide ((database, identity) = (other, probe)) || cache.contains other probe) := by
  simp only [SignatureCache.contains, OrderedMap.contains, SignatureCache.get?_keep]
  split <;> simp [*]

/-- Keeping a signature that is not there adds one entry and one compilation. -/
theorem Grows.keep (other : String) (absent : cache.contains database identity = false) :
    Grows other cache (cache.keep database identity name fields).2 := by
  refine ⟨[(database, identity)], rfl, fun probe => ?_⟩
  rw [SignatureCache.contains_keep, List.count_singleton]
  by_cases own : (database, identity) = (other, probe)
  · cases own
    simp [absent]
  · simp [own]

end Cache

namespace Coherent

variable {catalogue : Catalogue κ} {ahead fewer : String → TableLookup → Prop}
  {cache : SignatureCache}

theorem empty : Coherent catalogue ahead {} :=
  fun _ _ _ found => nomatch found

/-- Entries outlast the lookups that are done. -/
theorem mono (sound : Coherent catalogue ahead cache)
    (covered : ∀ database lookup, fewer database lookup → ahead database lookup) :
    Coherent catalogue fewer cache := by
  intro database identity signature found
  obtain ⟨description, listed, own, declared, expands⟩ := sound database identity signature found
  exact ⟨description, listed, own, declared,
    fun lookup due => expands lookup (covered database lookup due)⟩

theorem evict (sound : Coherent catalogue ahead cache) (database : String) :
    Coherent catalogue ahead (cache.evict database) := by
  intro other identity signature found
  rw [SignatureCache.evict, OrderedMap.get?_filter, Option.filter_eq_some_iff] at found
  exact sound other identity signature found.1

theorem clear : Coherent catalogue ahead cache.clear :=
  fun _ _ _ found => nomatch found

/-- A signature whose expansion lasts can be kept. -/
theorem keep (sound : Coherent catalogue ahead cache) {database : String}
    {description : Description κ} {fields : List FieldDefinition}
    (listed : catalogue.Lists description)
    (declared : fields.map FieldDefinition.bare = description.declared)
    (expands : ∀ lookup, ahead database lookup → ∃ fields, description.expand lookup = .ok fields) :
    Coherent catalogue ahead (cache.keep database description.identity description.name fields).2 := by
  intro other identity signature found
  rw [SignatureCache.get?_keep] at found
  by_cases own : (database, description.identity) = (other, identity)
  · rw [if_pos own] at found
    cases own
    cases found
    exact ⟨description, listed, rfl, declared, expands⟩
  · rw [if_neg own] at found
    exact sound other identity signature found

end Coherent

/-! ## Resolving against a coherent cache -/

/-- What it takes of a run of the cache to be as if there was none: the outcome agrees with the
expansion, the cache stays coherent and grows by signatures smaller than the bound. -/
structure Resolved (catalogue : Catalogue κ) (ahead : String → TableLookup → Prop)
    (database : String) (bound : Nat) (before : ResolveState)
    (expected : Except BuildError (List FieldDefinition))
    (outcome : Except BuildError (List FieldDefinition)) (after : ResolveState) : Prop where
  agrees : SameFields expected outcome
  coherent : Coherent catalogue ahead after.cache
  grows : ∀ other, Grows other before.cache after.cache
  added : AddedBelow catalogue bound database before.cache after.cache

/-- Resolving a signature leaves it in the cache exactly if it succeeds. -/
structure SignatureResolved (catalogue : Catalogue κ) (ahead : String → TableLookup → Prop)
    (database : String) (lookup : TableLookup) (description : Description κ)
    (before : ResolveState) (outcome : Except BuildError Signature × ResolveState) : Prop where
  resolved : Resolved catalogue ahead database (sizeOf description + 1) before
    (description.expand lookup) (outcome.1.map Signature.fields) outcome.2
  cached : outcome.2.cache.contains database description.identity = outcome.1.isOk

section Resolving

variable {catalogue : Catalogue κ} {ahead : String → TableLookup → Prop} {database : String}
  {lookup : TableLookup}

private theorem resolveMixins_exact (bound : Nat) (mixins : List (Description κ))
    (below : ∀ mixin ∈ mixins, sizeOf mixin < bound ∧
      ∀ state : ResolveState, Coherent catalogue ahead state.cache →
        SignatureResolved catalogue ahead database lookup mixin state
          (mixin.resolve database lookup state))
    (state : ResolveState) (sound : Coherent catalogue ahead state.cache) :
    Resolved catalogue ahead database bound state (expandMixins lookup mixins)
      (resolveMixins database lookup mixins state).1 (resolveMixins database lookup mixins state).2 := by
  induction mixins generalizing state with
  | nil =>
    rw [resolveMixins_nil, expandMixins]
    exact ⟨rfl, sound, fun _ => Grows.of_same (fun _ => rfl) rfl, .refl state.cache⟩
  | cons mixin rest ih =>
    rw [List.forall_mem_cons] at below
    obtain ⟨⟨small, here⟩, others⟩ := below
    have first := (here state sound).resolved
    rw [resolveMixins_cons, expandMixins]
    generalize mixin.resolve database lookup state = run at first ⊢
    have firstAdded : AddedBelow catalogue bound database state.cache run.2.cache :=
      first.added.trans (.refl run.2.cache) small
    cases run using outcome_cases with
    | error refusal middle =>
      have begun : mixin.expand lookup = .error refusal := first.agrees.of_error
      simp only [begun]
      exact ⟨rfl, first.coherent, first.grows, firstAdded⟩
    | ok signature middle =>
      obtain ⟨fields, begun, same⟩ := SameFields.of_ok first.agrees
      have later := ih others middle first.coherent
      have grows := fun other => (first.grows other).trans (later.grows other)
      have added := firstAdded.trans later.added (Nat.le_refl _)
      simp only [begun]
      generalize resolveMixins database lookup rest middle = run at later grows added ⊢
      cases run using outcome_cases with
      | error refusal after =>
        simp only [later.agrees.of_error]
        exact ⟨rfl, later.coherent, grows, added⟩
      | ok nested after =>
        obtain ⟨more, ended, same'⟩ := later.agrees.of_ok
        simp only [ended]
        refine ⟨?_, later.coherent, grows, added⟩
        simp only [SameFields, List.map_append, same, same']

private theorem resolve_hit_exact (now : ahead database lookup) (description : Description κ)
    (listed : catalogue.Lists description) (state : ResolveState)
    (sound : Coherent catalogue ahead state.cache) {signature : Signature}
    (found : state.cache.entries.get? (database, description.identity) = some signature) :
    SignatureResolved catalogue ahead database lookup description state
      (description.resolve database lookup state) := by
  obtain ⟨other, otherListed, own, declared, expands⟩ := sound _ _ signature found
  obtain rfl := catalogue.identified other description otherListed listed own
  obtain ⟨fields, expanded⟩ := expands lookup now
  rw [resolve_hit other state found]
  refine ⟨⟨?_, sound, fun _ => Grows.of_same (fun _ => rfl) rfl, .refl state.cache⟩, ?_⟩
  · rw [expanded]
    exact (Description.expand_declared other expanded).trans declared.symm
  · simp [SignatureCache.contains, SignatureCache.hit, OrderedMap.contains, found, Except.isOk,
      Except.toBool]

/-- The last step of a miss, after the signature's own members and its mixins. -/
private theorem compileSource_exact
    (lasts : ∀ later, ahead database later → catalogue.Lasts lookup later)
    {description : Description κ} (listed : catalogue.Lists description) {own : Classification κ}
    (sorted : description.classify description.name lookup = .ok own) {before after : ResolveState}
    {nested : List FieldDefinition}
    (below : Resolved catalogue ahead database (sizeOf description) before
      (expandMixins lookup description.mixins) (.ok nested) after)
    (absent : after.cache.contains database description.identity = false) :
    SignatureResolved catalogue ahead database lookup description before
      (Resolve.compileSource database description.identity description.name
        (own.fields ++ nested) after) := by
  have added : AddedBelow catalogue (sizeOf description + 1) database before.cache after.cache :=
    below.added.trans (.refl after.cache) (Nat.le_succ _)
  obtain ⟨fields, ended, same⟩ := below.agrees.of_ok
  have same' : (own.fields ++ fields).map FieldDefinition.bare =
      (own.fields ++ nested).map FieldDefinition.bare := by
    rw [List.map_append, List.map_append, same]
  rw [compileSource_run, ← repeatedField?_bare description.name same']
  cases repeated : repeatedField? description.name (own.fields ++ fields) with
  | some refusal =>
    refine ⟨⟨?_, below.coherent, below.grows, added⟩, absent⟩
    simp [Description.expand_eq, sorted, ended, repeated, SameFields, Except.map]
  | none =>
    have expanded : description.expand lookup = .ok (own.fields ++ fields) :=
      Description.expand_ok_iff.mpr ⟨own, fields, sorted, ended, repeated, rfl⟩
    refine ⟨⟨?_, ?_, ?_, ?_⟩, ?_⟩
    · rw [expanded]
      exact same'
    · refine below.coherent.keep listed ?_ fun later due => ?_
      · rw [← same', Description.expand_declared description expanded]
      · exact Description.expand_lasts catalogue.closed (lasts later due) description listed
          ⟨_, expanded⟩
    · exact fun other => (below.grows other).trans (Grows.keep other absent)
    · intro identity held
      rw [SignatureCache.contains_keep, Bool.or_eq_true, decide_eq_true_iff] at held
      rcases held with own | held
      · cases own
        exact Or.inr ⟨description, listed, rfl, Nat.lt_succ_self _⟩
      · exact added identity held
    · rw [SignatureCache.contains_keep]
      simp [Except.isOk, Except.toBool]

/-- Against a coherent cache a signature resolves to what it expands to, refusal or fields, and is
then cached if it was not refused. The cache stays coherent, and nothing it holds is compiled
again. -/
theorem Description.resolve_exact (now : ahead database lookup)
    (lasts : ∀ later, ahead database later → catalogue.Lasts lookup later)
    (description : Description κ) (listed : catalogue.Lists description) (state : ResolveState)
    (sound : Coherent catalogue ahead state.cache) :
    SignatureResolved catalogue ahead database lookup description state
      (description.resolve database lookup state) := by
  induction description using Description.mixin_induction generalizing state with
  | step description below =>
    cases found : state.cache.entries.get? (database, description.identity) with
    | some signature => exact resolve_hit_exact now description listed state sound found
    | none =>
      have absent : state.cache.contains database description.identity = false := by
        simp [SignatureCache.contains, OrderedMap.contains, found]
      rw [resolve_miss description state found]
      cases sorted : description.classify description.name lookup with
      | error refusal =>
        refine ⟨⟨?_, sound, fun _ => Grows.of_same (fun _ => rfl) rfl, .refl state.cache⟩, absent⟩
        simp [Description.expand_eq, sorted, SameFields, Except.map]
      | ok own =>
        have nested := resolveMixins_exact (sizeOf description) description.mixins
          (fun mixin isMixin => ⟨Description.sizeOf_mixin isMixin, fun state' =>
            below mixin isMixin (catalogue.closed description listed mixin isMixin) state'⟩)
          state sound
        dsimp only
        generalize resolveMixins database lookup description.mixins state = run at nested ⊢
        -- The mixins are smaller than the signature, so none of them has its identity.
        have absent' : run.2.cache.contains database description.identity = false := by
          refine Bool.eq_false_iff.mpr fun held => ?_
          rcases nested.added description.identity held with held | ⟨other, otherListed, same, small⟩
          · rw [absent] at held
            cases held
          · obtain rfl := catalogue.identified other description otherListed listed same
            omega
        cases run using outcome_cases with
        | ok fields after => exact compileSource_exact lasts listed sorted nested absent'
        | error refusal after =>
          refine ⟨⟨?_, nested.coherent, nested.grows,
            nested.added.trans (.refl after.cache) (Nat.le_succ _)⟩, absent'⟩
          simp [Description.expand_eq, sorted, nested.agrees.of_error, SameFields, Except.map]

/-- Mixins resolve to what they expand to, one after the other. -/
theorem resolveMixins_agrees (now : ahead database lookup)
    (lasts : ∀ later, ahead database later → catalogue.Lasts lookup later)
    {mixins : List (Description κ)} (listed : ∀ mixin ∈ mixins, catalogue.Lists mixin)
    (state : ResolveState) (sound : Coherent catalogue ahead state.cache) :
    SameFields (expandMixins lookup mixins) (resolveMixins database lookup mixins state).1 := by
  refine (resolveMixins_exact (sizeOf mixins) mixins (fun mixin isMixin => ?_) state sound).agrees
  exact ⟨List.sizeOf_lt_of_mem isMixin, fun state' sound' =>
    Description.resolve_exact now lasts mixin (listed mixin isMixin) state' sound'⟩

end Resolving

/-! ## Field sources -/

/-- What the steps of a run do to its state: a signature is found in the cache, or the database is
asked for a field source. The definitions it is asked with are listed in turn, with the identities
of their signatures. -/
inductive Asks (database : String) :
    ResolveState → List (Nat × TableDefinition) → ResolveState → Prop where
  | done (state : ResolveState) : Asks database state [] state
  | hit {before asked after}
      (rest : Asks database { before with cache := before.cache.hit } asked after) :
      Asks database before asked after
  | source (identity : Nat) (name : String) (fields : List FieldDefinition) {before asked after}
      (rest : Asks database (Resolve.compileSource database identity name fields before).2
        asked after) :
      Asks database before ((identity, { name, fields }) :: asked) after

/-- The signatures whose field source was built when it was asked for, the latest first. -/
def builtSources (database : String) (asked : List (Nat × TableDefinition)) :
    List (String × Nat) :=
  ((asked.filter fun source => source.2.fieldSource.isOk).map fun source =>
    (database, source.1)).reverse

/-- What the database answers to one request is the outcome. The request is counted, and the history
has an entry for it exactly if the field source was built. -/
theorem compileSource_answer (database : String) (identity : Nat) (name : String)
    (fields : List FieldDefinition) (before : ResolveState) :
    let definition : TableDefinition := { name, fields }
    let outcome := Resolve.compileSource database identity name fields before
    outcome.1.map Signature.fields = definition.fieldSource.mapError .layer ∧
      outcome.2.fieldSources = before.fieldSources + 1 ∧
      outcome.2.cache.compiled =
        (if definition.fieldSource.isOk then [(database, identity)] else []) ++
          before.cache.compiled := by
  simp only [compileSource_run, fieldSource_eq]
  cases repeatedField? name fields <;> exact ⟨rfl, rfl, rfl⟩

namespace Asks

variable {database : String} {lookup : TableLookup} {before middle after : ResolveState}
  {asked more : List (Nat × TableDefinition)}

theorem trans (first : Asks database before asked middle)
    (second : Asks database middle more after) : Asks database before (asked ++ more) after := by
  induction first with
  | done => exact second
  | hit rest ih => exact .hit (ih second)
  | source identity name fields rest ih => exact .source identity name fields (ih second)

/-- The history grows by the field sources that were built, and by nothing else. -/
theorem compiled_eq (asks : Asks database before asked after) :
    after.fieldSources = before.fieldSources + asked.length ∧
      after.cache.compiled = builtSources database asked ++ before.cache.compiled := by
  induction asks with
  | done => exact ⟨rfl, rfl⟩
  | hit rest ih => exact ih
  | source identity name fields rest ih =>
    obtain ⟨-, counted, history⟩ := compileSource_answer database identity name fields _
    rw [counted, history] at ih
    refine ⟨by rw [ih.1, List.length_cons]; omega, ih.2.trans ?_⟩
    rw [builtSources, builtSources, List.filter_cons]
    split <;> simp [*]

/-- What one mixin after the other asks for. -/
theorem resolveMixins {mixins : List (Description κ)}
    (each : ∀ mixin ∈ mixins, ∀ state, ∃ asked,
      Asks database state asked (mixin.resolve database lookup state).2) (state : ResolveState) :
    ∃ asked,
      Asks database state asked (SchemaCompiler.resolveMixins database lookup mixins state).2 := by
  induction mixins generalizing state with
  | nil =>
    rw [resolveMixins_nil]
    exact ⟨[], .done state⟩
  | cons mixin rest ih =>
    rw [List.forall_mem_cons] at each
    rw [resolveMixins_cons_eq]
    refine bind_keeps (P := (∃ asked, Asks database state asked ·)) (each.1 state) ?_
    rintro signature middle ⟨asked, first⟩
    refine bind_keeps (P := (∃ asked, Asks database state asked ·)) ?_ fun _ _ kept => kept
    obtain ⟨more, second⟩ := ih each.2 middle
    exact ⟨asked ++ more, first.trans second⟩

theorem resolve (description : Description κ) (state : ResolveState) :
    ∃ asked, Asks database state asked (description.resolve database lookup state).2 := by
  induction description using Description.mixin_induction generalizing state with
  | step description below =>
    cases found : state.cache.entries.get? (database, description.identity) with
    | some signature =>
      rw [resolve_hit description state found]
      exact ⟨[], .hit (.done _)⟩
    | none =>
      rw [resolve_compiles description state found]
      refine bind_keeps (P := (∃ asked, Asks database state asked ·)) ⟨[], .done state⟩ ?_
      rintro own sorted ⟨asked, before⟩
      obtain ⟨more, nested⟩ := resolveMixins below sorted
      refine bind_keeps (P := (∃ asked, Asks database state asked ·)) ⟨_, before.trans nested⟩ ?_
      rintro fields after ⟨all, asks⟩
      exact ⟨_, asks.trans (.source description.identity description.name _ (.done _))⟩

end Asks

/-! ## Runs -/

/-- A call on a signature cache. Of a database a resolve sees what can be looked up at that moment,
and counts on from the field sources it was asked for so far. -/
inductive CacheCall (κ : Type) where
  | resolve (database : String) (lookup : TableLookup) (fieldSources : Nat)
      (signature : Description κ)
  | evict (database : String)
  | clear

namespace SignatureCache

/-- The cache after a call. -/
def afterCall (cache : SignatureCache) : CacheCall κ → SignatureCache
  | .resolve database lookup fieldSources signature =>
    (signature.resolve database lookup ⟨cache, fieldSources⟩).2.cache
  | .evict database => cache.evict database
  | .clear => cache.clear

/-- The cache after calls, the first one first. -/
def afterCalls (cache : SignatureCache) (calls : List (CacheCall κ)) : SignatureCache :=
  calls.foldl afterCall cache

end SignatureCache

theorem SignatureCache.afterCalls_append (cache : SignatureCache) (earlier later : List (CacheCall κ)) :
    cache.afterCalls (earlier ++ later) = (cache.afterCalls earlier).afterCalls later :=
  List.foldl_append

/-- Whether what the first of two calls resolved for a database resolves again in the second. -/
def CacheCall.Lasts (catalogue : Catalogue κ) : CacheCall κ → CacheCall κ → Prop
  | .resolve database earlier _ _, .resolve other later _ _ =>
    database = other → catalogue.Lasts earlier later
  | _, _ => True

/-- A run within a catalogue: only listed signatures are resolved, and a requirement that resolved
once for a database resolves again for it. -/
structure Catalogue.Admits (catalogue : Catalogue κ) (calls : List (CacheCall κ)) : Prop where
  listed : ∀ database lookup fieldSources signature,
    .resolve database lookup fieldSources signature ∈ calls → catalogue.Lists signature
  lasting : calls.Pairwise (CacheCall.Lasts catalogue)

theorem Catalogue.Admits.tail {catalogue : Catalogue κ} {call : CacheCall κ}
    {later : List (CacheCall κ)} (admits : catalogue.Admits (call :: later)) :
    catalogue.Admits later :=
  ⟨fun _ _ _ _ member => admits.listed _ _ _ _ (List.mem_cons_of_mem _ member),
    (List.pairwise_cons.mp admits.lasting).2⟩

theorem Catalogue.Admits.drop {catalogue : Catalogue κ} {earlier later : List (CacheCall κ)}
    (admits : catalogue.Admits (earlier ++ later)) : catalogue.Admits later := by
  induction earlier with
  | nil => exact admits
  | cons call rest ih => exact ih admits.tail

/-- The lookups that calls use for a database. -/
def LookedUp (calls : List (CacheCall κ)) (database : String) (lookup : TableLookup) : Prop :=
  ∃ fieldSources signature, .resolve database lookup fieldSources signature ∈ calls

namespace Coherent

variable {catalogue : Catalogue κ} {cache : SignatureCache}

/-- A resolve that is due, against a cache that is coherent for it and the calls to come. -/
private theorem resolve_due {database : String} {lookup : TableLookup} {fieldSources : Nat}
    {signature : Description κ} {later : List (CacheCall κ)}
    (admits : catalogue.Admits (.resolve database lookup fieldSources signature :: later))
    (sound : Coherent catalogue
      (LookedUp (.resolve database lookup fieldSources signature :: later)) cache) :
    SignatureResolved catalogue
      (LookedUp (.resolve database lookup fieldSources signature :: later)) database lookup signature
      ⟨cache, fieldSources⟩ (signature.resolve database lookup ⟨cache, fieldSources⟩) := by
  refine Description.resolve_exact ⟨fieldSources, signature, List.mem_cons_self⟩ ?_ signature
    (admits.listed _ _ _ _ List.mem_cons_self) ⟨cache, fieldSources⟩ sound
  rintro again ⟨count, other, member⟩
  rcases List.mem_cons.mp member with same | member
  · cases same
    exact fun _ _ _ _ _ _ _ validator made => ⟨validator, made⟩
  · exact (List.pairwise_cons.mp admits.lasting).1 _ member rfl

theorem afterCall {call : CacheCall κ} {later : List (CacheCall κ)}
    (admits : catalogue.Admits (call :: later))
    (sound : Coherent catalogue (LookedUp (call :: later)) cache) :
    Coherent catalogue (LookedUp later) (cache.afterCall call) := by
  have next : Coherent catalogue (LookedUp (call :: later)) (cache.afterCall call) := by
    cases call with
    | resolve database lookup fieldSources signature =>
      exact (sound.resolve_due admits).resolved.coherent
    | evict database => exact sound.evict database
    | clear => exact Coherent.clear
  exact next.mono fun _ _ ⟨count, signature, due⟩ =>
    ⟨count, signature, List.mem_cons_of_mem _ due⟩

/-- Every run within a catalogue leaves the cache coherent for the calls to come. -/
theorem afterCalls {earlier later : List (CacheCall κ)}
    (admits : catalogue.Admits (earlier ++ later))
    (sound : Coherent catalogue (LookedUp (earlier ++ later)) cache) :
    Coherent catalogue (LookedUp later) (cache.afterCalls earlier) := by
  induction earlier generalizing cache with
  | nil => exact sound
  | cons call rest ih => exact ih admits.tail (sound.afterCall admits)

end Coherent

/-- Of a database that no call evicts the cache keeps all it has. -/
theorem Grows.afterCalls {catalogue : Catalogue κ} {cache : SignatureCache} {database : String}
    {span later : List (CacheCall κ)} (admits : catalogue.Admits (span ++ later))
    (sound : Coherent catalogue (LookedUp (span ++ later)) cache)
    (keeps : ∀ call ∈ span, call ≠ .evict database ∧ call ≠ .clear) :
    Grows database cache (cache.afterCalls span) := by
  induction span generalizing cache with
  | nil => exact Grows.of_same (fun _ => rfl) rfl
  | cons call rest ih =>
    rw [List.forall_mem_cons] at keeps
    have grows : Grows database cache (cache.afterCall call) := by
      cases call with
      | resolve other lookup fieldSources signature =>
        exact (sound.resolve_due admits).resolved.grows database
      | evict other =>
        have distinct : database ≠ other := fun same => keeps.1.1 (same ▸ rfl)
        refine Grows.of_same (fun identity => ?_) rfl
        simp [SignatureCache.afterCall, SignatureCache.contains, SignatureCache.evict,
          OrderedMap.contains, OrderedMap.get?_filter, distinct]
      | clear => exact absurd rfl keeps.1.2
    exact grows.trans (ih admits.tail (sound.afterCall admits) keeps.2)

/-- A run of a signature cache from its creation on, over any databases and any signatures with
their mixins at any depth.

Every resolve is refused as the expansion without a cache is refused at that moment, or gives the
same fields: the signature's own in declaration order, then those of each mixin in listed order. It
leaves the signature cached exactly if it is not refused. The history grows by the signatures whose
field source was built meanwhile, an entry for each time. As long as a database is not evicted and
the cache not cleared, it has each signature of that database at most once. An eviction leaves the
entries of other databases. -/
theorem cache_run_exact (catalogue : Catalogue κ) (calls : List (CacheCall κ))
    (admits : catalogue.Admits calls) :
    (∀ earlier database lookup fieldSources signature later,
      calls = earlier ++ .resolve database lookup fieldSources signature :: later →
      let before := SignatureCache.afterCalls {} earlier
      let outcome := signature.resolve database lookup ⟨before, fieldSources⟩
      SameFields (signature.expand lookup) (outcome.1.map Signature.fields) ∧
        (∀ compiled, outcome.1 = .ok compiled →
          compiled.fields.map FieldDefinition.bare = signature.declared) ∧
        outcome.2.cache.contains database signature.identity = outcome.1.isOk ∧
        ∃ asked, Asks database ⟨before, fieldSources⟩ asked outcome.2 ∧
          outcome.2.fieldSources = fieldSources + asked.length ∧
          outcome.2.cache.compiled = builtSources database asked ++ before.compiled) ∧
    (∀ earlier span later database, calls = earlier ++ span ++ later →
      (∀ call ∈ span, call ≠ .evict database ∧ call ≠ .clear) →
      ∃ fresh,
        (SignatureCache.afterCalls {} (earlier ++ span)).compiled =
          fresh ++ (SignatureCache.afterCalls {} earlier).compiled ∧
        ∀ identity, fresh.count (database, identity) ≤ 1) ∧
    (∀ earlier database later, calls = earlier ++ .evict database :: later →
      ∀ other identity, other ≠ database →
        (SignatureCache.afterCalls {} (earlier ++ [.evict database])).entries.get? (other, identity) =
          (SignatureCache.afterCalls {} earlier).entries.get? (other, identity)) := by
  refine ⟨?_, ?_, ?_⟩
  · rintro earlier database lookup fieldSources signature later rfl
    have step := (Coherent.empty.afterCalls admits).resolve_due admits.drop
    obtain ⟨asked, asks⟩ := Asks.resolve signature _
    refine ⟨step.resolved.agrees, ?_, step.cached, asked, asks, asks.compiled_eq⟩
    intro compiled ran
    have agrees := step.resolved.agrees
    rw [ran] at agrees
    obtain ⟨fields, expanded, same⟩ := SameFields.of_ok agrees
    rw [← same, Description.expand_declared signature expanded]
  · rintro earlier span later database rfl keeps
    rw [List.append_assoc] at admits
    rw [SignatureCache.afterCalls_append]
    exact (Grows.afterCalls admits.drop (Coherent.empty.afterCalls admits) keeps).count_le_one
  · rintro earlier database later rfl other identity distinct
    rw [SignatureCache.afterCalls_append]
    generalize SignatureCache.afterCalls {} earlier = cache
    change (cache.evict database).entries.get? (other, identity) = _
    rw [SignatureCache.evict, OrderedMap.get?_filter]
    cases cache.entries.get? (other, identity) <;> simp [distinct]

namespace SharedMixin

/-- A signature whose only field has to name a user. -/
def owned : Description Unit :=
  ⟨1, "Owned", .ofList [("owner", .field (Field.untyped.requires (.rowOf "users")))], []⟩

def book : Description Unit := ⟨2, "Book", .empty, [owned]⟩

def page : Description Unit := ⟨3, "Page", .empty, [owned]⟩

def library : Catalogue Unit where
  Lists description := description ∈ [owned, book, page]
  closed description listed mixin isMixin := by
    simp only [List.mem_cons, List.not_mem_nil, or_false] at listed
    rcases listed with rfl | rfl | rfl
    · cases isMixin
    · rw [List.mem_singleton.mp isMixin]
      exact List.mem_cons_self
    · rw [List.mem_singleton.mp isMixin]
      exact List.mem_cons_self
  identified a b listed listed' same := by
    simp only [List.mem_cons, List.not_mem_nil, or_false] at listed listed'
    rcases listed with rfl | rfl | rfl <;> rcases listed' with rfl | rfl | rfl <;>
      first | rfl | cases same

def noTables : TableLookup := fun _ => none

def withUsers : TableLookup := fun name =>
  if name = "users" then some ⟨⟨"main", 0⟩, "users"⟩ else none

/-- The first resolve is too early: there are no users yet. -/
def calls : List (CacheCall Unit) :=
  [.resolve "main" noTables 0 book, .resolve "main" withUsers 0 book,
    .resolve "main" withUsers 2 page, .evict "other"]

private theorem lasts_withUsers (earlier : TableLookup) : library.Lasts earlier withUsers := by
  intro description listed name stored declared requirement asked validator _
  have users : requirement = .rowOf "users" := by
    rcases List.mem_cons.mp listed with rfl | listed
    · cases List.mem_singleton.mp declared
      exact List.mem_singleton.mp asked
    · rcases List.mem_cons.mp listed with rfl | listed
      · cases declared
      · rw [List.mem_singleton.mp listed] at declared
        cases declared
  rw [users]
  exact ⟨.rowOf ⟨⟨"main", 0⟩, "users"⟩, rfl⟩

theorem library_admits : library.Admits calls where
  listed database lookup fieldSources signature member := by
    simp only [calls, List.mem_cons, CacheCall.resolve.injEq, reduceCtorEq, List.not_mem_nil,
      or_false] at member
    rcases member with ⟨-, -, -, rfl⟩ | ⟨-, -, -, rfl⟩ | ⟨-, -, -, rfl⟩ <;> simp [library]
  lasting := by simp [calls, CacheCall.Lasts, lasts_withUsers]

/-- Two parents share a mixin that cannot be resolved at first. Nothing is cached then, and later on
each of the three is compiled once. -/
theorem cache_run_exact_shared :
    library.Admits calls ∧
    (book.resolve "main" noTables ⟨SignatureCache.afterCalls {} ([] : List (CacheCall Unit)), 0⟩
      ).2.cache.contains "main" 2 = false ∧
    (SignatureCache.afterCalls {} calls).compiled = [("main", 3), ("main", 2), ("main", 1)] ∧
    ∃ fresh, (SignatureCache.afterCalls {} calls).compiled = fresh ++ [] ∧
      ∀ identity, fresh.count ("main", identity) ≤ 1 := by
  have exact := cache_run_exact library calls library_admits
  refine ⟨library_admits, ?_, ?_, ?_⟩
  · exact (exact.1 [] "main" noTables 0 book _ rfl).2.2.1
  · rfl
  · refine exact.2.1 [] calls [] "main" (by simp) ?_
    simp [calls]

end SharedMixin

end SchemaCompiler
