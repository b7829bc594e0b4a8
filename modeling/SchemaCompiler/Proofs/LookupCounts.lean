import Mathlib.Data.List.Induction
import SchemaCompiler.Proofs.CacheCoherence

/-! The counts of a signature cache against the lookups that it answered. Lookups nest: resolving a
signature looks up each of its mixins, so `Description.lookups` follows a resolve and notes every
lookup with how it ended. A refused one is in no count, and it takes the one it was made for with it
(`refused_mem_lookups_iff`). So the counts total the lookups of a run back to the last clearing if
and only if none of its resolves was refused since (`counts_exact`). -/
namespace SchemaCompiler

open Effect

variable {κ : Type}

/-! ## The lookups of one resolve -/

/-- How a lookup in a signature cache ends: the signature was there, or it was compiled, or there is
none. -/
inductive LookupEnd where
  | hit
  | miss
  | refused
  deriving DecidableEq, Repr

/-- How a lookup ends that did not find its signature. -/
def LookupEnd.ofOutcome : Except BuildError Signature → LookupEnd
  | .ok _ => .miss
  | .error _ => .refused

mutual

/-- The lookups that resolving a description comes to, in the order in which they begin. -/
def Description.lookups (database : String) (lookup : TableLookup) :
    Description κ → ResolveState → List LookupEnd
  | ⟨identity, name, members, mixins⟩, state =>
    match state.cache.entries.get? (database, identity) with
    | some _ => [.hit]
    | none =>
      .ofOutcome (Description.resolve database lookup ⟨identity, name, members, mixins⟩ state).1 ::
        match (⟨identity, name, members, mixins⟩ : Description κ).classify name lookup with
        | .error _ => []
        | .ok _ => mixinLookups database lookup mixins state

/-- The lookups for mixins, up to the first mixin that is refused. -/
def mixinLookups (database : String) (lookup : TableLookup) :
    List (Description κ) → ResolveState → List LookupEnd
  | [], _ => []
  | mixin :: rest, state =>
    mixin.lookups database lookup state ++
      match mixin.resolve database lookup state with
      | (.ok _, after) => mixinLookups database lookup rest after
      | (.error _, _) => []

end

section Lookups

variable {database : String} {lookup : TableLookup}

private theorem lookups_hit (description : Description κ) (state : ResolveState)
    {signature : Signature}
    (found : state.cache.entries.get? (database, description.identity) = some signature) :
    description.lookups database lookup state = [.hit] := by
  obtain ⟨identity, name, members, mixins⟩ := description
  simp only [Description.lookups, found]

private theorem lookups_miss (description : Description κ) (state : ResolveState)
    (absent : state.cache.entries.get? (database, description.identity) = none) :
    description.lookups database lookup state =
      .ofOutcome (description.resolve database lookup state).1 ::
        match description.classify description.name lookup with
        | .error _ => []
        | .ok _ => mixinLookups database lookup description.mixins state := by
  obtain ⟨identity, name, members, mixins⟩ := description
  simp only [Description.lookups, absent]

private theorem mixinLookups_cons (mixin : Description κ) (rest : List (Description κ))
    (state : ResolveState) :
    mixinLookups database lookup (mixin :: rest) state =
      mixin.lookups database lookup state ++
        match mixin.resolve database lookup state with
        | (.ok _, after) => mixinLookups database lookup rest after
        | (.error _, _) => [] := by
  rw [mixinLookups]

end Lookups

/-! ## What lookups leave in the counts -/

/-- A cache before and after some lookups. -/
structure Counted (before : SignatureCache) (made : List LookupEnd) (after : SignatureCache) :
    Prop where
  hits : after.hits = before.hits + made.count .hit
  misses : after.misses = before.misses + made.count .miss
  size : after.size ≤ before.size + made.count .miss

namespace Counted

variable {before middle after : SignatureCache} {made later : List LookupEnd}

theorem refl (cache : SignatureCache) : Counted cache [] cache := ⟨rfl, rfl, Nat.le_refl _⟩

theorem trans (first : Counted before made middle) (second : Counted middle later after) :
    Counted before (made ++ later) after := by
  obtain ⟨hits, misses, size⟩ := first
  obtain ⟨hits', misses', size'⟩ := second
  constructor
  · rw [List.count_append]; omega
  · rw [List.count_append]; omega
  · rw [List.count_append]; omega

/-- What a lookup compiles it compiles after its mixins, although it began before them. -/
theorem compiled (counted : Counted before (made ++ [.miss]) after) :
    Counted before (.miss :: made) after := by
  obtain ⟨hits, misses, size⟩ := counted
  exact ⟨by simpa using hits, by simpa using misses, by simpa using size⟩

/-- A refused lookup leaves nothing in the counts. -/
theorem refused (counted : Counted before made after) : Counted before (.refused :: made) after := by
  obtain ⟨hits, misses, size⟩ := counted
  exact ⟨by simpa using hits, by simpa using misses, by simpa using size⟩

theorem hit (cache : SignatureCache) : Counted cache [.hit] cache.hit :=
  ⟨rfl, rfl, Nat.le_refl _⟩

theorem keep (cache : SignatureCache) (database : String) (identity : Nat) (name : String)
    (fields : List FieldDefinition) :
    Counted cache [.miss] (cache.keep database identity name fields).2 :=
  ⟨rfl, rfl, cache.entries.size_insert_le (database, identity) _⟩

theorem evict (counted : Counted before made after) (database : String) :
    Counted before made (after.evict database) :=
  ⟨counted.hits, counted.misses, Nat.le_trans (List.length_filter_le _ _) counted.size⟩

end Counted

section Resolving

variable {database : String} {lookup : TableLookup}

private theorem mixinLookups_counted (mixins : List (Description κ))
    (each : ∀ mixin ∈ mixins, ∀ state : ResolveState,
      Counted state.cache (mixin.lookups database lookup state)
        (mixin.resolve database lookup state).2.cache)
    (state : ResolveState) :
    Counted state.cache (mixinLookups database lookup mixins state)
      (resolveMixins database lookup mixins state).2.cache := by
  induction mixins generalizing state with
  | nil =>
    rw [resolveMixins_nil, mixinLookups]
    exact .refl state.cache
  | cons mixin rest ih =>
    rw [List.forall_mem_cons] at each
    have first := each.1 state
    rw [resolveMixins_cons, mixinLookups_cons]
    generalize mixin.resolve database lookup state = run at first ⊢
    cases run using outcome_cases with
    | error refusal middle =>
      rw [List.append_nil]
      exact first
    | ok signature middle =>
      have others := ih each.2 middle
      dsimp only
      generalize resolveMixins database lookup rest middle = run at others ⊢
      cases run using outcome_cases <;> exact first.trans others

/-- Resolving counts its lookups by how they end, and makes room for no more signatures than it
compiles. -/
theorem Description.lookups_counted (description : Description κ) (state : ResolveState) :
    Counted state.cache (description.lookups database lookup state)
      (description.resolve database lookup state).2.cache := by
  induction description using Description.mixin_induction generalizing state with
  | step description below =>
    cases found : state.cache.entries.get? (database, description.identity) with
    | some signature =>
      rw [resolve_hit description state found, lookups_hit description state found]
      exact .hit state.cache
    | none =>
      rw [lookups_miss description state found, resolve_miss description state found]
      cases description.classify description.name lookup with
      | error refusal => exact (Counted.refl state.cache).refused
      | ok own =>
        have nested := mixinLookups_counted description.mixins below state
        dsimp only
        generalize resolveMixins database lookup description.mixins state = run at nested ⊢
        cases run using outcome_cases with
        | error refusal => exact nested.refused
        | ok fields middle =>
          dsimp only
          rw [compileSource_run]
          cases repeatedField? description.name (own.fields ++ fields) with
          | some refusal => exact nested.refused
          | none =>
            exact (nested.trans (.keep middle.cache database description.identity description.name
              (own.fields ++ fields))).compiled

private theorem refused_mem_mixinLookups_iff (mixins : List (Description κ))
    (each : ∀ mixin ∈ mixins, ∀ state : ResolveState,
      .refused ∈ mixin.lookups database lookup state ↔
        (mixin.resolve database lookup state).1.isOk = false)
    (state : ResolveState) :
    .refused ∈ mixinLookups database lookup mixins state ↔
      (resolveMixins database lookup mixins state).1.isOk = false := by
  induction mixins generalizing state with
  | nil =>
    rw [resolveMixins_nil, mixinLookups]
    simp [Except.isOk, Except.toBool]
  | cons mixin rest ih =>
    rw [List.forall_mem_cons] at each
    have first := each.1 state
    rw [resolveMixins_cons, mixinLookups_cons, List.mem_append, first]
    cases mixin.resolve database lookup state using outcome_cases with
    | error refusal => simp [Except.isOk, Except.toBool]
    | ok signature middle =>
      have others := ih each.2 middle
      dsimp only
      rw [others]
      cases resolveMixins database lookup rest middle using outcome_cases <;>
        simp [Except.isOk, Except.toBool]

/-- A lookup of a resolve is refused exactly if the resolve is. -/
theorem Description.refused_mem_lookups_iff (description : Description κ) (state : ResolveState) :
    .refused ∈ description.lookups database lookup state ↔
      (description.resolve database lookup state).1.isOk = false := by
  induction description using Description.mixin_induction generalizing state with
  | step description below =>
    cases found : state.cache.entries.get? (database, description.identity) with
    | some signature =>
      rw [resolve_hit description state found, lookups_hit description state found]
      simp [Except.isOk, Except.toBool]
    | none =>
      have nested := refused_mem_mixinLookups_iff description.mixins below state
      rw [lookups_miss description state found]
      cases ended : (description.resolve database lookup state).1 with
      | error refusal => simp [LookupEnd.ofOutcome, Except.isOk, Except.toBool]
      | ok signature =>
        rw [resolve_miss description state found] at ended
        cases sorted : description.classify description.name lookup with
        | error refusal =>
          rw [sorted] at ended
          cases ended
        | ok own =>
          rw [sorted] at ended
          dsimp only at ended ⊢
          -- As the signature was compiled, so were its mixins.
          have granted : .refused ∉ mixinLookups database lookup description.mixins state := by
            rw [nested]
            generalize resolveMixins database lookup description.mixins state = run at ended
            cases run using outcome_cases with
            | error refusal => cases ended
            | ok fields => exact Bool.noConfusion
          simp [LookupEnd.ofOutcome, Except.isOk, Except.toBool, granted]

end Resolving

/-! ## Runs -/

/-- The lookups made back to the last clearing, once a call is made. -/
def CacheCall.journal (cache : SignatureCache) (made : List LookupEnd) :
    CacheCall κ → List LookupEnd
  | .resolve database lookup fieldSources signature =>
    made ++ signature.lookups database lookup ⟨cache, fieldSources⟩
  | .evict _ => made
  | .clear => []

namespace SignatureCache

/-- The lookups made back to the last clearing, once calls are made, the first one first. -/
def journal (cache : SignatureCache) (made : List LookupEnd) : List (CacheCall κ) → List LookupEnd
  | [] => made
  | call :: later => (cache.afterCall call).journal (call.journal cache made) later

private theorem journal_append (cache : SignatureCache) (made : List LookupEnd)
    (earlier later : List (CacheCall κ)) :
    cache.journal made (earlier ++ later) =
      (cache.afterCalls earlier).journal (cache.journal made earlier) later := by
  induction earlier generalizing cache made with
  | nil => rfl
  | cons call rest ih => exact ih (cache.afterCall call) (call.journal cache made)

/-- A call keeps the counts in step with the journal. Clearing starts both anew. -/
private theorem counted_afterCall {cache : SignatureCache} {made : List LookupEnd}
    (counted : Counted {} made cache) (call : CacheCall κ) :
    Counted {} (call.journal cache made) (cache.afterCall call) := by
  cases call with
  | resolve database lookup fieldSources signature =>
    exact counted.trans (signature.lookups_counted ⟨cache, fieldSources⟩)
  | evict database => exact counted.evict database
  | clear => exact ⟨rfl, rfl, Nat.le_refl _⟩

private theorem counted_afterCalls {cache : SignatureCache} {made : List LookupEnd}
    (counted : Counted {} made cache) (calls : List (CacheCall κ)) :
    Counted {} (cache.journal made calls) (cache.afterCalls calls) := by
  induction calls generalizing cache made with
  | nil => exact counted
  | cons call later ih => exact ih (counted_afterCall counted call)

/-- The journal of a run has a refused lookup exactly if a resolve after the last clearing was
refused. -/
private theorem refused_mem_journal_iff (cache : SignatureCache) (calls : List (CacheCall κ)) :
    .refused ∈ cache.journal [] calls ↔
      ∃ earlier database lookup fieldSources signature later,
        calls = earlier ++ .resolve database lookup fieldSources signature :: later ∧
        .clear ∉ later ∧
        (signature.resolve database lookup ⟨cache.afterCalls earlier, fieldSources⟩).1.isOk =
          false := by
  induction calls using List.reverseRecOn with
  | nil => simp [journal]
  | append_singleton rest call ih =>
    rw [journal_append]
    change .refused ∈ call.journal (cache.afterCalls rest) (cache.journal [] rest) ↔ _
    constructor
    · intro refused
      -- An old refusal counts unless this call clears.
      have old (stays : call ≠ .clear) (before : .refused ∈ cache.journal [] rest) :
          ∃ earlier database lookup fieldSources signature later,
            rest ++ [call] = earlier ++ .resolve database lookup fieldSources signature :: later ∧
            .clear ∉ later ∧
            (signature.resolve database lookup ⟨cache.afterCalls earlier, fieldSources⟩).1.isOk =
              false := by
        obtain ⟨earlier, database, lookup, fieldSources, signature, later, rfl, kept, failed⟩ :=
          ih.1 before
        refine ⟨earlier, database, lookup, fieldSources, signature, later ++ [call], by simp, ?_,
          failed⟩
        rw [List.mem_append, List.mem_singleton]
        exact fun cleared => cleared.elim kept fun same => stays same.symm
      cases call with
      | resolve database lookup fieldSources signature =>
        rcases List.mem_append.1 refused with before | own
        · exact old (by simp) before
        · exact ⟨rest, database, lookup, fieldSources, signature, [], rfl, List.not_mem_nil,
            (signature.refused_mem_lookups_iff _).1 own⟩
      | evict database => exact old (by simp) refused
      | clear => cases refused
    · rintro ⟨earlier, database, lookup, fieldSources, signature, later, split, kept, failed⟩
      rcases List.eq_nil_or_concat later with rfl | ⟨later, last, rfl⟩
      · obtain ⟨rfl, same⟩ := List.append_inj' split rfl
        cases same
        exact List.mem_append_right _ ((signature.refused_mem_lookups_iff _).2 failed)
      · rw [List.concat_eq_append, ← List.cons_append, ← List.append_assoc] at split
        obtain ⟨rfl, same⟩ := List.append_inj' split rfl
        cases same
        simp only [List.concat_eq_append, List.mem_append, List.mem_singleton, not_or] at kept
        have before := ih.2 ⟨earlier, database, lookup, fieldSources, signature, later, rfl, kept.1,
          failed⟩
        cases call with
        | resolve database lookup fieldSources signature => exact List.mem_append_left _ before
        | evict database => exact before
        | clear => exact absurd rfl kept.2

end SignatureCache

theorem LookupEnd.length_eq (made : List LookupEnd) :
    made.length = made.count .hit + made.count .miss + made.count .refused := by
  induction made with
  | nil => rfl
  | cons first rest ih => cases first <;> simp [List.length_cons, ih] <;> omega

/-- Every run of a signature cache from its creation on, over any databases and any signatures with
their mixins at any depth.

Its counts are those of the lookups back to the last clearing that found their signature and of
those that compiled it. Evictions change neither. Together they total the lookups except the refused
ones, and so all of them if and only if no resolve was refused since the last clearing. A cache never
holds more signatures than it counts misses. -/
theorem SignatureCache.counts_exact (calls : List (CacheCall κ)) :
    let cache := SignatureCache.afterCalls {} calls
    let made := SignatureCache.journal {} [] calls
    cache.hits = made.count .hit ∧ cache.misses = made.count .miss ∧
    cache.hits + cache.misses + made.count .refused = made.length ∧
    (cache.hits + cache.misses = made.length ↔
      ∀ earlier database lookup fieldSources signature later,
        calls = earlier ++ .resolve database lookup fieldSources signature :: later →
        .clear ∉ later →
        (signature.resolve database lookup
          ⟨SignatureCache.afterCalls {} earlier, fieldSources⟩).1.isOk = true) ∧
    cache.size ≤ cache.misses := by
  dsimp only
  have counted := SignatureCache.counted_afterCalls (.refl {}) calls
  have total := LookupEnd.length_eq (SignatureCache.journal {} [] calls)
  have hits : (SignatureCache.afterCalls {} calls).hits = _ := counted.hits.trans (Nat.zero_add _)
  have misses : (SignatureCache.afterCalls {} calls).misses = _ :=
    counted.misses.trans (Nat.zero_add _)
  have none_refused : (SignatureCache.afterCalls {} calls).hits +
      (SignatureCache.afterCalls {} calls).misses = (SignatureCache.journal {} [] calls).length ↔
      .refused ∉ SignatureCache.journal {} [] calls := by
    rw [← List.count_eq_zero]
    omega
  refine ⟨hits, misses, by omega, ?_, ?_⟩
  · rw [none_refused, SignatureCache.refused_mem_journal_iff]
    constructor
    · intro granted earlier database lookup fieldSources signature later split kept
      refine eq_true_of_ne_false fun failed => granted ?_
      exact ⟨earlier, database, lookup, fieldSources, signature, later, split, kept, failed⟩
    · rintro granted ⟨earlier, database, lookup, fieldSources, signature, later, split, kept, failed⟩
      have done := granted earlier database lookup fieldSources signature later split kept
      rw [failed] at done
      cases done
  · rw [misses]
    exact Nat.le_trans counted.size (Nat.le_of_eq (Nat.zero_add _))

namespace SharedMixin

/-- The field names a user where there are no users yet: one lookup was made, and none is counted. -/
theorem refused_lookup_uncounted :
    let calls : List (CacheCall Unit) := [.resolve "main" noTables 0 owned]
    let cache := SignatureCache.afterCalls {} calls
    SignatureCache.journal {} [] calls = [.refused] ∧ cache.hits = 0 ∧ cache.misses = 0 ∧
      cache.hits + cache.misses ≠ (SignatureCache.journal {} [] calls).length := by
  decide +kernel

end SharedMixin

end SchemaCompiler
