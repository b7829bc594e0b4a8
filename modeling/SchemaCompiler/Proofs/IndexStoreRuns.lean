import Mathlib.Data.List.Nodup
import SchemaCompiler.Index.Store

/-! Runs of calls on an index store. Whatever the calls are and whether or not they fail, the
records of a table have names of their own and say which table they are of (`Sound`). What a list
of steps does is followed through the records of one table: drops filter them, creations append
to them, and no step of a table shows in another one. -/
namespace SchemaCompiler

/-- A call that may change an index store. -/
inductive StoreCall where
  | create (index : StoredIndex)
  | drop (table name : String)
  | apply (diff : IndexDiff)
  | migrate (keepUnknown : Bool) (table : String) (plan : Plan)

namespace IndexStore

variable {store after : IndexStore} {index : StoredIndex} {table name : String}

/-- The store that a call leaves behind, be it done or refused. -/
def afterCall (store : IndexStore) : StoreCall → IndexStore
  | .create index =>
    match store.create index with
    | .ok after => after
    | .error _ => store
  | .drop table name =>
    match store.drop table name with
    | .ok after => after
    | .error _ => store
  | .apply diff => (store.apply diff).2
  | .migrate keepUnknown table plan =>
    (StoreMigrator.migrate ⟨store, keepUnknown⟩ table plan).2.store

/-- The store that calls make of an empty one. -/
def afterCalls (calls : List StoreCall) : IndexStore := calls.foldl afterCall {}

/-! ## Single changes -/

theorem create_exact (made : store.create index = .ok after) :
    index.name ∉ store.indexNames index.table ∧
      ∀ probe, after.indexes probe =
        if index.table = probe then store.indexes probe ++ [index] else store.indexes probe := by
  unfold create at made
  split at made
  · contradiction
  · rename_i fresh
    cases made
    refine ⟨fresh, fun probe => ?_⟩
    simp only [indexes, OrderedMap.get?_insert]
    split
    · rename_i same
      simp [same]
    · rfl

theorem create_of_fresh (store : IndexStore) (index : StoredIndex)
    (fresh : index.name ∉ store.indexNames index.table) : ∃ after, store.create index = .ok after := by
  simp [create, fresh]

theorem drop_exact (made : store.drop table name = .ok after) :
    name ∈ store.indexNames table ∧
      ∀ probe, after.indexes probe =
        if table = probe then (store.indexes probe).filter fun index => index.name ≠ name
        else store.indexes probe := by
  unfold drop at made
  split at made
  · contradiction
  · rename_i records found
    split at made
    · rename_i known
      cases made
      refine ⟨by simpa [indexNames, indexes, found] using known, fun probe => ?_⟩
      simp only [indexes, OrderedMap.get?_insert]
      split
      · rename_i same
        simp [← same, found]
      · rfl
    · contradiction

theorem drop_of_known (known : name ∈ store.indexNames table) :
    ∃ after, store.drop table name = .ok after := by
  unfold drop
  cases found : store.tables.get? table with
  | none => simp [indexNames, indexes, found] at known
  | some records =>
    have listed : name ∈ records.map StoredIndex.name := by
      simpa [indexNames, indexes, found] using known
    simp only [listed, ↓reduceIte, Except.ok.injEq, exists_eq']

/-! ## Soundness -/

/-- The records of a table have names of their own and are filed under the table they are of. -/
structure Sound (store : IndexStore) : Prop where
  distinct : ∀ table, (store.indexNames table).Nodup
  filed : ∀ table, ∀ index ∈ store.indexes table, index.table = table

theorem sound_empty : Sound {} where
  distinct _ := .nil
  filed _ _ member := by cases member

theorem Sound.create (sound : store.Sound) (made : store.create index = .ok after) :
    after.Sound := by
  obtain ⟨fresh, records⟩ := create_exact made
  constructor
  · intro probe
    rw [indexNames, records]
    split
    · rename_i same
      subst same
      rw [List.map_append, List.map_singleton, ← List.concat_eq_append]
      exact List.Nodup.concat fresh (sound.distinct _)
    · exact sound.distinct probe
  · intro probe record member
    rw [records] at member
    split at member
    · rename_i same
      rcases List.mem_append.mp member with old | new
      · exact sound.filed probe record old
      · rw [List.mem_singleton.mp new, same]
    · exact sound.filed probe record member

theorem Sound.drop (sound : store.Sound) (made : store.drop table name = .ok after) :
    after.Sound := by
  have records := (drop_exact made).2
  have thinner : ∀ probe, (after.indexes probe).Sublist (store.indexes probe) := by
    intro probe
    rw [records]
    split
    · exact List.filter_sublist
    · exact .refl _
  constructor
  · intro probe
    exact ((thinner probe).map StoredIndex.name).nodup (sound.distinct probe)
  · intro probe record member
    exact sound.filed probe record ((thinner probe).subset member)

theorem Sound.perform {step : IndexStep} (sound : store.Sound)
    (made : store.perform table step = .ok after) : after.Sound := by
  cases step with
  | drop name => exact sound.drop made
  | create entry => exact sound.create made

theorem Sound.run (sound : store.Sound) (steps : List IndexStep) :
    (store.run table steps).2.Sound := by
  induction steps generalizing store with
  | nil => exact sound
  | cons step rest ih =>
    unfold IndexStore.run
    split
    · rename_i middle made
      exact ih (sound.perform made)
    · exact sound

theorem Sound.migrate (sound : store.Sound) (keepUnknown : Bool) (table : String) (plan : Plan) :
    (StoreMigrator.migrate ⟨store, keepUnknown⟩ table plan).2.store.Sound := by
  unfold StoreMigrator.migrate
  split
  · exact sound
  · split
    · exact sound
    · exact sound.run _

theorem Sound.afterCall (sound : store.Sound) (call : StoreCall) : (store.afterCall call).Sound := by
  cases call with
  | create index =>
    cases made : store.create index with
    | ok after => simpa only [IndexStore.afterCall, made] using sound.create made
    | error e => simpa only [IndexStore.afterCall, made] using sound
  | drop table name =>
    cases made : store.drop table name with
    | ok after => simpa only [IndexStore.afterCall, made] using sound.drop made
    | error e => simpa only [IndexStore.afterCall, made] using sound
  | apply diff => exact sound.run _
  | migrate keepUnknown table plan => exact sound.migrate keepUnknown table plan

/-- Soundness holds in every store that calls lead to. -/
theorem sound_afterCalls (calls : List StoreCall) : (afterCalls calls).Sound := by
  suffices ∀ store : IndexStore, store.Sound → (calls.foldl IndexStore.afterCall store).Sound from
    this {} sound_empty
  induction calls with
  | nil => exact fun _ sound => sound
  | cons call rest ih => exact fun store sound => ih _ (sound.afterCall call)

/-! ## Lists of steps -/

/-- Steps are carried out one list after the other, and a failure in the first is final. -/
theorem run_append (store : IndexStore) (table : String) (first second : List IndexStep) :
    store.run table (first ++ second) =
      match store.run table first with
      | (.ok (), middle) => middle.run table second
      | (.error e, middle) => (.error e, middle) := by
  induction first generalizing store with
  | nil => rfl
  | cons step rest ih =>
    simp only [List.cons_append, run]
    cases store.perform table step with
    | ok middle => exact ih middle
    | error e => rfl

/-- No step of a table shows in the records of another one. -/
theorem run_elsewhere (store : IndexStore) (table other : String) (different : other ≠ table)
    (steps : List IndexStep) : (store.run table steps).2.indexes other = store.indexes other := by
  induction steps generalizing store with
  | nil => rfl
  | cons step rest ih =>
    unfold run
    split
    · rename_i middle made
      rw [ih]
      cases step with
      | drop name => rw [(drop_exact made).2, if_neg different.symm]
      | create entry =>
        have elsewhere : (StoredIndex.ofEntry table entry).table ≠ other := different.symm
        rw [(create_exact made).2, if_neg elsewhere]
    · rfl

/-- Drops of distinct names that are all there succeed, and take exactly these names away. -/
theorem run_drops (store : IndexStore) (table : String) {names : List String}
    (distinct : names.Nodup) (known : ∀ name ∈ names, name ∈ store.indexNames table) :
    ∃ after, store.run table (names.map .drop) = (.ok (), after) ∧
      after.indexes table = (store.indexes table).filter fun index => index.name ∉ names := by
  induction names generalizing store with
  | nil => exact ⟨store, rfl, (List.filter_eq_self.mpr (by simp)).symm⟩
  | cons name rest ih =>
    obtain ⟨fresh, distinct⟩ := List.nodup_cons.mp distinct
    obtain ⟨middle, made⟩ := drop_of_known (known name (by simp))
    have records := (drop_exact made).2 table
    rw [if_pos rfl] at records
    -- The later names are still there, because none of them is the one just dropped.
    have left : ∀ later ∈ rest, later ∈ middle.indexNames table := by
      intro later member
      obtain ⟨record, listed, rfl⟩ := List.mem_map.mp (known later (by simp [member]))
      have other : record.name ≠ name := fun same => fresh (same ▸ member)
      rw [indexNames, records]
      exact List.mem_map.mpr ⟨record, List.mem_filter.mpr ⟨listed, by simpa using other⟩, rfl⟩
    obtain ⟨after, ran, thinned⟩ := ih middle distinct left
    refine ⟨after, by simpa only [List.map_cons, run, perform, made] using ran, ?_⟩
    rw [thinned, records, List.filter_filter]
    refine List.filter_congr fun record _ => ?_
    simp [Bool.and_comm]

/-- Creations under distinct names that are all free succeed, and append exactly these records. -/
theorem run_creates (store : IndexStore) (table : String) {entries : List PlanEntry}
    (distinct : (entries.map PlanEntry.name).Nodup)
    (free : ∀ entry ∈ entries, entry.name ∉ store.indexNames table) :
    ∃ after, store.run table (entries.map .create) = (.ok (), after) ∧
      after.indexes table = store.indexes table ++ entries.map (.ofEntry table) := by
  induction entries generalizing store with
  | nil => exact ⟨store, rfl, by simp⟩
  | cons entry rest ih =>
    obtain ⟨fresh, distinct⟩ := List.nodup_cons.mp distinct
    obtain ⟨middle, made⟩ := create_of_fresh store (.ofEntry table entry) (free entry (by simp))
    have records := (create_exact made).2 table
    rw [if_pos (by rfl)] at records
    have left : ∀ later ∈ rest, later.name ∉ middle.indexNames table := by
      intro later member taken
      rw [indexNames, records, List.map_append, List.mem_append] at taken
      rcases taken with old | new
      · exact free later (by simp [member]) old
      · exact fresh (List.mem_map.mpr ⟨later, member, by simpa [StoredIndex.ofEntry] using new⟩)
    obtain ⟨after, ran, appended⟩ := ih middle distinct left
    refine ⟨after, by simpa only [List.map_cons, run, perform, made] using ran, ?_⟩
    rw [appended, records, List.map_cons, List.append_assoc, List.singleton_append]

end IndexStore
end SchemaCompiler
