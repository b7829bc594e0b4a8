import Mathlib.Data.List.Induction
import SchemaCompiler.Proofs.IndexStoreRuns

/-! Diffs that were not drawn up for the store they are carried out on. Names may repeat, be missing
or be taken, so any step may fail, and those before it stay done. Where a diff stops is said of the
records alone (`IndexDiff.Stops`): drops leave what they do not name and creations come last, so
what is there by then needs no account of single steps. -/
namespace SchemaCompiler

/-- The records that drops of names leave. -/
def recordsWithout (records : List StoredIndex) (names : List String) : List StoredIndex :=
  records.filter fun index => index.name ∉ names

/-- Names can be dropped in turn if each of them is there and none comes twice. -/
structure Droppable (records : List StoredIndex) (names : List String) : Prop where
  distinct : names.Nodup
  known : ∀ name ∈ names, name ∈ records.map StoredIndex.name

/-- Entries can be created in turn if the name of each is free and none comes twice. -/
structure Creatable (records : List StoredIndex) (entries : List PlanEntry) : Prop where
  distinct : (entries.map PlanEntry.name).Nodup
  free : ∀ entry ∈ entries, entry.name ∉ records.map StoredIndex.name

/-- The step that stops a diff, with the records that are there by then. -/
inductive IndexDiff.Stops (diff : IndexDiff) (records : List StoredIndex) :
    IndexStep → List StoredIndex → Prop
  /-- Nothing is created yet. -/
  | dropping {earlier : List String} {name : String} {later : List String}
      (listed : diff.drop = earlier ++ name :: later) (dropped : Droppable records earlier)
      (missing : name ∉ (recordsWithout records earlier).map StoredIndex.name) :
      Stops diff records (.drop name) (recordsWithout records earlier)
  | creating {earlier : List PlanEntry} {entry : PlanEntry} {later : List PlanEntry}
      (listed : diff.create = earlier ++ entry :: later) (dropped : Droppable records diff.drop)
      (created : Creatable (recordsWithout records diff.drop) earlier)
      (taken : entry.name ∈ (recordsWithout records diff.drop ++
        earlier.map (StoredIndex.ofEntry diff.table)).map StoredIndex.name) :
      Stops diff records (.create entry)
        (recordsWithout records diff.drop ++ earlier.map (StoredIndex.ofEntry diff.table))

namespace IndexStore

variable {store after : IndexStore} {table : String} {e : MigrationError}

/-! ## Single changes -/

theorem create_refused_iff (store : IndexStore) (index : StoredIndex) :
    (∃ e, store.create index = .error e) ↔ index.name ∈ store.indexNames index.table := by
  by_cases taken : index.name ∈ store.indexNames index.table
  · simp [create, taken]
  · simp [create, taken]

theorem drop_refused_iff (store : IndexStore) (table name : String) :
    (∃ e, store.drop table name = .error e) ↔ name ∉ store.indexNames table := by
  constructor
  · rintro ⟨e, refused⟩ known
    obtain ⟨after, made⟩ := drop_of_known known
    cases refused.symm.trans made
  · intro missing
    cases made : store.drop table name with
    | error e => exact ⟨e, rfl⟩
    | ok after => exact absurd (drop_exact made).1 missing

/-- A creation adds its record if the name is free, and nothing otherwise. -/
theorem indexes_afterCreate (store : IndexStore) (index : StoredIndex) (table : String) :
    (store.afterCall (.create index)).indexes table =
      if index.table = table ∧ index.name ∉ store.indexNames table then
        store.indexes table ++ [index]
      else store.indexes table := by
  cases made : store.create index with
  | error e =>
    have taken := (store.create_refused_iff index).1 ⟨e, made⟩
    have unchanged : ¬ (index.table = table ∧ index.name ∉ store.indexNames table) := by
      rintro ⟨rfl, free⟩
      exact free taken
    rw [if_neg unchanged]
    simp only [afterCall, made]
  | ok after =>
    obtain ⟨free, records⟩ := create_exact made
    simp only [afterCall, made, records]
    by_cases own : index.table = table
    · subst own
      rw [if_pos rfl, if_pos ⟨rfl, free⟩]
    · rw [if_neg own, if_neg fun same => own same.1]

/-- A drop leaves what does not have the name, which is everything if the name is missing. -/
theorem indexes_afterDrop (store : IndexStore) (table name other : String) :
    (store.afterCall (.drop table name)).indexes other =
      if table = other then recordsWithout (store.indexes other) [name]
      else store.indexes other := by
  cases made : store.drop table name with
  | error e =>
    have missing := (store.drop_refused_iff table name).1 ⟨e, made⟩
    simp only [afterCall, made]
    split
    · next same =>
      subst same
      refine (List.filter_eq_self.2 fun index listed => ?_).symm
      have unlike : index.name ≠ name := fun same =>
        missing (List.mem_map.2 ⟨index, listed, same⟩)
      simpa using unlike
    · rfl
  | ok after =>
    simp only [afterCall, made, (drop_exact made).2, recordsWithout, List.mem_singleton]

/-! ## Lists of steps -/

/-- A run that fails has taken the steps before the one that failed, and no other. -/
theorem run_refused {steps : List IndexStep} (refused : store.run table steps = (.error e, after)) :
    ∃ earlier step later, steps = earlier ++ step :: later ∧
      store.run table earlier = (.ok (), after) ∧ after.perform table step = .error e := by
  induction steps generalizing store with
  | nil => cases refused
  | cons step rest ih =>
    unfold run at refused
    cases made : store.perform table step with
    | error e' =>
      rw [made] at refused
      cases refused
      exact ⟨[], step, rest, rfl, rfl, made⟩
    | ok middle =>
      rw [made] at refused
      obtain ⟨earlier, failing, later, rfl, ran, failed⟩ := ih refused
      exact ⟨step :: earlier, failing, later, rfl, by simpa only [run, made] using ran, failed⟩

private theorem run_concat_ok {steps : List IndexStep} {step : IndexStep}
    (ran : store.run table (steps ++ [step]) = (.ok (), after)) :
    ∃ middle, store.run table steps = (.ok (), middle) ∧ middle.perform table step = .ok after := by
  rw [run_append] at ran
  split at ran
  · next middle first =>
    refine ⟨middle, first, ?_⟩
    unfold run at ran
    split at ran
    · next made =>
      cases ran
      exact made
    · cases ran
  · cases ran

/-- Drops that all succeed were of distinct names that are there, and leave what they do not name. -/
private theorem run_drops_ok {names : List String}
    (ran : store.run table (names.map .drop) = (.ok (), after)) :
    Droppable (store.indexes table) names ∧
      after.indexes table = recordsWithout (store.indexes table) names := by
  induction names using List.reverseRecOn generalizing after with
  | nil =>
    cases ran
    exact ⟨⟨.nil, by simp⟩, by simp [recordsWithout]⟩
  | append_singleton names name ih =>
    rw [List.map_append] at ran
    obtain ⟨middle, first, made⟩ := run_concat_ok ran
    obtain ⟨dropped, left⟩ := ih first
    obtain ⟨known, records⟩ := drop_exact made
    rw [indexNames, left] at known
    obtain ⟨index, listed, rfl⟩ := List.mem_map.1 known
    obtain ⟨listed, other⟩ := List.mem_filter.1 listed
    refine ⟨⟨?_, ?_⟩, ?_⟩
    · rw [← List.concat_eq_append]
      exact dropped.distinct.concat (by simpa using other)
    · intro name named
      rcases List.mem_append.1 named with earlier | last
      · exact dropped.known name earlier
      · exact List.mem_singleton.1 last ▸ List.mem_map_of_mem listed
    · rw [records, if_pos rfl, left, recordsWithout, recordsWithout, List.filter_filter]
      refine List.filter_congr fun record _ => ?_
      simp [and_comm]

/-- Creations that all succeed were under distinct names that are free, and come last. -/
private theorem run_creates_ok {entries : List PlanEntry}
    (ran : store.run table (entries.map .create) = (.ok (), after)) :
    Creatable (store.indexes table) entries ∧
      after.indexes table = store.indexes table ++ entries.map (.ofEntry table) := by
  induction entries using List.reverseRecOn generalizing after with
  | nil =>
    cases ran
    exact ⟨⟨.nil, by simp⟩, by simp⟩
  | append_singleton entries entry ih =>
    rw [List.map_append] at ran
    obtain ⟨middle, first, made⟩ := run_concat_ok ran
    obtain ⟨created, records⟩ := ih first
    obtain ⟨free, appended⟩ := create_exact made
    have fresh : entry.name ∉ (store.indexes table ++
        entries.map (StoredIndex.ofEntry table)).map StoredIndex.name := records ▸ free
    rw [List.map_append, List.mem_append, not_or] at fresh
    refine ⟨⟨?_, ?_⟩, ?_⟩
    · rw [List.map_append, List.map_singleton, ← List.concat_eq_append]
      refine created.distinct.concat fun again => fresh.2 ?_
      obtain ⟨other, listed, same⟩ := List.mem_map.1 again
      exact List.mem_map.2 ⟨.ofEntry table other, List.mem_map_of_mem listed, same⟩
    · intro other listed
      rcases List.mem_append.1 listed with earlier | last
      · exact created.free other earlier
      · exact List.mem_singleton.1 last ▸ fresh.1
    · rw [appended, if_pos (by rfl), records, List.map_append, List.append_assoc]
      rfl

/-! ## Diffs -/

/-- A diff that is not carried out completely stops at a step that the store refuses then. -/
private theorem apply_refused {diff : IndexDiff} (refused : store.apply diff = (.error e, after)) :
    ∃ step, diff.Stops (store.indexes diff.table) step (after.indexes diff.table) ∧
      after.perform diff.table step = .error e := by
  rw [apply, IndexDiff.steps, run_append] at refused
  split at refused
  · next middle dropped =>
    obtain ⟨earlier, step, later, split, ran, failed⟩ := run_refused refused
    obtain ⟨entries, rest, listed, rfl, others⟩ := List.map_eq_append_iff.1 split
    obtain ⟨entry, entries', rfl, rfl, -⟩ := List.map_eq_cons_iff.1 others
    obtain ⟨dropped, left⟩ := run_drops_ok dropped
    obtain ⟨created, records⟩ := run_creates_ok ran
    rw [left] at created records
    have taken := (after.create_refused_iff (.ofEntry diff.table entry)).1 ⟨e, failed⟩
    refine ⟨.create entry, ?_, failed⟩
    rw [records]
    refine .creating listed dropped created ?_
    rw [← records]
    exact taken
  · next middle e' stopped =>
    cases refused
    obtain ⟨earlier, step, later, split, ran, failed⟩ := run_refused stopped
    obtain ⟨names, rest, listed, rfl, others⟩ := List.map_eq_append_iff.1 split
    obtain ⟨name, names', rfl, rfl, -⟩ := List.map_eq_cons_iff.1 others
    obtain ⟨dropped, left⟩ := run_drops_ok ran
    have missing := (after.drop_refused_iff diff.table name).1 ⟨e, failed⟩
    refine ⟨.drop name, ?_, failed⟩
    rw [left]
    refine .dropping listed dropped ?_
    rw [← left]
    exact missing

/-- A diff that is carried out completely leaves what it does not drop, and adds what it creates. -/
private theorem apply_ok {diff : IndexDiff} (ran : store.apply diff = (.ok (), after)) :
    Droppable (store.indexes diff.table) diff.drop ∧
      Creatable (recordsWithout (store.indexes diff.table) diff.drop) diff.create ∧
      after.indexes diff.table = recordsWithout (store.indexes diff.table) diff.drop ++
        diff.create.map (.ofEntry diff.table) := by
  rw [apply, IndexDiff.steps, run_append] at ran
  split at ran
  · next middle dropped =>
    obtain ⟨dropped, left⟩ := run_drops_ok dropped
    obtain ⟨created, records⟩ := run_creates_ok ran
    rw [left] at created records
    exact ⟨dropped, created, records⟩
  · cases ran

/-- In every store that calls lead to, be they done or refused, the records of a table have names of
their own and are filed under the table they are of. A creation is refused exactly if its name is
taken and a drop exactly if its name is missing, and what is refused changes nothing. Any diff at
all changes the records of its own table only. It is carried out completely, or else stops at a step
that is refused, with the steps before it done and no other: at a drop nothing is created yet, and
at a creation all drops are done. -/
theorem store_calls_exact (calls : List StoreCall) :
    let store := afterCalls calls
    store.Sound ∧
    (∀ index,
      ((∃ e, store.create index = .error e) ↔ index.name ∈ store.indexNames index.table) ∧
      (∀ e, store.create index = .error e →
        ∀ table, (store.afterCall (.create index)).indexes table = store.indexes table) ∧
      ∀ table, (store.afterCall (.create index)).indexes table =
        if index.table = table ∧ index.name ∉ store.indexNames table then
          store.indexes table ++ [index]
        else store.indexes table) ∧
    (∀ table name,
      ((∃ e, store.drop table name = .error e) ↔ name ∉ store.indexNames table) ∧
      (∀ e, store.drop table name = .error e →
        ∀ other, (store.afterCall (.drop table name)).indexes other = store.indexes other) ∧
      ∀ other, (store.afterCall (.drop table name)).indexes other =
        if table = other then recordsWithout (store.indexes other) [name]
        else store.indexes other) ∧
    ∀ diff : IndexDiff,
      let outcome := store.apply diff
      let records := store.indexes diff.table
      (∀ other, other ≠ diff.table → outcome.2.indexes other = store.indexes other) ∧
      (∀ e, outcome.1 = .error e → ∃ step,
        diff.Stops records step (outcome.2.indexes diff.table) ∧
        outcome.2.perform diff.table step = .error e) ∧
      (outcome.1 = .ok () →
        Droppable records diff.drop ∧ Creatable (recordsWithout records diff.drop) diff.create ∧
        outcome.2.indexes diff.table =
          recordsWithout records diff.drop ++ diff.create.map (.ofEntry diff.table)) := by
  intro store
  refine ⟨sound_afterCalls calls, fun index => ?_, fun table name => ?_, fun diff => ?_⟩
  · refine ⟨store.create_refused_iff index, fun e refused table => ?_,
      store.indexes_afterCreate index⟩
    simp only [afterCall, refused]
  · refine ⟨store.drop_refused_iff table name, fun e refused other => ?_,
      store.indexes_afterDrop table name⟩
    simp only [afterCall, refused]
  · intro outcome records
    refine ⟨fun other different => store.run_elsewhere diff.table other different diff.steps,
      fun e refused => apply_refused ?_, fun done => apply_ok ?_⟩
    · exact Prod.ext refused rfl
    · exact Prod.ext done rfl

end IndexStore

namespace Stale

/-- A store with one index, which the diff below drops. -/
def calls : List StoreCall := [.create ⟨"by_size", "notes", ["size"], .empty⟩]

def byTitle : PlanEntry := ⟨"by_title", ["title"], .empty⟩

/-- The second creation of the name cannot be carried out. -/
def diff : IndexDiff := ⟨"notes", [byTitle, byTitle], ["by_size"], []⟩

theorem store_calls_exact_stale :
    ∃ e step, ((IndexStore.afterCalls calls).apply diff).1 = .error e ∧
      let after := ((IndexStore.afterCalls calls).apply diff).2
      after.indexNames "notes" = ["by_title"] ∧
      diff.Stops ((IndexStore.afterCalls calls).indexes "notes") step (after.indexes "notes") := by
  have names : ((IndexStore.afterCalls calls).apply diff).2.indexNames "notes" = ["by_title"] := by
    decide +kernel
  cases refused : ((IndexStore.afterCalls calls).apply diff).1 with
  | ok =>
    have gone : ((IndexStore.afterCalls calls).apply diff).1.toBool = false := by decide +kernel
    rw [refused] at gone
    cases gone
  | error e =>
    obtain ⟨step, stops, -⟩ := ((IndexStore.store_calls_exact calls).2.2.2 diff).2.1 e refused
    exact ⟨e, step, rfl, names, stops⟩

end Stale
end SchemaCompiler
