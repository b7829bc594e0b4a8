import SchemaCompiler.Proofs.IndexStoreRuns
import SchemaCompiler.Proofs.PlanFaults

/-! Reconciling a table's records with a plan. A diff is drawn from a snapshot of the records and
then carried out one step at a time, and each step could fail on its own. None does: a drop names
a record that is there and is named once, and a creation names one that was never there or was
dropped before. What is left is the records that the diff does not drop, followed by those it
creates (`migrate_records`), and a second look finds nothing to do. -/
namespace SchemaCompiler

/-! ## The fate of an entry -/

namespace IndexDiff

variable {existing : List StoredIndex} {entry : PlanEntry} {plan : Plan} {index : StoredIndex}
  {keepUnknown : Bool} {table name : String}

/-- Records with names of their own are found by name. -/
private theorem byName_exact (distinct : (existing.map StoredIndex.name).Nodup) :
    (byName existing).get? name = some index ↔ index ∈ existing ∧ index.name = name := by
  have keys : ((existing.map fun index => (index.name, index)).map Prod.fst).Nodup := by
    rw [List.map_map]
    exact distinct
  rw [byName, OrderedMap.get?_eq_some_iff, OrderedMap.entries_ofList keys, List.mem_map]
  constructor
  · rintro ⟨record, listed, same⟩
    cases same
    exact ⟨listed, rfl⟩
  · rintro ⟨listed, rfl⟩
    exact ⟨index, listed, rfl⟩

theorem fate_kept_iff (distinct : (existing.map StoredIndex.name).Nodup) :
    fateOf existing entry = .kept ↔
      ∃ index ∈ existing, index.name = entry.name ∧ index.fulfils entry := by
  unfold fateOf
  split
  · rename_i found look
    obtain ⟨listed, named⟩ := (byName_exact distinct).mp look
    constructor
    · intro fate
      split at fate
      · exact ⟨found, listed, named, ‹_›⟩
      · contradiction
    · rintro ⟨index, member, same, fulfils⟩
      have unique := ((byName_exact distinct).mpr ⟨member, same⟩).symm.trans look
      cases unique
      rw [if_pos fulfils]
  · rename_i look
    constructor
    · nofun
    · rintro ⟨index, member, same, -⟩
      rw [(byName_exact distinct).mpr ⟨member, same⟩] at look
      contradiction

theorem fate_added_iff (distinct : (existing.map StoredIndex.name).Nodup) :
    fateOf existing entry = .added ↔ entry.name ∉ existing.map StoredIndex.name := by
  unfold fateOf
  split
  · rename_i found look
    obtain ⟨listed, named⟩ := (byName_exact distinct).mp look
    have known : entry.name ∈ existing.map StoredIndex.name :=
      List.mem_map.mpr ⟨found, listed, named⟩
    split <;> simp only [reduceCtorEq, known, not_true_eq_false]
  · rename_i look
    simp only [true_iff]
    intro known
    obtain ⟨index, member, same⟩ := List.mem_map.mp known
    rw [(byName_exact distinct).mpr ⟨member, same⟩] at look
    contradiction

/-- An entry that is not to be kept is created anew under a free name, or in place of a record. -/
private theorem fate_changed (fate : fateOf existing entry ≠ .kept) :
    fateOf existing entry = .added ∨ fateOf existing entry = .replaced := by
  cases judged : fateOf existing entry with
  | kept => contradiction
  | replaced => exact .inr rfl
  | added => exact .inl rfl

private theorem mem_unplanned : name ∈ unplanned existing plan ↔
    name ∈ existing.map StoredIndex.name ∧ name ∉ plan.map PlanEntry.name := by
  simp [unplanned]

/-- A drop is of a record that a plan entry replaces, or of one that no plan entry names. -/
theorem mem_drop : name ∈ (between keepUnknown table existing plan).drop ↔
    (∃ entry ∈ plan, entry.name = name ∧ fateOf existing entry = .replaced) ∨
      (keepUnknown = false ∧ name ∈ existing.map StoredIndex.name ∧
        name ∉ plan.map PlanEntry.name) := by
  simp only [between, List.mem_append, List.mem_map, List.mem_filter, decide_eq_true_eq]
  refine or_congr ?_ ?_
  · constructor
    · rintro ⟨entry, ⟨listed, fate⟩, named⟩
      exact ⟨entry, listed, named, fate⟩
    · rintro ⟨entry, listed, named, fate⟩
      exact ⟨entry, ⟨listed, fate⟩, named⟩
  · cases keepUnknown <;> simp [mem_unplanned]

/-- Only records that are there are dropped. -/
private theorem drop_known (distinct : (existing.map StoredIndex.name).Nodup)
    (dropped : name ∈ (between keepUnknown table existing plan).drop) :
    name ∈ existing.map StoredIndex.name := by
  rcases mem_drop.mp dropped with ⟨entry, -, rfl, fate⟩ | ⟨-, known, -⟩
  · by_contra absent
    rw [(fate_added_iff distinct).mpr absent] at fate
    contradiction
  · exact known

/-- No record is dropped twice: replaced records are named in the plan and the others are not. -/
theorem drop_distinct (keepUnknown : Bool) (table : String)
    (distinct : (existing.map StoredIndex.name).Nodup) (planned : (plan.map PlanEntry.name).Nodup) :
    (between keepUnknown table existing plan).drop.Nodup := by
  have replaced : ((plan.filter fun entry => fateOf existing entry = .replaced).map
      PlanEntry.name).Nodup := (List.filter_sublist.map PlanEntry.name).nodup planned
  unfold between
  cases keepUnknown with
  | true => simpa using replaced
  | false =>
    refine List.nodup_append.mpr ⟨replaced, distinct.filter _, ?_⟩
    intro name named other unknown same
    obtain ⟨entry, chosen, rfl⟩ := List.mem_map.mp named
    refine (mem_unplanned.mp (same ▸ unknown)).2 ?_
    exact List.mem_map.mpr ⟨entry, (List.mem_filter.mp chosen).1, rfl⟩

/-- The records that a reconciliation leaves: those not dropped, followed by those created. -/
def reconciled (keepUnknown : Bool) (table : String) (existing : List StoredIndex) (plan : Plan) :
    List StoredIndex :=
  let diff := between keepUnknown table existing plan
  existing.filter (fun index => index.name ∉ diff.drop) ++ diff.create.map (.ofEntry table)

/-- A record that a plan entry asks for stays as it is. -/
private theorem matching_stays (distinct : (existing.map StoredIndex.name).Nodup)
    (planned : (plan.map PlanEntry.name).Nodup) (member : index ∈ existing) (listed : entry ∈ plan)
    (named : index.name = entry.name) (fulfils : index.fulfils entry) :
    index ∈ reconciled keepUnknown table existing plan := by
  refine List.mem_append.mpr (.inl (List.mem_filter.mpr ⟨member, ?_⟩))
  suffices index.name ∉ (between keepUnknown table existing plan).drop by simpa using this
  intro dropped
  rcases mem_drop.mp dropped with ⟨other, chosen, same, fate⟩ | ⟨-, -, unplanned⟩
  · obtain rfl : other = entry :=
      List.inj_on_of_nodup_map planned chosen listed (same.trans named)
    rw [(fate_kept_iff distinct).mpr ⟨index, member, named, fulfils⟩] at fate
    contradiction
  · exact unplanned (List.mem_map.mpr ⟨entry, listed, named.symm⟩)

/-- A record that no plan entry names stays as it is when unknown ones are kept. -/
theorem unknown_stays (member : index ∈ existing) (unplanned : index.name ∉ plan.map PlanEntry.name) :
    index ∈ reconciled true table existing plan := by
  refine List.mem_append.mpr (.inl (List.mem_filter.mpr ⟨member, ?_⟩))
  suffices index.name ∉ (between true table existing plan).drop by simpa using this
  intro dropped
  rcases mem_drop.mp dropped with ⟨entry, listed, same, -⟩ | ⟨off, -, -⟩
  · exact unplanned (List.mem_map.mpr ⟨entry, listed, same⟩)
  · contradiction

/-- Only names of the plan are left when unknown records are not kept. -/
theorem unknown_goes (member : index ∈ reconciled false table existing plan) :
    index.name ∈ plan.map PlanEntry.name := by
  by_contra unplanned
  rcases List.mem_append.mp member with old | new
  · obtain ⟨record, staying⟩ := List.mem_filter.mp old
    have gone : index.name ∈ (between false table existing plan).drop :=
      mem_drop.mpr (.inr ⟨rfl, List.mem_map.mpr ⟨index, record, rfl⟩, unplanned⟩)
    simp [gone] at staying
  · obtain ⟨entry, chosen, rfl⟩ := List.mem_map.mp new
    exact unplanned (List.mem_map.mpr ⟨entry, (List.mem_filter.mp chosen).1, rfl⟩)

/-- Every plan entry has a record that is what it asks for: the one it had or a new one. -/
theorem entry_recorded (distinct : (existing.map StoredIndex.name).Nodup)
    (planned : (plan.map PlanEntry.name).Nodup) (listed : entry ∈ plan) :
    ∃ index ∈ reconciled keepUnknown table existing plan,
      index.name = entry.name ∧ index.fulfils entry := by
  by_cases fate : fateOf existing entry = .kept
  · obtain ⟨index, member, named, fulfils⟩ := (fate_kept_iff distinct).mp fate
    exact ⟨index, matching_stays distinct planned member listed named fulfils, named, fulfils⟩
  · refine ⟨.ofEntry table entry, List.mem_append.mpr (.inr ?_), rfl, ?_⟩
    · exact List.mem_map.mpr ⟨entry, List.mem_filter.mpr ⟨listed, by simpa using fate⟩, rfl⟩
    · simp [StoredIndex.fulfils, StoredIndex.ofEntry, Options.same_refl]

/-- There is nothing to do when every plan entry has the record it asks for, and there are no
unplanned records that would have to go. -/
private theorem between_idle (table : String) (distinct : (existing.map StoredIndex.name).Nodup)
    (recorded : ∀ entry ∈ plan, ∃ index ∈ existing, index.name = entry.name ∧ index.fulfils entry)
    (known : keepUnknown = false → ∀ index ∈ existing, index.name ∈ plan.map PlanEntry.name) :
    (between keepUnknown table existing plan).isEmpty = true := by
  have kept : ∀ entry ∈ plan, fateOf existing entry = .kept := fun entry listed =>
    (fate_kept_iff distinct).mpr (recorded entry listed)
  have create : (between keepUnknown table existing plan).create = [] :=
    List.filter_eq_nil_iff.mpr fun entry listed => by simp [kept entry listed]
  have drop : (between keepUnknown table existing plan).drop = [] := by
    refine List.eq_nil_iff_forall_not_mem.mpr fun name dropped => ?_
    rcases mem_drop.mp dropped with ⟨entry, listed, -, fate⟩ | ⟨off, there, unplanned⟩
    · rw [kept entry listed] at fate
      contradiction
    · obtain ⟨index, member, rfl⟩ := List.mem_map.mp there
      exact unplanned (known off index member)
  rw [isEmpty, create, drop]
  rfl

end IndexDiff

/-! ## Carrying out a diff -/

namespace StoreMigrator

open IndexDiff

variable {store : IndexStore} {keepUnknown : Bool} {table : String} {plan : Plan}

private theorem plan_faultless (migrator : StoreMigrator) (faultless : plan.Faultless) :
    migrator.plan table plan =
      .ok (.between migrator.keepUnknown table (migrator.store.indexes table) plan) := by
  rw [StoreMigrator.plan, Plan.check_ok_iff.mpr faultless]
  rfl

/-- A plan without faults is carried out whether or not there is something to do. -/
private theorem migrate_faultless (faultless : plan.Faultless) :
    migrate ⟨store, keepUnknown⟩ table plan =
      let diff := IndexDiff.between keepUnknown table (store.indexes table) plan
      ((store.run table diff.steps).1, ⟨(store.run table diff.steps).2, keepUnknown⟩) := by
  rw [migrate, plan_faultless _ faultless]
  dsimp only
  split
  · rename_i idle
    simp only [isEmpty, Bool.and_eq_true, List.isEmpty_iff] at idle
    simp only [steps, idle, List.map_nil, List.append_nil, IndexStore.run]
  · rfl

/-- No step of a reconciliation fails, and afterwards the table has the records that were not
dropped, followed by those that the plan adds or changes. -/
theorem migrate_records (keepUnknown : Bool) (table : String) (sound : store.Sound)
    (faultless : plan.Faultless) :
    ∃ after, migrate ⟨store, keepUnknown⟩ table plan = (.ok (), ⟨after, keepUnknown⟩) ∧
      after.indexes table = reconciled keepUnknown table (store.indexes table) plan ∧
      ∀ other, other ≠ table → after.indexes other = store.indexes other := by
  have distinct := sound.distinct table
  obtain ⟨middle, dropped, thinned⟩ := store.run_drops table
    (drop_distinct keepUnknown table distinct faultless.distinct)
    (fun name => drop_known distinct)
  -- What is created is free by now: it was never there, or its record is among those dropped.
  have free : ∀ entry ∈ plan.filter fun entry => fateOf (store.indexes table) entry ≠ .kept,
      entry.name ∉ middle.indexNames table := by
    intro entry chosen taken
    obtain ⟨listed, fate⟩ := List.mem_filter.mp chosen
    rw [IndexStore.indexNames, thinned] at taken
    obtain ⟨index, left, same⟩ := List.mem_map.mp taken
    obtain ⟨record, staying⟩ := List.mem_filter.mp left
    rcases fate_changed (by simpa using fate) with added | replaced
    · exact (fate_added_iff distinct).mp added (List.mem_map.mpr ⟨index, record, same⟩)
    · have gone : index.name ∈ (between keepUnknown table (store.indexes table) plan).drop :=
        mem_drop.mpr (.inl ⟨entry, listed, same.symm, replaced⟩)
      simp [gone] at staying
  obtain ⟨after, created, appended⟩ := middle.run_creates table
    ((List.filter_sublist.map PlanEntry.name).nodup faultless.distinct) free
  have ran : store.run table (between keepUnknown table (store.indexes table) plan).steps =
      (.ok (), after) := by
    rw [IndexDiff.steps, IndexStore.run_append, dropped]
    exact created
  refine ⟨after, ?_, by rw [appended, thinned]; rfl, ?_⟩
  · rw [migrate_faultless faultless]
    simp only [ran]
  · intro other different
    have untouched := store.run_elsewhere table other different
      (between keepUnknown table (store.indexes table) plan).steps
    rwa [ran] at untouched

/-! ## What a reconciliation leaves -/

/-- What holds of a store and the store that a plan for a table made of it. -/
structure Reconciled (before after : StoreMigrator) (table : String) (plan : Plan) : Prop where
  /-- Each entry of the plan has a single record of its name, which is what the entry asks for. -/
  planned : ∀ entry ∈ plan, ∃ index,
    ((after.store.indexes table).filter fun index => index.name = entry.name) = [index] ∧
      index.table = table ∧ index.columns = entry.columns ∧ index.options.same entry.options
  unknown_kept : before.keepUnknown = true → ∀ index ∈ before.store.indexes table,
    index.name ∉ plan.map PlanEntry.name → index ∈ after.store.indexes table
  unknown_gone : before.keepUnknown = false → ∀ name ∉ plan.map PlanEntry.name,
    name ∉ after.store.indexNames table
  matching_kept : ∀ index ∈ before.store.indexes table, ∀ entry ∈ plan,
    index.name = entry.name → index.fulfils entry → index ∈ after.store.indexes table
  elsewhere : ∀ other, other ≠ table → after.store.indexes other = before.store.indexes other
  /-- Looking again shows nothing to do. -/
  settled : ∃ diff, after.plan table plan = .ok diff ∧ diff.isEmpty = true
  /-- Doing it again does nothing. -/
  steady : after.migrate table plan = (.ok (), after)

/-- Among records with names of their own there is a single one of a name that is there. -/
private theorem filter_name {records : List StoredIndex} {index : StoredIndex}
    (distinct : (records.map StoredIndex.name).Nodup) (member : index ∈ records) :
    (records.filter fun record => record.name = index.name) = [index] := by
  induction records with
  | nil => cases member
  | cons head rest ih =>
    obtain ⟨fresh, distinct⟩ := List.nodup_cons.mp distinct
    rcases List.mem_cons.mp member with rfl | later
    · have others : (rest.filter fun record => record.name = index.name) = [] := by
        refine List.filter_eq_nil_iff.mpr fun record listed => ?_
        simpa using fun same : record.name = index.name =>
          fresh (List.mem_map.mpr ⟨record, listed, same⟩)
      simp [others]
    · have other : head.name ≠ index.name := fun same =>
        fresh (List.mem_map.mpr ⟨index, later, same.symm⟩)
      simp [other, ih distinct later]

/-- A plan without faults is reconciled with, in every sound store. -/
theorem migrate_reconciled (keepUnknown : Bool) (table : String) (sound : store.Sound)
    (faultless : plan.Faultless) :
    ∃ after, migrate ⟨store, keepUnknown⟩ table plan = (.ok (), after) ∧
      Reconciled ⟨store, keepUnknown⟩ after table plan := by
  obtain ⟨after, ran, records, elsewhere⟩ := migrate_records keepUnknown table sound faultless
  have soundAfter : after.Sound := by simpa only [ran] using sound.migrate keepUnknown table plan
  have distinct := sound.distinct table
  have recorded : ∀ entry ∈ plan, ∃ index ∈ after.indexes table,
      index.name = entry.name ∧ index.fulfils entry := by
    rw [records]
    exact fun entry listed => entry_recorded distinct faultless.distinct listed
  have known : keepUnknown = false → ∀ index ∈ after.indexes table,
      index.name ∈ plan.map PlanEntry.name := by
    rintro rfl index member
    exact unknown_goes (records ▸ member)
  have looked : StoreMigrator.plan ⟨after, keepUnknown⟩ table plan =
      .ok (.between keepUnknown table (after.indexes table) plan) := plan_faultless _ faultless
  have idle := between_idle table (soundAfter.distinct table) recorded known
  refine ⟨⟨after, keepUnknown⟩, ran, ?_⟩
  constructor
  · intro entry listed
    obtain ⟨index, member, named, fulfils⟩ := recorded entry listed
    obtain ⟨columns, options⟩ : index.columns = entry.columns ∧ index.options.same entry.options := by
      simpa [StoredIndex.fulfils] using fulfils
    refine ⟨index, ?_, soundAfter.filed table index member, columns, options⟩
    rw [← named]
    exact filter_name (soundAfter.distinct table) member
  · rintro rfl index member unplanned
    rw [records]
    exact unknown_stays member unplanned
  · intro off name unplanned there
    obtain ⟨index, member, rfl⟩ := List.mem_map.mp there
    exact unplanned (known off index member)
  · intro index member entry listed named fulfils
    rw [records]
    exact matching_stays distinct faultless.distinct member listed named fulfils
  · exact elsewhere
  · exact ⟨_, looked, idle⟩
  · rw [migrate, looked]
    simp only [idle, ↓reduceIte]

/-- In every store that calls lead to, reconciling a table with a plan fails exactly when an entry
of the plan is at fault. The first one at fault is what is reported, and nothing has changed.
Otherwise the plan is carried out completely. -/
theorem migrate_exact (calls : List StoreCall) (keepUnknown : Bool) (table : String) (plan : Plan) :
    let before : StoreMigrator := ⟨IndexStore.afterCalls calls, keepUnknown⟩
    let outcome := before.migrate table plan
    ((∃ e, outcome.1 = .error e) ↔
      ∃ earlier entry later, plan = earlier ++ entry :: later ∧ entry.AtFault earlier) ∧
    (∀ e, outcome.1 = .error e →
      (∃ earlier entry, plan.FirstFault earlier entry ∧ e = entry.refusal table) ∧
        outcome.2 = before) ∧
    (outcome.1 = .ok () → Reconciled before outcome.2 table plan) := by
  intro before outcome
  by_cases faultless : plan.Faultless
  · obtain ⟨after, ran, reconciled⟩ := migrate_reconciled keepUnknown table
      (IndexStore.sound_afterCalls calls) faultless
    have succeeded : outcome = (.ok (), after) := ran
    rw [succeeded]
    refine ⟨⟨nofun, ?_⟩, nofun, fun _ => reconciled⟩
    rintro ⟨earlier, entry, later, same, fault⟩
    exact absurd fault (faultless earlier entry later same)
  · rcases plan.check_exact table with ⟨-, sane⟩ | ⟨earlier, entry, first, refused⟩
    · exact absurd sane faultless
    · have failed : outcome = (.error (entry.refusal table), before) := by
        simp only [outcome, migrate, StoreMigrator.plan, refused]
        rfl
      rw [failed]
      refine ⟨⟨fun _ => ?_, fun _ => ⟨_, rfl⟩⟩, ?_, nofun⟩
      · obtain ⟨⟨later, same⟩, fault, -⟩ := first
        exact ⟨earlier, entry, later, same, fault⟩
      · rintro e ⟨⟩
        exact ⟨⟨earlier, entry, first, rfl⟩, rfl⟩

end StoreMigrator
end SchemaCompiler
