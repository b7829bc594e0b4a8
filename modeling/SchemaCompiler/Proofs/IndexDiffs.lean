import SchemaCompiler.Proofs.IndexReconciliation
import SchemaCompiler.Proofs.TableLayouts

/-! What a diff says of each name. A plan entry is up to date if there is a stored index of its name
with the same columns and equal options, and created otherwise; what is dropped follows from that
(`mem_drop_iff`). None of this looks at an order, so reordering either list only reorders the diff
(`between_perm`). Without unknown indexes to keep, a diff is empty if both sides are the same map
from names (`isEmpty_between_iff`), and going back from one plan to another creates the names that
going forth drops (`created_iff_dropped_back`). -/
namespace SchemaCompiler

/-- Items with names of their own are found by name. -/
private theorem find?_named {α : Type} {label : α → String} {items : List α}
    (distinct : (items.map label).Nodup) {name : String} {item : α} :
    items.find? (fun item => label item = name) = some item ↔ item ∈ items ∧ label item = name := by
  constructor
  · intro found
    exact ⟨List.mem_of_find?_eq_some found, by simpa using List.find?_some found⟩
  · rintro ⟨listed, named⟩
    cases found : items.find? (fun item => label item = name) with
    | none => exact absurd named (by simpa using List.find?_eq_none.mp found item listed)
    | some other =>
      have same : label other = name := by simpa using List.find?_some found
      rw [List.inj_on_of_nodup_map distinct (List.mem_of_find?_eq_some found) listed
        (same.trans named.symm)]

private theorem find?_unnamed {α : Type} {label : α → String} {items : List α} {name : String} :
    items.find? (fun item => label item = name) = none ↔ name ∉ items.map label := by
  simp [List.find?_eq_none]

namespace IndexDiff

variable {existing existing' : List StoredIndex} {plan plan' other : Plan} {entry : PlanEntry}
  {keepUnknown : Bool} {table name : String}

/-- Whether one of the stored indexes has the name and the columns of an entry, and equal
options. -/
def UpToDate (existing : List StoredIndex) (entry : PlanEntry) : Prop :=
  ∃ index ∈ existing, index.name = entry.name ∧ index.columns = entry.columns ∧
    index.options.same entry.options = true

instance (existing : List StoredIndex) : DecidablePred (UpToDate existing) := fun entry =>
  inferInstanceAs (Decidable (∃ index ∈ existing, index.name = entry.name ∧
    index.columns = entry.columns ∧ index.options.same entry.options = true))

theorem upToDate_iff : UpToDate existing entry ↔
    ∃ index ∈ existing, index.name = entry.name ∧ index.fulfils entry = true := by
  simp only [UpToDate, StoredIndex.fulfils, Bool.and_eq_true, beq_iff_eq]

/-! ## The parts of a diff -/

section Parts

variable (distinct : (existing.map StoredIndex.name).Nodup)

include distinct

theorem fateOf_eq_kept_iff : fateOf existing entry = .kept ↔ UpToDate existing entry :=
  (fate_kept_iff distinct).trans upToDate_iff.symm

private theorem create_eq : (between keepUnknown table existing plan).create =
    plan.filter fun entry => ¬ UpToDate existing entry := by
  simp only [between, ne_eq, fateOf_eq_kept_iff distinct]

private theorem unchanged_eq : (between keepUnknown table existing plan).unchanged =
    (plan.filter fun entry => UpToDate existing entry).map PlanEntry.name := by
  simp only [between, fateOf_eq_kept_iff distinct]

/-- An entry is created in place of a stored index if its name is taken. -/
theorem fateOf_eq_replaced_iff : fateOf existing entry = .replaced ↔
    ¬ UpToDate existing entry ∧ entry.name ∈ existing.map StoredIndex.name := by
  rw [← fateOf_eq_kept_iff distinct, ← not_not (a := entry.name ∈ _), ← fate_added_iff distinct]
  cases fateOf existing entry <;> simp

theorem mem_created_iff :
    name ∈ (between keepUnknown table existing plan).create.map PlanEntry.name ↔
    ∃ entry ∈ plan, entry.name = name ∧ ¬ UpToDate existing entry := by
  rw [create_eq distinct]
  simp only [List.mem_map, List.mem_filter, decide_eq_true_eq]
  constructor
  · rintro ⟨entry, ⟨listed, outdated⟩, named⟩
    exact ⟨entry, listed, named, outdated⟩
  · rintro ⟨entry, listed, named, outdated⟩
    exact ⟨entry, ⟨listed, outdated⟩, named⟩

/-- Dropped are the stored names that are created anew, and those outside the plan unless they are
to be kept. -/
theorem mem_drop_iff : name ∈ (between keepUnknown table existing plan).drop ↔
    name ∈ existing.map StoredIndex.name ∧
      (name ∈ (between keepUnknown table existing plan).create.map PlanEntry.name ∨
        keepUnknown = false ∧ name ∉ plan.map PlanEntry.name) := by
  rw [mem_drop, mem_created_iff distinct]
  constructor
  · rintro (⟨entry, listed, rfl, fate⟩ | ⟨off, stored, unplanned⟩)
    · obtain ⟨outdated, stored⟩ := (fateOf_eq_replaced_iff distinct).mp fate
      exact ⟨stored, .inl ⟨entry, listed, rfl, outdated⟩⟩
    · exact ⟨stored, .inr ⟨off, unplanned⟩⟩
  · rintro ⟨stored, ⟨entry, listed, rfl, outdated⟩ | ⟨off, unplanned⟩⟩
    · exact .inl ⟨entry, listed, rfl, (fateOf_eq_replaced_iff distinct).mpr ⟨outdated, stored⟩⟩
    · exact .inr ⟨off, stored, unplanned⟩

end Parts

/-! ## Reordering -/

private theorem upToDate_perm (stored : existing'.Perm existing) :
    UpToDate existing' entry ↔ UpToDate existing entry := by
  simp only [UpToDate, stored.mem_iff]

/-- Reordering the stored indexes and the plan reorders the parts of the diff at most. -/
theorem between_perm (keepUnknown : Bool) (table : String)
    (distinct : (existing.map StoredIndex.name).Nodup) (planned : (plan.map PlanEntry.name).Nodup)
    (stored : existing'.Perm existing) (entries : plan'.Perm plan) :
    let diff := between keepUnknown table existing plan
    let diff' := between keepUnknown table existing' plan'
    diff'.create.Perm diff.create ∧ diff'.drop.Perm diff.drop ∧
      diff'.unchanged.Perm diff.unchanged := by
  intro diff diff'
  have distinct' : (existing'.map StoredIndex.name).Nodup :=
    (stored.map StoredIndex.name).nodup_iff.mpr distinct
  have planned' : (plan'.map PlanEntry.name).Nodup :=
    (entries.map PlanEntry.name).nodup_iff.mpr planned
  have create : diff'.create.Perm diff.create := by
    rw [create_eq distinct, create_eq distinct']
    simp only [upToDate_perm stored]
    exact entries.filter _
  refine ⟨create, ?_, ?_⟩
  · rw [List.perm_ext_iff_of_nodup (drop_distinct keepUnknown table distinct' planned')
      (drop_distinct keepUnknown table distinct planned)]
    intro name
    rw [mem_drop_iff distinct, mem_drop_iff distinct', (create.map PlanEntry.name).mem_iff,
      (stored.map StoredIndex.name).mem_iff, (entries.map PlanEntry.name).mem_iff]
  · rw [unchanged_eq distinct, unchanged_eq distinct']
    simp only [upToDate_perm stored]
    exact (entries.filter _).map PlanEntry.name

/-! ## Empty diffs -/

/-- The stored indexes and the plan as maps from names to columns and options, which have an index
and an entry under the same names, with the same columns and equal options. -/
def SameMap (existing : List StoredIndex) (plan : Plan) : Prop :=
  ∀ name, Option.Rel (fun (index : StoredIndex) (entry : PlanEntry) =>
      index.columns = entry.columns ∧ index.options.same entry.options = true)
    (existing.find? fun index => index.name = name) (plan.find? fun entry => entry.name = name)

private theorem sameMap_iff (distinct : (existing.map StoredIndex.name).Nodup)
    (planned : (plan.map PlanEntry.name).Nodup) :
    SameMap existing plan ↔ (∀ entry ∈ plan, UpToDate existing entry) ∧
      ∀ name ∈ existing.map StoredIndex.name, name ∈ plan.map PlanEntry.name := by
  constructor
  · intro same
    constructor
    · intro entry listed
      have related := same entry.name
      rw [(find?_named planned).mpr ⟨listed, rfl⟩] at related
      cases found : existing.find? (fun index => index.name = entry.name) with
      | none =>
        rw [found] at related
        cases related
      | some index =>
        rw [found] at related
        obtain ⟨stored, named⟩ := (find?_named distinct).mp found
        cases related with
        | some alike => exact ⟨index, stored, named, alike⟩
    · intro name stored
      by_contra unplanned
      have related := same name
      rw [find?_unnamed.mpr unplanned] at related
      generalize found : existing.find? (fun index => index.name = name) = index at related
      cases related
      exact find?_unnamed.mp found stored
  · rintro ⟨upToDate, known⟩ name
    by_cases listed : name ∈ plan.map PlanEntry.name
    · obtain ⟨entry, member, rfl⟩ := List.mem_map.mp listed
      obtain ⟨index, stored, named, alike⟩ := upToDate entry member
      rw [(find?_named planned).mpr ⟨member, rfl⟩, (find?_named distinct).mpr ⟨stored, named⟩]
      exact .some alike
    · rw [find?_unnamed.mpr listed, find?_unnamed.mpr fun stored => listed (known name stored)]
      exact .none

/-- If unknown indexes are not kept, there is nothing to do exactly if what is stored is what is
planned. -/
theorem isEmpty_between_iff (table : String) (distinct : (existing.map StoredIndex.name).Nodup)
    (planned : (plan.map PlanEntry.name).Nodup) :
    (between false table existing plan).isEmpty = true ↔ SameMap existing plan := by
  rw [sameMap_iff distinct planned, isEmpty, Bool.and_eq_true, List.isEmpty_iff, List.isEmpty_iff]
  have created : (between false table existing plan).create = [] ↔
      ∀ entry ∈ plan, UpToDate existing entry := by
    simp [create_eq distinct, List.filter_eq_nil_iff]
  rw [created]
  refine and_congr_right fun upToDate => ?_
  have none : (between false table existing plan).create.map PlanEntry.name = [] := by
    rw [created.mpr upToDate, List.map_nil]
  rw [List.eq_nil_iff_forall_not_mem]
  refine forall_congr' fun name => ?_
  rw [mem_drop_iff distinct, none]
  simp

/-! ## Going back -/

/-- The stored form of a plan. -/
def stored (table : String) (plan : Plan) : List StoredIndex := plan.map (.ofEntry table)

@[simp] theorem names_stored (table : String) (plan : Plan) :
    (stored table plan).map StoredIndex.name = plan.map PlanEntry.name := by
  simp [stored, StoredIndex.ofEntry, Function.comp_def]

private theorem upToDate_stored_iff : UpToDate (stored table plan) entry ↔
    ∃ earlier ∈ plan, earlier.name = entry.name ∧ earlier.columns = entry.columns ∧
      earlier.options.same entry.options = true := by
  simp [UpToDate, stored, StoredIndex.ofEntry]

/-- What has to be created on the way from one plan to another has to be dropped on the way back. -/
theorem created_iff_dropped_back (table : String) (planned : (plan.map PlanEntry.name).Nodup)
    (planned' : (other.map PlanEntry.name).Nodup) :
    name ∈ (between false table (stored table other) plan).create.map PlanEntry.name ↔
      name ∈ (between false table (stored table plan) other).drop := by
  have distinct : ((stored table plan).map StoredIndex.name).Nodup := by rwa [names_stored]
  have distinct' : ((stored table other).map StoredIndex.name).Nodup := by rwa [names_stored]
  rw [mem_drop_iff distinct, mem_created_iff distinct, mem_created_iff distinct', names_stored]
  simp only [upToDate_stored_iff, true_and]
  constructor
  · rintro ⟨entry, listed, rfl, outdated⟩
    refine ⟨List.mem_map.mpr ⟨entry, listed, rfl⟩, ?_⟩
    by_cases known : entry.name ∈ other.map PlanEntry.name
    · obtain ⟨earlier, member, named⟩ := List.mem_map.mp known
      refine .inl ⟨earlier, member, named, ?_⟩
      rintro ⟨same, listed', named', columns, options⟩
      obtain rfl := List.inj_on_of_nodup_map planned listed' listed (named'.trans named)
      exact outdated ⟨earlier, member, named, columns.symm, Options.same_symm options⟩
    · exact .inr known
  · rintro ⟨known, changed⟩
    obtain ⟨entry, listed, rfl⟩ := List.mem_map.mp known
    refine ⟨entry, listed, rfl, ?_⟩
    rintro ⟨earlier, member, named, columns, options⟩
    rcases changed with ⟨earlier', member', named', outdated⟩ | unknown
    · obtain rfl := List.inj_on_of_nodup_map planned' member member' (named.trans named'.symm)
      exact outdated ⟨entry, listed, named.symm, columns.symm, Options.same_symm options⟩
    · exact unknown (List.mem_map.mpr ⟨earlier, member, named⟩)

/-- What a diff comes to if names are distinct on either side.

The plan is split in two: entries that are up to date are unchanged and the rest is created, both in
plan order. Dropped are, each once, the stored names that are created anew and, unless unknown
indexes are kept, those that the plan does not mention. Reordering the two lists reorders the parts
at most. If unknown indexes are not kept, the diff is empty exactly if the stored indexes and the
plan are the same map, and on the way back from this plan to another one names are created and
dropped the other way around. -/
theorem between_exact (keepUnknown : Bool) (table : String)
    (distinct : (existing.map StoredIndex.name).Nodup)
    (planned : (plan.map PlanEntry.name).Nodup) :
    let diff := between keepUnknown table existing plan
    diff.unchanged = (plan.filter fun entry => UpToDate existing entry).map PlanEntry.name ∧
    diff.create = (plan.filter fun entry => ¬ UpToDate existing entry) ∧
    diff.drop.Nodup ∧
    (∀ name, name ∈ diff.drop ↔ name ∈ existing.map StoredIndex.name ∧
      (name ∈ diff.create.map PlanEntry.name ∨
        keepUnknown = false ∧ name ∉ plan.map PlanEntry.name)) ∧
    (∀ existing' plan', existing'.Perm existing → plan'.Perm plan →
      let diff' := between keepUnknown table existing' plan'
      diff'.create.Perm diff.create ∧ diff'.drop.Perm diff.drop ∧
        diff'.unchanged.Perm diff.unchanged) ∧
    (keepUnknown = false → (diff.isEmpty = true ↔ SameMap existing plan)) ∧
    ∀ other : Plan, (other.map PlanEntry.name).Nodup →
      let forth := between false table (stored table plan) other
      let back := between false table (stored table other) plan
      ∀ name, (name ∈ forth.create.map PlanEntry.name ↔ name ∈ back.drop) ∧
        (name ∈ forth.drop ↔ name ∈ back.create.map PlanEntry.name) := by
  intro diff
  refine ⟨unchanged_eq distinct, create_eq distinct,
    drop_distinct keepUnknown table distinct planned, fun name => mem_drop_iff distinct,
    fun existing' plan' => between_perm keepUnknown table distinct planned, ?_, ?_⟩
  · rintro rfl
    exact isEmpty_between_iff table distinct planned
  · intro other planned' forth back name
    exact ⟨created_iff_dropped_back table planned' planned,
      (created_iff_dropped_back table planned planned').symm⟩

end IndexDiff

namespace Reindexed

def unique (flag : Bool) : Options := OrderedMap.empty.insert uniqueOption (.bool flag)

def existing : List StoredIndex :=
  [⟨"by_text", "notes", ["text"], unique true⟩, ⟨"by_owner", "notes", ["owner"], unique true⟩,
    ⟨"by_age", "notes", ["day"], unique true⟩]

/-- One index is new, one has another column, and one is as it is stored. -/
def plan : Plan :=
  [⟨"by_day", ["day"], unique false⟩, ⟨"by_owner", ["owner", "day"], unique true⟩,
    ⟨"by_text", ["text"], unique true⟩]

theorem between_exact_reindexed :
    (existing.map StoredIndex.name).Nodup ∧ (plan.map PlanEntry.name).Nodup ∧
    (IndexDiff.between false "notes" existing plan).unchanged = ["by_text"] ∧
    (IndexDiff.between false "notes" existing.reverse plan.reverse).drop.Perm
      ["by_owner", "by_age"] ∧
    ¬ IndexDiff.SameMap existing plan := by
  have distinct : (existing.map StoredIndex.name).Nodup := by decide
  have planned : (plan.map PlanEntry.name).Nodup := by decide
  obtain ⟨unchanged, -, -, -, reordered, empty, -⟩ :=
    IndexDiff.between_exact false "notes" distinct planned
  refine ⟨distinct, planned, unchanged.trans (by decide), ?_, ?_⟩
  · exact (reordered _ _ (List.reverse_perm _) (List.reverse_perm _)).2.1
  · rw [← empty rfl]
    decide

end Reindexed
end SchemaCompiler
