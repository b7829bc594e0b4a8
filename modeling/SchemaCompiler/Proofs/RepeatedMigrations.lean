import SchemaCompiler.Proofs.IndexReconciliation
import SchemaCompiler.Proofs.TableLayouts

/-! Migrations that are repeated. Each migration decides about every index name of its table on its
own: it leaves the record of that name alone, or it settles it, that is, brings it to what the plan
asks for or out of the store, whatever was there before (`migrate_decides`). Of several migrations
the last one that settles a name has its way, also where tables are stored under one name and their
plans contradict each other (`migrateAll_decides`). So doing all of them once more can change the
order of the records, but not which there are (`migrateAll_again`). -/
namespace SchemaCompiler

/-- Two lists of records with the same names, where records of one name have the same columns and
options. -/
structure SameIndexes (before after : List StoredIndex) : Prop where
  names : (before.map StoredIndex.name).Perm (after.map StoredIndex.name)
  alike : ∀ a ∈ before, ∀ b ∈ after, a.name = b.name →
    a.columns = b.columns ∧ a.options.same b.options = true

/-- Among the records the one of a name is what an entry asks for, or there is none if no entry is
given. -/
def Settled (records : List StoredIndex) (name : String) : Option PlanEntry → Prop
  | some entry => ∃ index ∈ records, index.name = name ∧ index.fulfils entry = true
  | none => name ∉ records.map StoredIndex.name

/-- Records with names of their own are the same if those of each name are, or are settled alike. -/
private theorem SameIndexes.of_each {before after : List StoredIndex}
    (distinct : (before.map StoredIndex.name).Nodup) (distinct' : (after.map StoredIndex.name).Nodup)
    (each : ∀ name, (∀ index : StoredIndex, index.name = name → (index ∈ after ↔ index ∈ before)) ∨
      ∃ target, Settled before name target ∧ Settled after name target) :
    SameIndexes before after where
  names := by
    rw [List.perm_ext_iff_of_nodup distinct distinct']
    intro name
    rcases each name with same | ⟨target, here, there⟩
    · constructor
      · intro known
        obtain ⟨index, listed, named⟩ := List.mem_map.1 known
        exact List.mem_map.2 ⟨index, (same index named).2 listed, named⟩
      · intro known
        obtain ⟨index, listed, named⟩ := List.mem_map.1 known
        exact List.mem_map.2 ⟨index, (same index named).1 listed, named⟩
    · cases target with
      | none => exact iff_of_false here there
      | some entry =>
        obtain ⟨index, listed, named, -⟩ := here
        obtain ⟨index', listed', named', -⟩ := there
        exact iff_of_true (List.mem_map.2 ⟨index, listed, named⟩)
          (List.mem_map.2 ⟨index', listed', named'⟩)
  alike := by
    intro a listed b listed' named
    rcases each a.name with same | ⟨target, here, there⟩
    · have old := (same b named.symm).1 listed'
      cases List.inj_on_of_nodup_map distinct listed old named
      exact ⟨rfl, a.options.same_refl⟩
    · cases target with
      | none => exact absurd (List.mem_map.2 ⟨a, listed, rfl⟩) here
      | some entry =>
        obtain ⟨index, known, own, fulfils⟩ := here
        obtain ⟨index', known', own', fulfils'⟩ := there
        cases List.inj_on_of_nodup_map distinct known listed own
        cases List.inj_on_of_nodup_map distinct' known' listed' (own'.trans named)
        simp only [StoredIndex.fulfils, Bool.and_eq_true, beq_iff_eq] at fulfils fulfils'
        exact ⟨fulfils.1.trans fulfils'.1.symm,
          Options.same_trans fulfils.2 (Options.same_symm fulfils'.2)⟩

theorem Settled.of_same {before after : List StoredIndex} {name : String}
    {target : Option PlanEntry} (settled : Settled before name target)
    (same : ∀ index : StoredIndex, index.name = name → (index ∈ after ↔ index ∈ before)) :
    Settled after name target := by
  cases target with
  | none =>
    intro known
    obtain ⟨index, listed, named⟩ := List.mem_map.1 known
    exact settled (List.mem_map.2 ⟨index, (same index named).1 listed, named⟩)
  | some entry =>
    obtain ⟨index, listed, named, fulfils⟩ := settled
    exact ⟨index, (same index named).2 listed, named, fulfils⟩

namespace StoreMigrator

open IndexDiff

/-- Brings the stored indexes of tables in line with their plans, one table after the other. Each is
given under its physical name. -/
def migrateAll (migrator : StoreMigrator) : List (String × Plan) → StoreMigrator
  | [] => migrator
  | (table, plan) :: rest => (migrator.migrate table plan).2.migrateAll rest

theorem migrateAll_append (migrator : StoreMigrator) (first second : List (String × Plan)) :
    migrator.migrateAll (first ++ second) = (migrator.migrateAll first).migrateAll second := by
  induction first generalizing migrator with
  | nil => rfl
  | cons migration rest ih => exact ih _

/-- Migrations leave the records of a name alone, or settle them, in each sound store. -/
def Decide (keepUnknown : Bool) (table name : String) (migrations : List (String × Plan)) : Prop :=
  (∀ store : IndexStore, store.Sound → ∀ index : StoredIndex, index.name = name →
    (index ∈ (migrateAll ⟨store, keepUnknown⟩ migrations).store.indexes table ↔
      index ∈ store.indexes table)) ∨
  ∃ target, ∀ store : IndexStore, store.Sound →
    Settled ((migrateAll ⟨store, keepUnknown⟩ migrations).store.indexes table) name target

variable {migrations : List (String × Plan)}

/-- A single migration decides about every name. -/
theorem migrate_decides (keepUnknown : Bool) (table name : String) (migration : String × Plan)
    (faultless : migration.2.Faultless) : Decide keepUnknown table name [migration] := by
  obtain ⟨migrated, plan⟩ := migration
  have records (store : IndexStore) (sound : store.Sound) :=
    migrate_records keepUnknown migrated sound faultless
  by_cases own : table = migrated
  · subst own
    by_cases planned : name ∈ plan.map PlanEntry.name
    · obtain ⟨entry, listed, rfl⟩ := List.mem_map.1 planned
      refine Or.inr ⟨some entry, fun store sound => ?_⟩
      obtain ⟨after, ran, left, -⟩ := records store sound
      rw [migrateAll, migrateAll, ran, left]
      exact entry_recorded (sound.distinct table) faultless.distinct listed
    · cases keepUnknown with
      | true =>
        refine Or.inl fun store sound index named => ?_
        obtain ⟨after, ran, left, -⟩ := records store sound
        subst named
        rw [migrateAll, migrateAll, ran, left]
        constructor
        · intro staying
          rcases List.mem_append.1 staying with old | new
          · exact (List.mem_filter.1 old).1
          · obtain ⟨entry, chosen, rfl⟩ := List.mem_map.1 new
            exact absurd (List.mem_map.2 ⟨entry, (List.mem_filter.1 chosen).1, rfl⟩) planned
        · exact fun known => unknown_stays known planned
      | false =>
        refine Or.inr ⟨none, fun store sound known => ?_⟩
        obtain ⟨after, ran, left, -⟩ := records store sound
        rw [migrateAll, migrateAll, ran, left] at known
        obtain ⟨index, staying, rfl⟩ := List.mem_map.1 known
        exact planned (unknown_goes staying)
  · refine Or.inl fun store sound index _ => ?_
    obtain ⟨after, ran, -, elsewhere⟩ := records store sound
    rw [migrateAll, migrateAll, ran, elsewhere table own]

/-- Only a plan without faults is carried out. -/
theorem faultless_of_migrated {migrator after : StoreMigrator} {table : String} {plan : Plan}
    (ran : migrator.migrate table plan = (.ok (), after)) : plan.Faultless := by
  rcases plan.check_exact table with ⟨-, faultless⟩ | ⟨earlier, entry, -, refused⟩
  · exact faultless
  · have failed : migrator.migrate table plan = (.error (entry.refusal table), migrator) := by
      simp only [migrate, StoreMigrator.plan, refused]
      rfl
    rw [failed] at ran
    cases ran

/-- A migration leaves a sound store, and goes on treating unknown records as before. -/
private theorem migrate_keeps (keepUnknown : Bool) (migration : String × Plan)
    (faultless : migration.2.Faultless) {store : IndexStore} (sound : store.Sound) :
    ∃ after : IndexStore, after.Sound ∧
      (migrate ⟨store, keepUnknown⟩ migration.1 migration.2).2 = ⟨after, keepUnknown⟩ := by
  obtain ⟨after, ran, -⟩ := migrate_records keepUnknown migration.1 sound faultless
  have kept := sound.migrate keepUnknown migration.1 migration.2
  rw [ran] at kept ⊢
  exact ⟨after, kept, rfl⟩

theorem migrateAll_keeps (keepUnknown : Bool)
    (faultless : ∀ migration ∈ migrations, migration.2.Faultless) {store : IndexStore}
    (sound : store.Sound) : ∃ after : IndexStore, after.Sound ∧
      migrateAll ⟨store, keepUnknown⟩ migrations = ⟨after, keepUnknown⟩ := by
  induction migrations generalizing store with
  | nil => exact ⟨store, sound, rfl⟩
  | cons migration rest ih =>
    rw [List.forall_mem_cons] at faultless
    obtain ⟨middle, sound', ran⟩ := migrate_keeps keepUnknown migration faultless.1 sound
    rw [migrateAll, ran]
    exact ih faultless.2 sound'

/-- Several migrations decide about every name: the last one that settles it does, if there is such
a one. -/
theorem migrateAll_decides (keepUnknown : Bool) (table name : String)
    (faultless : ∀ migration ∈ migrations, migration.2.Faultless) :
    Decide keepUnknown table name migrations := by
  induction migrations with
  | nil => exact Or.inl fun store _ index _ => Iff.rfl
  | cons migration rest ih =>
    rw [List.forall_mem_cons] at faultless
    have onwards (store : IndexStore) (sound : store.Sound) :=
      migrate_keeps keepUnknown migration faultless.1 sound
    rcases ih faultless.2 with alone' | ⟨target, settled'⟩
    · rcases migrate_decides keepUnknown table name migration faultless.1 with
        alone | ⟨target, settled⟩
      · refine Or.inl fun store sound index named => ?_
        obtain ⟨middle, sound', ran⟩ := onwards store sound
        have here := alone store sound index named
        rw [migrateAll, migrateAll, ran] at here
        rw [migrateAll, ran]
        exact (alone' middle sound' index named).trans here
      · refine Or.inr ⟨target, fun store sound => ?_⟩
        obtain ⟨middle, sound', ran⟩ := onwards store sound
        have here := settled store sound
        rw [migrateAll, migrateAll, ran] at here
        rw [migrateAll, ran]
        exact here.of_same (alone' middle sound')
    · refine Or.inr ⟨target, fun store sound => ?_⟩
      obtain ⟨middle, sound', ran⟩ := onwards store sound
      rw [migrateAll, ran]
      exact settled' middle sound'

/-- Doing all migrations again leaves every table with the same indexes. -/
theorem migrateAll_again (migrator : StoreMigrator) (sound : migrator.store.Sound)
    (faultless : ∀ migration ∈ migrations, migration.2.Faultless) (table : String) :
    SameIndexes ((migrator.migrateAll migrations).store.indexes table)
      (((migrator.migrateAll migrations).migrateAll migrations).store.indexes table) := by
  obtain ⟨store, keepUnknown⟩ := migrator
  have sound : store.Sound := sound
  obtain ⟨once, sound', ran⟩ := migrateAll_keeps keepUnknown faultless sound
  obtain ⟨twice, sound'', ran'⟩ := migrateAll_keeps keepUnknown faultless sound'
  have decides (name : String) := migrateAll_decides keepUnknown table name faultless
  rw [ran, ran']
  refine .of_each (sound'.distinct table) (sound''.distinct table) fun name => ?_
  rcases decides name with alone | ⟨target, settled⟩
  · left
    have here := alone once sound'
    rwa [ran'] at here
  · right
    have here := settled store sound
    have again := settled once sound'
    rw [ran] at here
    rw [ran'] at again
    exact ⟨target, here, again⟩

end StoreMigrator
end SchemaCompiler
