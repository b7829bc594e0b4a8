import Mathlib.Data.List.Induction
import SchemaCompiler.Proofs.HookTurns
import SchemaCompiler.Proofs.RowCounts
import SchemaCompiler.Proofs.RowMerging
import SchemaCompiler.Proofs.RowOrigins

/-! What an update and a deletion make of the rows that they select by ids, and of all others. If the
hooks let them proceed, they change just the rows of these ids, each once, whatever ids there are
beside and however often they are given (`selected_rows_exact`). Without hooks an update is its check
and its write (`update_unhooked`), so that two of them through the same ids are one with the merged
values (`update_fused`). -/
namespace SchemaCompiler

open Effect

variable {κ ε : Type}

namespace TableDefinition

variable {definition : TableDefinition} {isRow : RowLookup} {first second : Row}

/-- Values that are admitted one after the other are admitted at once. -/
private theorem admitUpdate_merge (admitted : definition.admitUpdate isRow first = .ok ())
    (later : definition.admitUpdate isRow second = .ok ()) :
    definition.admitUpdate isRow (first.merge second) = .ok () := by
  obtain ⟨key₁, columns₁, valid₁⟩ := admitUpdate_ok_iff.1 admitted
  obtain ⟨key₂, columns₂, valid₂⟩ := admitUpdate_ok_iff.1 later
  rw [checkColumns_ok_iff] at columns₁ columns₂
  unfold validate at valid₁ valid₂
  rw [forM_eq_ok_iff] at valid₁ valid₂
  refine admitUpdate_ok_iff.2 ⟨?_, ?_, ?_⟩
  · rw [Bool.eq_false_iff, ne_eq, OrderedMap.contains_iff_mem_keys] at key₁ key₂ ⊢
    rw [Row.mem_keys_merge]
    exact not_or.2 ⟨key₁, key₂⟩
  · rw [checkColumns_ok_iff]
    intro column listed
    rcases Row.mem_keys_merge.1 listed with listed | listed
    · exact columns₁ column listed
    · exact columns₂ column listed
  · unfold validate
    rw [forM_eq_ok_iff]
    rintro ⟨column, value⟩ listed
    have found := (OrderedMap.get?_eq_some_iff _ _ _).2 listed
    rw [Row.get?_merge, Option.or_eq_some_iff] at found
    rcases found with found | ⟨-, found⟩
    · exact valid₂ _ ((OrderedMap.get?_eq_some_iff _ _ _).1 found)
    · exact valid₁ _ ((OrderedMap.get?_eq_some_iff _ _ _).1 found)

end TableDefinition

namespace Handle

variable {callbacks : Callbacks κ ε} {handle : Handle} {deletes updates : World κ ε → Prop}
  {world : World κ ε} {ids : List UInt64} {values first second : Row} {count : Nat}

/-! ## Rows by ids -/

variable (ids) in
private theorem delete_proceeding (proceeding : handle.Proceeding callbacks .delete deletes world) :
    let run := handle.delete callbacks ids world
    run.1 = .ok ((world.storage handle).existing ids).length ∧
      run.2.storage handle = (world.storage handle).delete ids := by
  dsimp only
  rw [delete_run, ← Storage.delete_existing]
  generalize (world.storage handle).existing ids = known
  cases known with
  | nil => exact ⟨rfl, rfl⟩
  | cons id rest =>
    exact staged_proceeding proceeding (.delete (id :: rest)) 0 fun rows =>
      .ok ((id :: rest).length, .delete (id :: rest), rows.delete (id :: rest))

variable (ids) in
private theorem update_proceeding (proceeding : handle.Proceeding callbacks .update updates world)
    (admitted : handle.definition.admitUpdate world.isRow values = .ok ()) :
    let run := handle.update callbacks ids values world
    run.1 = .ok ((world.storage handle).existing ids).length ∧
      run.2.storage handle = (world.storage handle).update ids values := by
  dsimp only
  rw [update_run, admitted, ← Storage.update_existing]
  generalize (world.storage handle).existing ids = known
  cases known with
  | nil => exact ⟨rfl, rfl⟩
  | cons id rest =>
    exact staged_proceeding proceeding (.update (id :: rest) values) 0 fun rows =>
      .ok ((id :: rest).length, .update (id :: rest) values, rows.update (id :: rest) values)

/-- An update gives a number only if its values are admitted. -/
private theorem admitted_of_update_ok
    (ran : (handle.update callbacks ids values world).1 = .ok count) :
    handle.definition.admitUpdate world.isRow values = .ok () := by
  rw [update_run] at ran
  cases admitted : handle.definition.admitUpdate world.isRow values with
  | error refusal =>
    rw [admitted] at ran
    cases ran
  | ok => rfl

/-- What an update and a deletion leave whose hooks let them proceed and do not touch the table, for
any ids in any order, unknown and repeated ones included.

A deletion succeeds and leaves the rows that have none of the ids, as they are and in their order. An
update succeeds if its values are admitted; then it keeps all keys in their places, merges the values
once into each row that has one of the ids, and leaves the others as they are. Neither changes the
next id. All that happens to the rows of other tables meanwhile is what the hooks do to them. -/
theorem selected_rows_exact (deleting : handle.Proceeding callbacks .delete deletes world)
    (updating : handle.Proceeding callbacks .update updates world) (ids : List UInt64)
    (values : Row) :
    let before := world.storage handle
    let delete := handle.delete callbacks ids world
    let left := delete.2.storage handle
    let update := handle.update callbacks ids values world
    let updated := update.2.storage handle
    (delete.1 = .ok (before.existing ids).length ∧
      left.rows.entries = before.rows.entries.filter (·.1 ∉ ids) ∧ left.nextId = before.nextId) ∧
    ((∃ count, update.1 = .ok count) ↔
      handle.definition.admitUpdate world.isRow values = .ok ()) ∧
    (∀ count, update.1 = .ok count → count = (before.existing ids).length ∧
      updated.rows.keys = before.rows.keys ∧
      updated.rows.entries = (before.rows.entries.map fun entry =>
        if entry.1 ∈ ids then (entry.1, entry.2.merge values) else entry) ∧
      updated.nextId = before.nextId) ∧
    ∀ database table, (database, table) ≠ (handle.database, handle.name) →
      let rows := fun world : World κ ε => (world.database database).storage table
      Relation.ReflTransGen
        (RowCommand.HookChange callbacks handle .delete deletes world database table)
        (rows world) (rows delete.2) ∧
      Relation.ReflTransGen
        (RowCommand.HookChange callbacks handle .update updates world database table)
        (rows world) (rows update.2) := by
  intro before delete left update updated
  obtain ⟨deleted, kept⟩ := delete_proceeding ids deleting
  have kept : left = before.delete ids := kept
  refine ⟨⟨deleted, ?_, ?_⟩, ⟨?_, ?_⟩, ?_, ?_⟩
  · rw [kept]
    exact Storage.entries_delete ids
  · rw [kept]
    rfl
  · rintro ⟨count, ran⟩
    exact admitted_of_update_ok ran
  · intro admitted
    exact ⟨_, (update_proceeding ids updating admitted).1⟩
  · intro count ran
    obtain ⟨counted, merged⟩ := update_proceeding ids updating (admitted_of_update_ok ran)
    have merged : updated = before.update ids values := merged
    rw [merged]
    refine ⟨?_, Storage.keys_update ids values, Storage.entries_update ids values, rfl⟩
    exact Except.ok.inj (ran.symm.trans counted)
  · intro database table other
    exact ⟨(RowCommand.delete ids).run_elsewhere deleting.toQuiet other,
      (RowCommand.update ids values).run_elsewhere updating.toQuiet other⟩

/-! ## Updates in turn -/

variable (callbacks ids) in
/-- An update without hooks is its check and its write. -/
theorem update_unhooked
    (none : ∀ timing, (world.decoration handle).hooks (.ofParts timing .update) = [])
    (admitted : handle.definition.admitUpdate world.isRow values = .ok ()) :
    let known := (world.storage handle).existing ids
    handle.update callbacks ids values world =
      (.ok known.length, if known.isEmpty then world
        else world.setStorage handle ((world.storage handle).update ids values)) := by
  dsimp only
  rw [update_run, admitted, ← Storage.update_existing]
  generalize (world.storage handle).existing ids = known
  cases known with
  | nil => rfl
  | cons id rest =>
    simp only [List.isEmpty_cons, Bool.false_eq_true, ↓reduceIte, staged_unhooked none]

variable (callbacks ids) in
/-- Validators find the same rows after an update. -/
private theorem isRow_update_unhooked
    (none : ∀ timing, (world.decoration handle).hooks (.ofParts timing .update) = [])
    (admitted : handle.definition.admitUpdate world.isRow values = .ok ()) :
    (handle.update callbacks ids values world).2.isRow = world.isRow := by
  rw [update_unhooked callbacks ids none admitted]
  dsimp only
  split
  · rfl
  · exact World.isRow_setStorage (Storage.keys_update ids values)

/-- Two updates without hooks through the same ids are one with the merged values. -/
private theorem update_update_unhooked
    (none : ∀ timing, (world.decoration handle).hooks (.ofParts timing .update) = [])
    (admitted : handle.definition.admitUpdate world.isRow first = .ok ())
    (admitted_later : handle.definition.admitUpdate world.isRow second = .ok ()) :
    handle.update callbacks ids second (handle.update callbacks ids first world).2 =
      handle.update callbacks ids (first.merge second) world := by
  have stored := isRow_update_unhooked callbacks ids none admitted
  have fused := update_unhooked callbacks ids none
    (TableDefinition.admitUpdate_merge admitted admitted_later)
  rw [update_unhooked callbacks ids none admitted] at stored ⊢
  dsimp only at stored fused ⊢
  rw [fused]
  cases empty : ((world.storage handle).existing ids).isEmpty with
  | true =>
    have again := update_unhooked callbacks ids none admitted_later
    simp only [empty, ↓reduceIte] at again ⊢
    exact again
  | false =>
    simp only [empty, Bool.false_eq_true, ↓reduceIte] at stored ⊢
    have none_later : ∀ timing, ((world.setStorage handle ((world.storage handle).update ids
        first)).decoration handle).hooks (.ofParts timing .update) = [] := by
      rwa [World.decoration_setStorage]
    rw [← stored] at admitted_later
    have again := update_unhooked callbacks ids none_later admitted_later
    simp only [World.storage_setStorage_self, Storage.existing_update, Storage.update_update,
      World.setStorage_setStorage, empty, Bool.false_eq_true, ↓reduceIte] at again
    exact again

/-- Two updates through the same ids, for every table, every handle on it without hooks on updates and
all values. If both give a number, then one update with the values of both, those of the second
merged into those of the first, gives the same number in their place and leaves the same world, down
to the order of rows and of their columns. Each row that has one of the ids has had both merged in. -/
theorem update_fused
    (none : ∀ timing, (world.decoration handle).hooks (.ofParts timing .update) = [])
    {count later : Nat} (ran : (handle.update callbacks ids first world).1 = .ok count)
    (ran_later : (handle.update callbacks ids second
      (handle.update callbacks ids first world).2).1 = .ok later) :
    let between := (handle.update callbacks ids first world).2
    let fused := handle.update callbacks ids (first.merge second) world
    fused.1 = .ok count ∧ later = count ∧
      fused.2 = (handle.update callbacks ids second between).2 ∧
      (fused.2.storage handle).rows.entries = (world.storage handle).rows.entries.map fun entry =>
        if entry.1 ∈ ids then (entry.1, (entry.2.merge first).merge second) else entry := by
  have admitted := admitted_of_update_ok ran
  have admitted_later := admitted_of_update_ok ran_later
  rw [isRow_update_unhooked callbacks ids none admitted] at admitted_later
  have proceeding : handle.Proceeding callbacks .update (fun _ => True) world := .of_no_hooks none
  obtain ⟨counted, -⟩ := update_proceeding ids proceeding admitted
  obtain ⟨counted_fused, left⟩ := update_proceeding ids proceeding
    (TableDefinition.admitUpdate_merge admitted admitted_later)
  rw [ran] at counted
  rw [← counted] at counted_fused
  rw [update_update_unhooked none admitted admitted_later, counted_fused] at ran_later
  refine ⟨counted_fused, (Except.ok.inj ran_later).symm, ?_, ?_⟩
  · rw [update_update_unhooked none admitted admitted_later]
  · rw [left, Storage.entries_update]
    simp only [Row.merge_assoc]

end Handle

namespace Noting

/-- Just the hooks that were attached are there. -/
private theorem called_world {attached : List (Phase × String)} {phase : Phase} {hook : Hook String}
    (listed : hook ∈ ((world attached).decoration notes).hooks phase) :
    ∃ entry ∈ attached, hook.action = .call entry.2 := by
  induction attached using List.reverseRecOn with
  | nil =>
    have none : ((world []).decoration notes).attached = [] := List.isEmpty_iff.1 (by decide +kernel)
    rw [Decoration.hooks, none] at listed
    cases listed
  | append_singleton earlier entry ih =>
    unfold world at listed
    rw [List.foldl_append, List.foldl_cons, List.foldl_nil, World.decoration_decorate,
      Decoration.hooks_attach, List.mem_append] at listed
    rcases listed with listed | listed
    · obtain ⟨other, known, called⟩ := ih listed
      exact ⟨other, List.mem_append_left _ known, called⟩
    · split at listed
      · cases List.mem_singleton.1 listed
        exact ⟨entry, List.mem_append_right _ List.mem_cons_self, rfl⟩
      · cases listed

theorem proceeding_world {attached : List (Phase × String)} (event : Event)
    (harmless : ∀ entry ∈ attached, entry.2 ≠ "veto" ∧ entry.2 ≠ "fail") :
    notes.Proceeding callbacks event (fun _ => True) (world attached) where
  toQuiet := quiet_world attached event
  proceeds timing hook listed args now _ := by
    obtain ⟨entry, known, called⟩ := called_world listed
    obtain ⟨no_veto, no_failure⟩ := harmless entry known
    rw [Hook.call, called]
    dsimp only [callbacks]
    rw [if_neg no_veto, if_neg no_failure]

/-- An id that keys no row and one that is given twice make no difference to the rows: the one in the
middle goes or is changed, the others stay as they are and in order. So do all other tables. -/
theorem selected_rows_repeated :
    let world := world [(.beforeDelete, "check"), (.afterUpdate, "check")]
    let ids := [7, 2, 2]
    let values : Row := .ofList [("text", .string "changed")]
    let deleted := (notes.delete callbacks ids world).2.storage notes
    let updated := (notes.update callbacks ids values world).2.storage notes
    notes.Proceeding callbacks .delete (fun _ => True) world ∧
    notes.Proceeding callbacks .update (fun _ => True) world ∧
    (world.storage notes).rows.keys = [1, 2, 3] ∧ deleted.rows.keys = [1, 3] ∧
    deleted.rows.entries = (world.storage notes).rows.entries.filter (·.1 ≠ 2) ∧
    (notes.update callbacks ids values world).1 = .ok 2 ∧
    updated.rows.entries = ((world.storage notes).rows.entries.map fun entry =>
      if entry.1 = 2 then (entry.1, entry.2.merge values) else entry) ∧
    ∀ table, table ≠ "notes" →
      ((notes.delete callbacks ids world).2.database "main").storage table =
        (world.database "main").storage table := by
  intro world ids values deleted updated
  have deleting : notes.Proceeding callbacks .delete (fun _ => True) world :=
    proceeding_world .delete (by decide)
  have updating : notes.Proceeding callbacks .update (fun _ => True) world :=
    proceeding_world .update (by decide)
  have there : (world.storage notes).rows.keys = [1, 2, 3] := by decide +kernel
  have ran : (notes.update callbacks ids values world).1 = .ok 2 := by decide +kernel
  have selected : ∀ entry ∈ (world.storage notes).rows.entries, entry.1 ∈ ids ↔ entry.1 = 2 := by
    intro entry listed
    have key : entry.1 ∈ (world.storage notes).rows.keys := List.mem_map_of_mem listed
    rw [there] at key
    simp only [List.mem_cons, List.not_mem_nil, or_false] at key
    rcases key with key | key | key <;> rw [key] <;> decide
  obtain ⟨⟨-, left, -⟩, -, merged, elsewhere⟩ :=
    Handle.selected_rows_exact deleting updating ids values
  refine ⟨deleting, updating, there, by decide +kernel, ?_, ran, ?_, ?_⟩
  · refine left.trans (List.filter_congr fun entry listed => ?_)
    simp only [selected entry listed]
  · refine (merged 2 ran).2.2.1.trans (List.map_congr_left fun entry listed => ?_)
    simp only [selected entry listed]
  · intro table other
    have apart : ("main", table) ≠ (notes.database, notes.name) := fun same =>
      other (Prod.ext_iff.1 same).2
    refine RowCommand.unchanged_of_spared ?_ (elsewhere "main" table apart).1
    rintro _ _ ⟨timing, hook, -, args, now, -, rfl, rfl⟩
    rw [World.database, databases_call]
    rfl

end Noting

namespace Drafted

open Idle

def articles : Handle where
  id := ⟨"main", 0⟩
  definition := {
    name := "articles"
    fields := [.plain { name := "text" }, .plain { name := "author" }, .plain { name := "state" }] }

/-- The table has two rows. -/
def world : World Unit (Observed Unit Unit) :=
  ((Routine.define "main" articles.definition fun _ =>
      .insert articles.id (.ofList [("text", .string "idea")]) fun _ =>
        .insert articles.id (.ofList [("text", .string "other")]) fun _ => .finish (.ok ())).run
    callbacks start).2

def draft : Row := .ofList [("text", .string "draft"), ("author", .string "guest")]

def final : Row := .ofList [("state", .string "done"), ("text", .string "final")]

/-- Of the text that is changed twice the later one is left, next to the columns that one update
alone sets. The other row stays as it is. -/
theorem update_fused_drafts :
    let ids := [1, 7, 1]
    let between := (articles.update callbacks ids draft world).2
    let fused := articles.update callbacks ids (draft.merge final) world
    (∀ timing, (world.decoration articles).hooks (.ofParts timing .update) = []) ∧
    (articles.update callbacks ids draft world).1 = .ok 2 ∧
    (articles.update callbacks ids final between).1 = .ok 2 ∧
    fused.1 = .ok 2 ∧ fused.2 = (articles.update callbacks ids final between).2 ∧
    (fused.2.storage articles).rows.entries.map (fun entry => (entry.1, entry.2.entries)) = [
      (1, [("text", .string "final"), (idColumn, .ofUInt64 1), ("author", .string "guest"),
        ("state", .string "done")]),
      (2, [("text", .string "other"), (idColumn, .ofUInt64 2)])] := by
  intro ids between fused
  have none : ∀ timing, (world.decoration articles).hooks (.ofParts timing .update) = [] := by
    intro timing
    have attached : (world.decoration articles).attached = [] :=
      List.isEmpty_iff.1 (by decide +kernel)
    rw [Decoration.hooks, attached, List.filterMap_nil]
  have ran : (articles.update callbacks ids draft world).1 = .ok 2 := by decide +kernel
  have ran_later : (articles.update callbacks ids final between).1 = .ok 2 := by decide +kernel
  obtain ⟨counted, -, same, merged⟩ := Handle.update_fused none ran ran_later
  refine ⟨none, ran, ran_later, counted, same, ?_⟩
  rw [merged]
  rfl

end Drafted
end SchemaCompiler
