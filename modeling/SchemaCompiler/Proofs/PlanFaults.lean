import Mathlib.Data.List.Induction
import Mathlib.Data.List.Nodup
import SchemaCompiler.Index.Plan

/-! What a plan is refused for. An entry is judged after those before it, and the plan is refused
at its first entry at fault, with what that entry alone is refused with. Whether an entry is at
fault is said here without the check and its list of seen names. -/
namespace SchemaCompiler

/-- After others, an entry is at fault that has no name, no column, or the name of one of them. -/
def PlanEntry.AtFault (earlier : Plan) (entry : PlanEntry) : Prop :=
  entry.name = "" ∨ entry.columns = [] ∨ entry.name ∈ earlier.map PlanEntry.name

/-- What an entry at fault is refused with. A missing name comes first and a repeated one last. -/
def PlanEntry.refusal (table : String) (entry : PlanEntry) : MigrationError :=
  if entry.name = "" then .invalidIndex table "" "index name is empty"
  else if entry.columns = [] then .invalidIndex table entry.name "index has no columns"
  else .duplicateIndex table entry.name

namespace Plan

variable {table : String} {plan : Plan} {entry : PlanEntry}

/-- No entry is at fault after those before it. -/
def Faultless (plan : Plan) : Prop :=
  ∀ earlier entry later, plan = earlier ++ entry :: later → ¬ entry.AtFault earlier

/-- An entry of the plan is its first at fault, and comes after the given ones. -/
def FirstFault (plan earlier : Plan) (entry : PlanEntry) : Prop :=
  (∃ later, plan = earlier ++ entry :: later) ∧ entry.AtFault earlier ∧ earlier.Faultless

theorem faultless_nil : Faultless [] := by
  intro earlier entry later same
  simp at same

theorem faultless_concat : Faultless (plan ++ [entry]) ↔ plan.Faultless ∧ ¬ entry.AtFault plan := by
  constructor
  · intro faultless
    refine ⟨fun earlier other later same => ?_, faultless plan entry [] rfl⟩
    exact faultless earlier other (later ++ [entry]) (by simp [same])
  · rintro ⟨faultless, sane⟩ earlier other later same
    rcases List.eq_nil_or_concat later with rfl | ⟨front, last, rfl⟩
    · obtain ⟨rfl, single⟩ := List.append_inj' same rfl
      obtain rfl : entry = other := by simpa using single
      exact sane
    · have split : plan ++ [entry] = (earlier ++ other :: front) ++ [last] := by simpa using same
      exact faultless earlier other front (List.append_inj' split rfl).1

theorem Faultless.distinct (faultless : plan.Faultless) : (plan.map PlanEntry.name).Nodup := by
  induction plan using List.reverseRecOn with
  | nil => exact .nil
  | append_singleton plan entry ih =>
    obtain ⟨front, sane⟩ := faultless_concat.mp faultless
    rw [List.map_append, List.map_singleton, ← List.concat_eq_append]
    exact (ih front).concat fun repeated => sane (.inr (.inr repeated))

/-- The check of an entry that is at fault after others, given the names of those. -/
private theorem checkFrom_at_fault {seen : List String} {earlier rest : Plan}
    (names : ∀ name, name ∈ seen ↔ name ∈ earlier.map PlanEntry.name)
    (fault : entry.AtFault earlier) :
    checkFrom table seen (entry :: rest) = .error (entry.refusal table) := by
  unfold checkFrom PlanEntry.check PlanEntry.refusal
  by_cases unnamed : entry.name = ""
  · simp only [unnamed, ↓reduceIte]
    rfl
  · by_cases bare : entry.columns = []
    · simp only [unnamed, bare, List.isEmpty_nil, ↓reduceIte]
      rfl
    · have repeated : entry.name ∈ seen :=
        (names _).mpr ((fault.resolve_left unnamed).resolve_left bare)
      have columns : entry.columns.isEmpty = false := by simpa using bare
      simp only [unnamed, bare, columns, repeated, Bool.false_eq_true, ↓reduceIte]
      rfl

/-- The check goes past an entry that is not at fault after others. -/
private theorem checkFrom_past {seen : List String} {earlier rest : Plan}
    (names : ∀ name, name ∈ seen ↔ name ∈ earlier.map PlanEntry.name)
    (sane : ¬ entry.AtFault earlier) :
    checkFrom table seen (entry :: rest) = checkFrom table (entry.name :: seen) rest := by
  simp only [PlanEntry.AtFault, not_or, ← names] at sane
  obtain ⟨named, columns, fresh⟩ := sane
  have filled : entry.columns.isEmpty = false := by simpa using columns
  rw [checkFrom, PlanEntry.check]
  simp only [named, filled, fresh, Bool.false_eq_true, ↓reduceIte]
  rfl

private theorem checkFrom_exact {seen : List String} (earlier rest : Plan)
    (names : ∀ name, name ∈ seen ↔ name ∈ earlier.map PlanEntry.name)
    (faultless : earlier.Faultless) :
    checkFrom table seen rest = .ok () ∧ Faultless (earlier ++ rest) ∨
      ∃ front entry, FirstFault (earlier ++ rest) front entry ∧
        checkFrom table seen rest = .error (entry.refusal table) := by
  induction rest generalizing earlier seen with
  | nil => exact .inl ⟨rfl, by simpa using faultless⟩
  | cons entry rest ih =>
    by_cases fault : entry.AtFault earlier
    · exact .inr ⟨earlier, entry, ⟨⟨rest, rfl⟩, fault, faultless⟩, checkFrom_at_fault names fault⟩
    · have extended : ∀ name, name ∈ entry.name :: seen ↔
          name ∈ (earlier ++ [entry]).map PlanEntry.name := by
        intro name
        simp [names, or_comm]
      have step := ih (earlier ++ [entry]) extended (faultless_concat.mpr ⟨faultless, fault⟩)
      rw [List.append_assoc, List.singleton_append] at step
      rw [checkFrom_past names fault]
      exact step

/-- A plan passes its check, or is refused for its first entry at fault. -/
theorem check_exact (table : String) (plan : Plan) :
    plan.check table = .ok () ∧ plan.Faultless ∨
      ∃ earlier entry, plan.FirstFault earlier entry ∧
        plan.check table = .error (entry.refusal table) :=
  checkFrom_exact [] plan (by simp) faultless_nil

private theorem FirstFault.not_faultless {earlier : Plan} (first : plan.FirstFault earlier entry) :
    ¬ plan.Faultless := by
  obtain ⟨⟨later, same⟩, fault, -⟩ := first
  exact fun faultless => faultless earlier entry later same fault

theorem check_ok_iff : plan.check table = .ok () ↔ plan.Faultless := by
  rcases check_exact table plan with ⟨passed, faultless⟩ | ⟨earlier, entry, first, refused⟩
  · exact ⟨fun _ => faultless, fun _ => passed⟩
  · rw [refused]
    exact ⟨nofun, fun faultless => absurd faultless first.not_faultless⟩

end Plan
end SchemaCompiler
