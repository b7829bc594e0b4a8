import Mathlib.Data.List.Infix
import SchemaCompiler.Config.Expansion

/-! Replacing every occurrence of a text in another. The fuel of the loop is enough, so the result
can be followed from the left (`replaced_induction`): an occurrence gives way as a whole, and any
other character is passed. Two parts of a text are replaced on their own unless an occurrence begins
in one and ends in the other (`replaced_append`). -/
namespace SchemaCompiler.Config

section Replacing

variable {text replacement : List Char}

/-- A text after every occurrence of another is replaced. -/
def replaced (text replacement cs : List Char) : List Char :=
  replaceAll text replacement cs.length cs

private theorem replaceAll_fuel (something : text ≠ []) {fuel : Nat} {cs : List Char}
    (enough : cs.length ≤ fuel) :
    replaceAll text replacement fuel cs = replaced text replacement cs := by
  suffices general : ∀ fuel fuel' (cs : List Char), cs.length ≤ fuel → cs.length ≤ fuel' →
      replaceAll text replacement fuel cs = replaceAll text replacement fuel' cs from
    general fuel cs.length cs enough (Nat.le_refl _)
  clear enough
  intro fuel
  induction fuel with
  | zero =>
    intro fuel' cs enough _
    obtain rfl := List.length_eq_zero_iff.1 (Nat.le_zero.1 enough)
    cases fuel' <;> rfl
  | succ fuel ih =>
    intro fuel' cs enough enough'
    cases cs with
    | nil => cases fuel' <;> rfl
    | cons c rest =>
      rw [List.length_cons] at enough enough'
      obtain ⟨fuel', rfl⟩ : ∃ less, fuel' = less + 1 := ⟨fuel' - 1, by omega⟩
      have positive := List.length_pos_iff.2 something
      rw [replaceAll, replaceAll, ih fuel' rest (by omega) (by omega),
        ih fuel' _ (by rw [List.length_drop, List.length_cons]; omega)
          (by rw [List.length_drop, List.length_cons]; omega)]

@[simp] theorem replaced_nil : replaced text replacement [] = [] := rfl

theorem replaced_match (something : text ≠ []) (rest : List Char) :
    replaced text replacement (text ++ rest) = replacement ++ replaced text replacement rest := by
  obtain ⟨c, tail, rfl⟩ := List.exists_cons_of_ne_nil something
  rw [replaced, List.cons_append, List.length_cons, replaceAll, if_pos (by simp),
    ← List.cons_append, List.drop_left, replaceAll_fuel something (by simp)]

theorem replaced_cons (something : text ≠ []) {c : Char} {rest : List Char}
    (none : ¬text <+: c :: rest) :
    replaced text replacement (c :: rest) = c :: replaced text replacement rest := by
  rw [replaced, List.length_cons, replaceAll, if_neg (by simpa using none),
    replaceAll_fuel something (Nat.le_refl _)]

/-- A text is replaced from the left: an occurrence at the front gives way as a whole, and any other
character is passed. -/
theorem replaced_induction (something : text ≠ []) {P : List Char → List Char → Prop}
    (nil : P [] [])
    (found : ∀ rest result, P rest result → P (text ++ rest) (replacement ++ result))
    (passed : ∀ c rest result, ¬text <+: c :: rest → P rest result → P (c :: rest) (c :: result))
    (cs : List Char) : P cs (replaced text replacement cs) := by
  induction size : cs.length using Nat.strong_induction_on generalizing cs with
  | h size ih =>
    subst size
    by_cases there : text <+: cs
    · obtain ⟨rest, rfl⟩ := there
      rw [replaced_match something]
      refine found rest _ (ih _ ?_ rest rfl)
      rw [List.length_append]
      exact Nat.lt_add_of_pos_left (List.length_pos_iff.2 something)
    · cases cs with
      | nil => exact nil
      | cons c rest =>
        rw [replaced_cons something there]
        exact passed c rest _ there (ih _ (Nat.lt_succ_self _) rest rfl)

/-- If no occurrence begins in one part of a text and ends in the next, each part is replaced on its
own. -/
theorem replaced_append (something : text ≠ []) {first second : List Char}
    (within : ∀ part, part <:+ first → part ≠ [] → text <+: part ++ second → text <+: part) :
    replaced text replacement (first ++ second) =
      replaced text replacement first ++ replaced text replacement second := by
  refine replaced_induction something (P := fun first result =>
    (∀ part, part <:+ first → part ≠ [] → text <+: part ++ second → text <+: part) →
      replaced text replacement (first ++ second) = result ++ replaced text replacement second)
    (fun _ => rfl) ?_ ?_ first within
  · intro rest result ih within
    rw [List.append_assoc, replaced_match something, List.append_assoc,
      ih fun part inside => within part (inside.trans (List.suffix_append text rest))]
  · intro c rest result absent ih within
    have still : ¬text <+: c :: (rest ++ second) := fun found =>
      absent (within _ List.suffix_rfl (List.cons_ne_nil c rest) found)
    rw [List.cons_append, replaced_cons something still, List.cons_append,
      ih fun part inside => within part (inside.trans (List.suffix_cons c rest))]

/-- What does not occur is not replaced. -/
theorem replaced_eq_self (something : text ≠ []) {cs : List Char} (none : ¬text <:+: cs) :
    replaced text replacement cs = cs := by
  induction cs with
  | nil => rfl
  | cons c rest ih =>
    rw [replaced_cons something fun found => none found.isInfix,
      ih fun found => none (found.trans (List.suffix_cons c rest).isInfix)]

theorem head?_replaced (something : text ≠ []) {c : Char} {cs : List Char}
    (first : cs.head? = some c) (value_first : replacement.head? = some c) :
    (replaced text replacement cs).head? = some c := by
  refine replaced_induction something (P := fun cs result => cs.head? = some c →
    result.head? = some c) id ?_ ?_ cs first
  · intro rest result _ _
    rw [List.head?_append, value_first, Option.some_or]
  · exact fun _ _ _ _ _ => id

theorem getLast?_replaced (something : text ≠ []) {c : Char} {cs : List Char}
    (last : cs.getLast? = some c) (value_last : replacement.getLast? = some c) :
    (replaced text replacement cs).getLast? = some c := by
  -- What stands before a text counts if the text is empty.
  suffices general : ∀ before : Option Char, cs.getLast?.or before = some c →
      (replaced text replacement cs).getLast?.or before = some c by
    simpa using general none (by simpa using last)
  refine replaced_induction something (P := fun cs result => ∀ before : Option Char,
    cs.getLast?.or before = some c → result.getLast?.or before = some c) (fun _ => id) ?_ ?_ cs
  · intro rest result ih before ends
    have kept := ih (some c) (by
      cases rest_ends : rest.getLast? with
      | none => rfl
      | some d => simpa [rest_ends] using ends)
    rw [List.getLast?_append, value_last, kept, Option.some_or]
  · intro d rest result _ ih before ends
    have kept := ih (some d) (by simpa [List.getLast?_cons, Option.or_some] using ends)
    simpa [List.getLast?_cons, Option.or_some] using kept

end Replacing

end SchemaCompiler.Config
