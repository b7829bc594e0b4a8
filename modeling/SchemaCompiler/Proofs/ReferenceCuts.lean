import Mathlib.Data.List.Infix
import Mathlib.Data.List.TakeWhile
import SchemaCompiler.Config.Expansion

/-! The references of a text. They are those of its leftmost cut (`Cut`): whatever can be read as a
reference is one, from the left, and all other characters stand for themselves. Every text has one
such cut, which can be computed (`cut_cutOf`, `Cut.unique`). Other texts come from it by writing
something else for the references (`written`). -/
namespace SchemaCompiler.Config

/-! ## Cutting a text -/

/-- The text of a reference. -/
def refText (name : List Char) : List Char := '$' :: '\x7b' :: name ++ ['\x7d']

/-- What can stand in a reference: something, and no closing brace. -/
def IsName (name : List Char) : Prop := name ≠ [] ∧ '\x7d' ∉ name

/-- A piece of a text. -/
inductive Piece where
  | char (c : Char)
  | reference (name : List Char)

/-- The leftmost cut of a text: whatever can be read as a reference is one, from the left. -/
inductive Cut : List Char → List Piece → Prop
  | nil : Cut [] []
  | reference {name rest : List Char} {pieces : List Piece} (isName : IsName name)
      (cut : Cut rest pieces) : Cut (refText name ++ rest) (.reference name :: pieces)
  | char {c : Char} {rest : List Char} {pieces : List Piece}
      (plain : ∀ name after, IsName name → c :: rest ≠ refText name ++ after)
      (cut : Cut rest pieces) : Cut (c :: rest) (.char c :: pieces)

/-- The name of a reference. -/
def Piece.name? : Piece → Option (List Char)
  | .char _ => none
  | .reference name => some name

/-- The references of a cut, from left to right. -/
def names (pieces : List Piece) : List (List Char) := pieces.filterMap Piece.name?

theorem mem_names {pieces : List Piece} {name : List Char} :
    name ∈ names pieces ↔ .reference name ∈ pieces := by
  rw [names, List.mem_filterMap]
  constructor
  · rintro ⟨piece, isPiece, named⟩
    cases piece <;> cases named
    exact isPiece
  · exact fun isPiece => ⟨_, isPiece, rfl⟩

theorem names_subset_cons (piece : Piece) (pieces : List Piece) :
    names pieces ⊆ names (piece :: pieces) := fun _ later =>
  mem_names.2 (List.mem_cons_of_mem _ (mem_names.1 later))

theorem length_refText (name : List Char) : (refText name).length = name.length + 3 := by
  simp [refText]

private theorem reference?_closed {name : List Char} (unclosed : '\x7d' ∉ name)
    (after : List Char) :
    reference? ('$' :: '\x7b' :: (name ++ '\x7d' :: after)) =
      if name = [] then none else some (name, after) := by
  have taken : (name ++ '\x7d' :: after).takeWhile (· ≠ '\x7d') = name := by
    rw [List.takeWhile_append_of_pos]
    · simp
    · intro c inName
      simpa using ne_of_mem_of_not_mem inName unclosed
  simp only [reference?, taken, List.drop_left, List.isEmpty_iff]

private theorem reference?_open {rest : List Char} (unclosed : '\x7d' ∉ rest) :
    reference? ('$' :: '\x7b' :: rest) = none := by
  have taken : rest.takeWhile (· ≠ '\x7d') = rest := by
    rw [List.takeWhile_eq_self_iff]
    intro c inRest
    simpa using ne_of_mem_of_not_mem inRest unclosed
  simp only [reference?, taken, List.drop_length]
  split <;> rfl

/-- A reference is read off the front of a text exactly if its text stands there. -/
theorem reference?_eq_some_iff {cs name rest : List Char} :
    reference? cs = some (name, rest) ↔ IsName name ∧ cs = refText name ++ rest := by
  constructor
  · intro read
    obtain ⟨cs, rfl⟩ : ∃ after, cs = '$' :: '\x7b' :: after := by
      unfold reference? at read
      split at read
      · exact ⟨_, rfl⟩
      · cases read
    by_cases closed : '\x7d' ∈ cs
    · obtain ⟨name', after, rfl, unclosed⟩ := List.eq_append_cons_of_mem closed
      rw [reference?_closed unclosed] at read
      split at read
      · cases read
      · next something =>
        cases read
        exact ⟨⟨something, unclosed⟩, by simp [refText]⟩
    · rw [reference?_open closed] at read
      cases read
  · rintro ⟨⟨something, unclosed⟩, rfl⟩
    have read := reference?_closed unclosed rest
    rw [if_neg something] at read
    simpa [refText] using read

theorem refText_inj {name name' rest rest' : List Char} (isName : IsName name)
    (isName' : IsName name') (same : refText name ++ rest = refText name' ++ rest') :
    name = name' ∧ rest = rest' := by
  have read := reference?_eq_some_iff.2 ⟨isName', same⟩
  rw [reference?_eq_some_iff.2 ⟨isName, rfl⟩] at read
  cases read
  exact ⟨rfl, rfl⟩

/-- Cuts a text that is no longer than the fuel. -/
def cutOf : Nat → List Char → List Piece
  | 0, _ => []
  | _, [] => []
  | fuel + 1, c :: rest =>
    match reference? (c :: rest) with
    | some (name, rest) => .reference name :: cutOf fuel rest
    | none => .char c :: cutOf fuel rest

/-- The references that are found in a text are those of its cut. -/
theorem names_cutOf (fuel : Nat) (cs : List Char) : names (cutOf fuel cs) = references fuel cs := by
  induction fuel generalizing cs with
  | zero => rfl
  | succ fuel ih =>
    cases cs with
    | nil => rfl
    | cons c rest =>
      rw [cutOf, references]
      cases reference? (c :: rest) with
      | some found => exact congrArg _ (ih found.2)
      | none => exact ih rest

theorem cut_cutOf {fuel : Nat} {cs : List Char} (enough : cs.length ≤ fuel) :
    Cut cs (cutOf fuel cs) := by
  induction fuel generalizing cs with
  | zero =>
    obtain rfl := List.length_eq_zero_iff.1 (Nat.le_zero.1 enough)
    exact .nil
  | succ fuel ih =>
    cases cs with
    | nil => exact .nil
    | cons c rest =>
      rw [List.length_cons] at enough
      rw [cutOf]
      cases read : reference? (c :: rest) with
      | some found =>
        obtain ⟨name, after⟩ := found
        obtain ⟨isName, same⟩ := reference?_eq_some_iff.1 read
        have shorter : after.length ≤ fuel := by
          have lengths := congrArg List.length same
          rw [List.length_append, length_refText, List.length_cons] at lengths
          omega
        rw [same]
        exact .reference isName (ih shorter)
      | none =>
        refine .char (fun name after isName same => ?_) (ih (Nat.le_of_succ_le_succ enough))
        rw [reference?_eq_some_iff.2 ⟨isName, same⟩] at read
        cases read

theorem Cut.unique {cs : List Char} {pieces pieces' : List Piece} (cut : Cut cs pieces)
    (cut' : Cut cs pieces') : pieces = pieces' := by
  induction cut generalizing pieces' with
  | nil =>
    generalize nothing : ([] : List Char) = cs at cut'
    cases cut' with
    | nil => rfl
    | reference | char => simp [refText] at nothing
  | @reference name rest pieces isName cut ih =>
    generalize same : refText name ++ rest = cs at cut'
    cases cut' with
    | nil => simp [refText] at same
    | reference isName' cut' =>
      obtain ⟨rfl, rfl⟩ := refText_inj isName isName' same
      rw [ih cut']
    | char plain => exact absurd same.symm (plain _ _ isName)
  | @char c rest pieces plain cut ih =>
    generalize same : c :: rest = cs at cut'
    cases cut' with
    | nil => cases same
    | reference isName' => exact absurd same (plain _ _ isName')
    | char plain' cut' =>
      cases same
      rw [ih cut']

/-! ## Writing the pieces of a text -/

/-- What is written for a piece, if `now` is what is written for references. -/
def Piece.written (now : List Char → List Char) : Piece → List Char
  | .char c => [c]
  | .reference name => now name

/-- What is written for the pieces of a text. -/
def written (now : List Char → List Char) (pieces : List Piece) : List Char :=
  pieces.flatMap (Piece.written now)

@[simp] theorem written_nil (now : List Char → List Char) : written now [] = [] := rfl

@[simp] theorem written_char (now : List Char → List Char) (c : Char) (pieces : List Piece) :
    written now (.char c :: pieces) = c :: written now pieces := rfl

@[simp] theorem written_reference (now : List Char → List Char) (name : List Char)
    (pieces : List Piece) :
    written now (.reference name :: pieces) = now name ++ written now pieces := rfl

/-- Only what is written for the references of a text matters. -/
theorem written_congr {now now' : List Char → List Char} {pieces : List Piece}
    (same : ∀ name ∈ names pieces, now name = now' name) :
    written now pieces = written now' pieces := by
  refine List.flatMap_congr fun piece isPiece => ?_
  cases piece with
  | char c => rfl
  | reference name => exact same name (mem_names.2 isPiece)

theorem Cut.written_refText {cs : List Char} {pieces : List Piece} (cut : Cut cs pieces) :
    written refText pieces = cs := by
  induction cut with
  | nil => rfl
  | reference isName cut ih => rw [written_reference, ih]
  | char plain cut ih => rw [written_char, ih]

theorem Cut.isName {cs name : List Char} {pieces : List Piece} (cut : Cut cs pieces)
    (isReference : name ∈ names pieces) : IsName name := by
  induction cut with
  | nil => cases isReference
  | reference isName cut ih =>
    rcases List.mem_cons.1 isReference with rfl | later
    · exact isName
    · exact ih later
  | char plain cut ih => exact ih isReference

/-- A text without closing braces has no references. -/
theorem Cut.written_open {cs : List Char} {pieces : List Piece} (cut : Cut cs pieces)
    (unclosed : '\x7d' ∉ cs) (now : List Char → List Char) : written now pieces = cs := by
  induction cut with
  | nil => rfl
  | reference => simp [refText] at unclosed
  | char plain cut ih =>
    rw [written_char, ih (List.not_mem_of_not_mem_cons unclosed)]

end SchemaCompiler.Config
