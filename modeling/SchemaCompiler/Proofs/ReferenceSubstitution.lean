import SchemaCompiler.Proofs.ReferenceCuts
import SchemaCompiler.Proofs.TextReplacement

/-! Replacing one reference after the other, against replacing all of them at once (`render`). As
long as no reference can begin in one piece of the text and end in another, each replacement goes on
in every piece on its own (`replaced_written`), and so do all of them (`foldl_written`). If the
values that are put in keep out of each other's way as well (`Calm`), each reference is replaced when
its turn comes and nothing else ever is, so the text comes to what is due (`Calm.expanded`). -/
namespace SchemaCompiler.Config

/-! ## Replacing piece by piece -/

/-- Whether no reference begins in a text and ends beyond it. -/
def Tight (cs : List Char) : Prop :=
  ∀ name part after, IsName name → part <:+ cs → part ≠ [] → refText name <+: part ++ after →
    refText name <+: part

/-- Whether what is written for references leaves the pieces of a text apart: nothing begins in it
that ends beyond it, and it does not go on with what a dollar sign before it begins. -/
structure Apart (now : List Char → List Char) (pieces : List Piece) : Prop where
  tight : ∀ name ∈ names pieces, Tight (now name)
  joined : ∀ name, [.char '$', .reference name] <:+: pieces →
    ∃ c rest, now name = c :: rest ∧ c ≠ '\x7b'

theorem Apart.tail {now : List Char → List Char} {piece : Piece} {pieces : List Piece}
    (apart : Apart now (piece :: pieces)) : Apart now pieces where
  tight name isReference := apart.tight name (names_subset_cons piece pieces isReference)
  joined name stands := apart.joined name (stands.trans (List.suffix_cons piece pieces).isInfix)

/-- A character of a cut text begins no reference, whatever is written for those that follow. -/
private theorem Cut.plain_written {c : Char} {rest name : List Char} {pieces : List Piece}
    {now : List Char → List Char} (cut : Cut rest pieces)
    (plain : ∀ name after, IsName name → c :: rest ≠ refText name ++ after)
    (apart : Apart now (.char c :: pieces)) (isName : IsName name) :
    ¬refText name <+: c :: written now pieces := by
  intro found
  rw [refText, List.cons_append, List.cons_append, List.cons_prefix_cons] at found
  obtain ⟨rfl, found⟩ := found
  cases cut with
  | nil => simp at found
  | @reference other after pieces otherName cut =>
    obtain ⟨d, tail, same, brace⟩ := apart.joined other ⟨[], pieces, rfl⟩
    rw [written_reference, same, List.cons_append, List.cons_prefix_cons] at found
    exact brace found.1.symm
  | @char d after pieces plain' cut =>
    rw [written_char, List.cons_prefix_cons] at found
    obtain ⟨rfl, found⟩ := found
    by_cases closed : '\x7d' ∈ after
    · -- The text would have a reference here, unless nothing stands between the braces.
      obtain ⟨inner, beyond, rfl, unclosed⟩ := List.eq_append_cons_of_mem closed
      cases inner with
      | cons e inner => exact plain (e :: inner) beyond ⟨by simp, unclosed⟩ (by simp [refText])
      | nil =>
        cases cut with
        | char plain cut =>
          rw [written_char] at found
          obtain ⟨first, others, rfl⟩ := List.exists_cons_of_ne_nil isName.1
          rw [List.cons_append, List.cons_prefix_cons] at found
          exact isName.2 (found.1 ▸ List.mem_cons_self)
    · rw [cut.written_open closed] at found
      exact closed (found.subset (by simp))

/-- References are replaced in each piece of a text on its own. -/
theorem replaced_written {cs name replacement : List Char} {pieces : List Piece}
    {now : List Char → List Char} (cut : Cut cs pieces) (apart : Apart now pieces)
    (isName : IsName name) :
    replaced (refText name) replacement (written now pieces) =
      written (fun other => replaced (refText name) replacement (now other)) pieces := by
  have something : refText name ≠ [] := List.cons_ne_nil _ _
  induction cut with
  | nil => rfl
  | @reference other rest pieces otherName cut ih =>
    rw [written_reference, written_reference, replaced_append something, ih apart.tail]
    intro part inside nonempty
    exact apart.tight other (mem_names.2 List.mem_cons_self) name part _ isName inside nonempty
  | @char c rest pieces plain cut ih =>
    rw [written_char, written_char, replaced_cons something (cut.plain_written plain apart isName),
      ih apart.tail]

/-! ## Replacing one reference after the other -/

/-- The value of a variable, as characters. -/
def valueOf (env : Environment) (name : List Char) : Option (List Char) :=
  (env.get? (String.ofList name)).map String.toList

/-- What is due for a reference: its value or, if there is none, the reference. -/
def due (env : Environment) (name : List Char) : List Char :=
  (valueOf env name).getD (refText name)

/-- The text that is due: all its references are replaced at once. -/
def render (env : Environment) (pieces : List Piece) : List Char := written (due env) pieces

section Substituting

variable {env : Environment} {cs name : List Char} {pieces : List Piece}

theorem substitute_set {value : List Char} (set : valueOf env name = some value) :
    substitute env cs name = replaced (refText name) value cs := by
  obtain ⟨text, found, rfl⟩ := Option.map_eq_some_iff.1 set
  simp only [substitute, found]
  rfl

theorem substitute_unset (unset : valueOf env name = none) : substitute env cs name = cs := by
  simp only [substitute, Option.map_eq_none_iff.1 unset]

theorem substitute_refText (env : Environment) (name : List Char) :
    substitute env (refText name) name = due env name := by
  have something : refText name ≠ [] := List.cons_ne_nil _ _
  unfold due
  cases found : valueOf env name with
  | none => exact substitute_unset found
  | some value =>
    have whole : replaced (refText name) value (refText name ++ []) = value ++ [] :=
      replaced_match something []
    rw [substitute_set found]
    simpa using whole

/-- A reference that does not occur is not replaced. -/
theorem substitute_eq_self (absent : valueOf env name = none ∨ ¬refText name <:+: cs) :
    substitute env cs name = cs := by
  cases found : valueOf env name with
  | none => exact substitute_unset found
  | some value =>
    rw [substitute_set found]
    exact replaced_eq_self (List.cons_ne_nil _ _) (absent.resolve_left (by simp [found]))

theorem substitute_written {now : List Char → List Char} (cut : Cut cs pieces)
    (apart : Apart now pieces) (isName : IsName name) :
    substitute env (written now pieces) name =
      written (fun other => substitute env (now other) name) pieces := by
  cases found : valueOf env name with
  | none => simp only [substitute_unset found]
  | some value =>
    simp only [substitute_set found]
    exact replaced_written cut apart isName

/-- Several references are replaced in each piece of a text on its own, if what is written for its
references in the meantime leaves its pieces apart. -/
theorem foldl_written (cut : Cut cs pieces) (Meanwhile : List Char → List Char → Prop)
    (apart : ∀ now, (∀ name ∈ names pieces, Meanwhile name (now name)) → Apart now pieces)
    {list : List (List Char)} (listed : list ⊆ names pieces)
    (step : ∀ name ∈ names pieces, ∀ other ∈ names pieces, ∀ part, Meanwhile name part →
      Meanwhile name (substitute env part other))
    {now : List Char → List Char} (start : ∀ name ∈ names pieces, Meanwhile name (now name)) :
    list.foldl (substitute env) (written now pieces) =
      written (fun name => list.foldl (substitute env) (now name)) pieces := by
  induction list generalizing now with
  | nil => rfl
  | cons other rest ih =>
    obtain ⟨isReference, listed⟩ := List.cons_subset.1 listed
    rw [List.foldl_cons, substitute_written cut (apart now start) (cut.isName isReference),
      ih listed fun name isReference' => step name isReference' other isReference _
        (start name isReference')]
    rfl

/-! ## Texts that stay apart -/

theorem getLast?_refText (name : List Char) : (refText name).getLast? = some '\x7d' := by
  rw [refText, List.getLast?_concat]

/-- Nothing goes on beyond a closing brace. -/
theorem tight_of_closed (closed : cs.getLast? = some '\x7d') : Tight cs := by
  intro name part after isName inside nonempty found
  rcases List.prefix_or_prefix_of_prefix found (List.prefix_append part after) with
    whole | ⟨rest, same⟩
  · exact whole
  · cases rest using List.reverseRecOn with
    | nil => exact ⟨[], by simpa using same.symm⟩
    | append_singleton rest last =>
      -- The closing brace that the part ends with would be inside of the name.
      rw [← List.append_assoc, refText] at same
      have inner : part ++ rest = '$' :: '\x7b' :: name := (List.append_inj' same rfl).1
      obtain ⟨before, rfl⟩ := inside
      rw [List.getLast?_append_of_ne_nil _ nonempty] at closed
      have brace : '\x7d' ∈ part ++ rest := List.mem_append_left _ (List.mem_of_getLast? closed)
      rw [inner] at brace
      exact absurd (by simpa using brace) isName.2

/-- Whether a text neither has the start of a reference in it nor ends in the middle of one. -/
def Quiet (cs : List Char) : Prop := ¬['$', '\x7b'] <:+: cs ∧ cs.getLast? ≠ some '$'

theorem Quiet.tight (quiet : Quiet cs) : Tight cs := by
  intro name part after isName inside nonempty found
  exfalso
  rw [refText, List.cons_append, List.cons_append] at found
  obtain _ | ⟨c, _ | ⟨d, part⟩⟩ := part
  · exact nonempty rfl
  · obtain ⟨rfl, -⟩ := List.cons_prefix_cons.1 found
    obtain ⟨before, rfl⟩ := inside
    exact quiet.2 (by simp)
  · simp only [List.cons_append, List.cons_prefix_cons] at found
    obtain ⟨rfl, rfl, -⟩ := found
    exact quiet.1 (List.IsInfix.trans ⟨[], part, rfl⟩ inside.isInfix)

theorem Quiet.none (quiet : Quiet cs) (name : List Char) : ¬refText name <:+: cs :=
  fun found => quiet.1 (List.IsInfix.trans ⟨[], name ++ ['\x7d'], rfl⟩ found)

/-- References do not overlap, but one can be the end of another. -/
private theorem refText_within {outer inner : List Char} (isName : IsName outer)
    (found : refText inner <:+: refText outer) :
    inner = outer ∨ '$' :: '\x7b' :: inner <:+ outer := by
  obtain ⟨before, after, same⟩ := found
  cases after using List.reverseRecOn with
  | append_singleton after last =>
    rw [← List.append_assoc, refText, refText] at same
    have inside := (List.append_inj' same rfl).1
    have brace : '\x7d' ∈ '$' :: '\x7b' :: outer := inside ▸ by simp
    exact absurd (by simpa using brace) isName.2
  | nil =>
    rw [List.append_nil, refText, refText, ← List.append_assoc] at same
    have inside := (List.append_inj' same rfl).1
    obtain _ | ⟨_, _ | ⟨_, before⟩⟩ := before
    · exact .inl (by simpa using inside)
    · simp at inside
    · exact .inr ⟨before, by simpa using (List.cons.inj (List.cons.inj inside).2).2⟩

/-! ## Calm substitutions -/

/-- Whether the values that are put in keep out of each other's way. -/
structure Calm (env : Environment) (pieces : List Piece) : Prop where
  quiet : ∀ name ∈ names pieces, ∀ value, valueOf env name = some value → Quiet value
  /-- A value does not go on with what a dollar sign before it begins. -/
  joined : ∀ name, [.char '$', .reference name] <:+: pieces → ∀ value,
    valueOf env name = some value → ∃ c rest, value = c :: rest ∧ c ≠ '\x7b'
  /-- No reference encloses one that is replaced. -/
  apart : ∀ outer ∈ names pieces, ∀ inner ∈ names pieces, '$' :: '\x7b' :: inner <:+ outer →
    valueOf env inner = none

namespace Calm

/-- Values that are not empty and have neither dollar signs nor opening braces are calm for texts
whose references do not enclose others. -/
theorem of_plain (values : ∀ name ∈ names pieces, ∀ value, valueOf env name = some value →
      value ≠ [] ∧ '$' ∉ value ∧ '\x7b' ∉ value)
    (single : ∀ name ∈ names pieces, '$' ∉ name) : Calm env pieces where
  quiet name isReference value set := by
    obtain ⟨-, dollar, -⟩ := values name isReference value set
    exact ⟨fun found => dollar (found.subset (by simp)),
      fun last => dollar (List.mem_of_getLast? last)⟩
  joined name stands value set := by
    obtain ⟨something, -, brace⟩ := values name (mem_names.2 (stands.subset (by simp))) value set
    obtain ⟨c, rest, rfl⟩ := List.exists_cons_of_ne_nil something
    exact ⟨c, rest, rfl, fun same => brace (same ▸ List.mem_cons_self)⟩
  apart outer isReference inner _ encloses :=
    absurd (encloses.subset List.mem_cons_self) (single outer isReference)

/-- What is written for a reference as long as expanding goes on. -/
def Meanwhile (env : Environment) (name part : List Char) : Prop :=
  part = refText name ∨ valueOf env name = some part

private theorem meanwhile_due (env : Environment) (name : List Char) :
    Meanwhile env name (due env name) := by
  unfold due
  cases found : valueOf env name with
  | none => exact .inl rfl
  | some value => exact .inr found

private theorem separates (calm : Calm env pieces) {now : List Char → List Char}
    (meanwhile : ∀ name ∈ names pieces, Meanwhile env name (now name)) : Apart now pieces where
  tight name isReference := by
    rcases meanwhile name isReference with same | set
    · rw [same]
      exact tight_of_closed (getLast?_refText name)
    · exact (calm.quiet name isReference _ set).tight
  joined name stands := by
    have isReference : name ∈ names pieces := mem_names.2 (stands.subset (by simp))
    rcases meanwhile name isReference with same | set
    · exact ⟨'$', _, same, by decide⟩
    · exact calm.joined name stands _ set

/-- A reference is replaced when its turn comes, and a value never is. -/
theorem substitute (calm : Calm env pieces) (cut : Cut cs pieces) {other part : List Char}
    (isReference : name ∈ names pieces) (isReference' : other ∈ names pieces)
    (meanwhile : Meanwhile env name part) :
    Config.substitute env part other = if other = name then due env name else part := by
  rcases meanwhile with rfl | set
  · split
    · next same => rw [same, substitute_refText]
    · next distinct =>
      refine substitute_eq_self (Classical.or_iff_not_imp_right.2 fun found => ?_)
      exact calm.apart name isReference other isReference'
        ((refText_within (cut.isName isReference) (not_not.1 found)).resolve_left distinct)
  · rw [substitute_eq_self (.inr ((calm.quiet name isReference _ set).none other)), due, set]
    simp

theorem foldl (calm : Calm env pieces) (cut : Cut cs pieces) {list : List (List Char)}
    (listed : list ⊆ names pieces) {part : List Char} (isReference : name ∈ names pieces)
    (meanwhile : Meanwhile env name part) :
    list.foldl (Config.substitute env) part = if name ∈ list then due env name else part := by
  induction list generalizing part with
  | nil => rfl
  | cons other rest ih =>
    obtain ⟨isReference', listed⟩ := List.cons_subset.1 listed
    rw [List.foldl_cons, calm.substitute cut isReference isReference' meanwhile]
    by_cases same : other = name
    · rw [if_pos same, ih listed (meanwhile_due env name), ite_self,
        if_pos (same ▸ List.mem_cons_self)]
    · rw [if_neg same, ih listed meanwhile]
      simp [Ne.symm same]

/-- Calm substitutions come to what is due. -/
theorem expanded (calm : Calm env pieces) (cut : Cut cs pieces) :
    (names pieces).foldl (Config.substitute env) cs = render env pieces := by
  have start (name : List Char) : Meanwhile env name (refText name) := .inl rfl
  rw [← cut.written_refText, foldl_written cut (Meanwhile env) (fun _ => calm.separates) (List.Subset.refl _)
    ?_ fun name _ => start name]
  · exact written_congr fun name isReference => by
      rw [calm.foldl cut (List.Subset.refl _) isReference (start name), if_pos isReference]
  · intro name isReference other isReference' part meanwhile
    rw [calm.substitute cut isReference isReference' meanwhile]
    split
    · exact meanwhile_due env name
    · exact meanwhile

end Calm

end Substituting

end SchemaCompiler.Config
