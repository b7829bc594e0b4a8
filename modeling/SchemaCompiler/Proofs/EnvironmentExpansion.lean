import SchemaCompiler.Proofs.ReferenceSubstitution

/-! What expanding comes to. A text with one reference is expanded as it should be in every
environment. With more than one there is always an environment where it is not: let the first two
references have the second one twice for their value. What is put in for the first is then replaced
again, which leaves more closing braces than are due (`Doubling.not_expanded`). `expand_exact` has
both, and what holds in calm environments. -/
namespace SchemaCompiler.Config

section Substituting

variable {env : Environment} {cs name : List Char} {pieces : List Piece}

/-! ## One reference and more -/

/-- What is written for references stays apart if it looks like references from outside. -/
def Framed (part : List Char) : Prop := part.head? = some '$' ∧ part.getLast? = some '\x7d'

private theorem framed_refText (name : List Char) : Framed (refText name) :=
  ⟨rfl, getLast?_refText name⟩

private theorem apart_of_framed {now : List Char → List Char}
    (framed : ∀ name ∈ names pieces, Framed (now name)) : Apart now pieces where
  tight name isReference := tight_of_closed (framed name isReference).2
  joined name stands := by
    obtain ⟨tail, same⟩ := List.head?_eq_some_iff.1
      (framed name (mem_names.2 (stands.subset (by simp)))).1
    exact ⟨'$', tail, same, by decide⟩

private theorem expanded_single (env : Environment) (cut : Cut cs pieces)
    (single : (names pieces).length ≤ 1) :
    (names pieces).foldl (substitute env) cs = render env pieces := by
  have apart : Apart refText pieces := apart_of_framed fun name _ => framed_refText name
  rw [← cut.written_refText]
  match listed : names pieces with
  | [] => exact written_congr (by simp [listed])
  | [name] =>
    rw [List.foldl_cons, List.foldl_nil,
      substitute_written cut apart (cut.isName (listed ▸ List.mem_cons_self))]
    refine written_congr fun other isReference => ?_
    obtain rfl : other = name := by simpa [listed] using isReference
    exact substitute_refText env other
  | _ :: _ :: _ => simp [listed] at single

theorem Framed.replaced {part value text : List Char} (framed : Framed part)
    (value_framed : Framed value) (something : text ≠ []) : Framed (replaced text value part) :=
  ⟨head?_replaced something framed.1 value_framed.1,
    getLast?_replaced something framed.2 value_framed.2⟩

/-- How often a text has a closing brace. -/
def closings (cs : List Char) : Nat := cs.count '\x7d'

private theorem closings_append (first second : List Char) :
    closings (first ++ second) = closings first + closings second := List.count_append

private theorem closings_cons (c : Char) (rest : List Char) :
    closings (c :: rest) = closings [c] + closings rest := closings_append [c] rest

private theorem closings_refText (isName : IsName name) : closings (refText name) = 1 := by
  simp [closings, refText, List.count_eq_zero.2 isName.2]

/-- With two closing braces put in for every reference, there are more of them for each reference
that occurs. -/
private theorem closings_replaced (isName : IsName name) {value : List Char}
    (two : closings value = 2) (cs : List Char) :
    closings cs ≤ closings (replaced (refText name) value cs) ∧
      (refText name <:+: cs → closings cs < closings (replaced (refText name) value cs)) := by
  have something : refText name ≠ [] := List.cons_ne_nil _ _
  refine replaced_induction something (P := fun cs result =>
    closings cs ≤ closings result ∧ (refText name <:+: cs → closings cs < closings result))
    ⟨Nat.le_refl _, fun found => by simp [refText] at found⟩ ?_ ?_ cs
  · rintro rest result ⟨more, -⟩
    rw [closings_append, closings_append, closings_refText isName, two]
    omega
  · rintro c rest result absent ⟨more, strictly⟩
    rw [closings_cons c rest, closings_cons c result]
    refine ⟨by omega, fun found => ?_⟩
    have later := strictly ((List.infix_cons_iff.1 found).resolve_left absent)
    omega

/-- Whether every value that is put in looks like two references. -/
def Doubling (env : Environment) (pieces : List Piece) : Prop :=
  ∀ name ∈ names pieces, ∀ value, valueOf env name = some value →
    Framed value ∧ closings value = 2

namespace Doubling

variable {part : List Char}

private theorem framed (doubling : Doubling env pieces) (isReference : name ∈ names pieces)
    (framed : Framed part) : Framed (substitute env part name) := by
  cases found : valueOf env name with
  | none => rwa [substitute_unset found]
  | some value =>
    rw [substitute_set found]
    exact framed.replaced (doubling name isReference value found).1 (List.cons_ne_nil _ _)

private theorem substitute_closings (doubling : Doubling env pieces) (cut : Cut cs pieces)
    (isReference : name ∈ names pieces) (part : List Char) :
    closings part ≤ closings (substitute env part name) ∧
      (valueOf env name ≠ none → refText name <:+: part →
        closings part < closings (substitute env part name)) := by
  cases found : valueOf env name with
  | none =>
    rw [substitute_unset found]
    exact ⟨Nat.le_refl _, fun set => absurd rfl set⟩
  | some value =>
    rw [substitute_set found]
    obtain ⟨more, strictly⟩ := closings_replaced (cut.isName isReference)
      (doubling name isReference value found).2 part
    exact ⟨more, fun _ => strictly⟩

private theorem foldl_closings (doubling : Doubling env pieces) (cut : Cut cs pieces)
    {list : List (List Char)} (listed : list ⊆ names pieces) (part : List Char) :
    closings part ≤ closings (list.foldl (substitute env) part) := by
  induction list generalizing part with
  | nil => exact Nat.le_refl _
  | cons name rest ih =>
    obtain ⟨isReference, listed⟩ := List.cons_subset.1 listed
    exact (doubling.substitute_closings cut isReference part).1.trans (ih listed _)

/-- A reference has at least the closing braces that are due, even if others are replaced first. -/
private theorem foldl_due (doubling : Doubling env pieces) (cut : Cut cs pieces)
    {list : List (List Char)} (listed : list ⊆ names pieces) (isReference : name ∈ list) :
    closings (due env name) ≤ closings (list.foldl (substitute env) (refText name)) := by
  have isName := cut.isName (listed isReference)
  cases found : valueOf env name with
  | none =>
    rw [due, found]
    exact doubling.foldl_closings cut listed _
  | some value =>
    have two : closings (due env name) = closings (refText name) + 1 := by
      rw [due, found, closings_refText isName]
      exact (doubling name (listed isReference) value found).2
    rw [two]
    induction list with
    | nil => cases isReference
    | cons other rest ih =>
      obtain ⟨isReference', listed'⟩ := List.cons_subset.1 listed
      rw [List.foldl_cons]
      by_cases occurs : valueOf env other ≠ none ∧ refText other <:+: refText name
      · exact ((doubling.substitute_closings cut isReference' _).2 occurs.1 occurs.2).trans_le
          (doubling.foldl_closings cut listed' _)
      · have self : substitute env (refText name) other = refText name :=
          substitute_eq_self (by tauto)
        rw [self]
        refine ih listed' ((List.mem_cons.1 isReference).resolve_left ?_)
        rintro rfl
        exact occurs ⟨by simp [found], List.infix_rfl⟩

end Doubling

private theorem closings_written_le {now now' : List Char → List Char}
    (least : ∀ name ∈ names pieces, closings (now name) ≤ closings (now' name)) :
    closings (written now pieces) ≤ closings (written now' pieces) := by
  induction pieces with
  | nil => exact Nat.le_refl _
  | cons piece rest ih =>
    have later := ih fun name isLater => least name (names_subset_cons piece rest isLater)
    cases piece with
    | char c =>
      rw [written_char, written_char, closings_cons c (written now rest),
        closings_cons c (written now' rest)]
      exact Nat.add_le_add_left later _
    | reference name =>
      rw [written_reference, written_reference, closings_append, closings_append]
      exact Nat.add_le_add (least name (mem_names.2 List.mem_cons_self)) later

/-- More closing braces in what is written for one reference are more in the text. -/
private theorem closings_written_lt {now now' : List Char → List Char}
    (least : ∀ name ∈ names pieces, closings (now name) ≤ closings (now' name))
    (more : ∃ name ∈ names pieces, closings (now name) < closings (now' name)) :
    closings (written now pieces) < closings (written now' pieces) := by
  induction pieces with
  | nil => simp [names] at more
  | cons piece rest ih =>
    have least' : ∀ name ∈ names rest, closings (now name) ≤ closings (now' name) :=
      fun name isLater => least name (names_subset_cons piece rest isLater)
    cases piece with
    | char c =>
      rw [written_char, written_char, closings_cons c (written now rest),
        closings_cons c (written now' rest)]
      exact Nat.add_lt_add_left (ih least' more) _
    | reference name =>
      rw [written_reference, written_reference, closings_append, closings_append]
      obtain ⟨other, isReference, less⟩ := more
      rcases List.mem_cons.1 isReference with rfl | isLater
      · exact Nat.add_lt_add_of_lt_of_le less (closings_written_le least')
      · exact Nat.add_lt_add_of_le_of_lt (least name (mem_names.2 List.mem_cons_self))
          (ih least' ⟨other, isLater, less⟩)

/-- If the first two references are each to be replaced by the second one twice, the text comes to
have more references than it should. -/
theorem Doubling.not_expanded (doubling : Doubling env pieces) (cut : Cut cs pieces)
    {first second : List Char} {rest : List (List Char)}
    (listed : names pieces = first :: second :: rest)
    (set : valueOf env first = some (refText second ++ refText second))
    (set' : valueOf env second ≠ none) :
    (names pieces).foldl (substitute env) cs ≠ render env pieces := by
  have all : names pieces ⊆ names pieces := List.Subset.refl _
  have steps : (names pieces).foldl (substitute env) cs =
      written (fun name => (names pieces).foldl (substitute env) (refText name)) pieces := by
    rw [← foldl_written cut (fun _ => Framed) (fun _ => apart_of_framed) all
      (fun name _ other isReference part => doubling.framed isReference)
      fun name _ => framed_refText name, cut.written_refText]
  rw [steps]
  intro same
  refine absurd (congrArg closings same) (Nat.ne_of_gt ?_)
  refine closings_written_lt (fun name isReference => doubling.foldl_due cut all isReference)
    ⟨first, listed ▸ List.mem_cons_self, ?_⟩
  have isReference : second ∈ names pieces := by simp [listed]
  have inside : refText second <:+: due env first := by
    rw [due, set]
    exact (List.prefix_append _ _).isInfix
  rw [listed, List.foldl_cons, List.foldl_cons, substitute_refText]
  exact ((doubling.substitute_closings cut isReference _).2 set' inside).trans_le
    (doubling.foldl_closings cut (fun name later => by simp [listed, later]) _)

end Substituting

/-! ## Expanding a text -/

/-- A name without equals sign is found under its own entries only. -/
private theorem valueIn?_entry {name other : List Char} (plain : '=' ∉ name) (plain' : '=' ∉ other)
    (value : List Char) :
    Environment.valueIn? name (other ++ '=' :: value) =
      if name = other then some value else none := by
  unfold Environment.valueIn?
  by_cases same : name = other
  · subst same
    rw [if_pos (by simp), if_pos rfl]
    simp
  · rw [if_neg same, if_neg]
    rw [List.isPrefixOf_iff_prefix]
    rintro ⟨after, found⟩
    rw [List.append_assoc, List.singleton_append] at found
    have before (part : List Char) (plain : '=' ∉ part) (after : List Char) :
        (part ++ '=' :: after).takeWhile (· ≠ '=') = part := by
      rw [List.takeWhile_append_of_pos fun c isIn => by simpa using ne_of_mem_of_not_mem isIn plain]
      simp
    have parts := congrArg (List.takeWhile (· ≠ '=')) found
    rw [before name plain, before other plain'] at parts
    exact same parts

/-- Two variables of one value. -/
def both (first second value : List Char) : Environment :=
  ⟨[(String.ofList first, String.ofList value), (String.ofList second, String.ofList value)]⟩

private theorem valueOf_both {first second name : List Char} (value : List Char)
    (plain : '=' ∉ first) (plain' : '=' ∉ second) (plain'' : '=' ∉ name) :
    valueOf (both first second value) name =
      if name = first ∨ name = second then some value else none := by
  simp only [valueOf, Environment.get?, both, Environment.entry, List.findSome?_cons,
    List.findSome?_nil, String.toList_ofList, valueIn?_entry plain'' plain,
    valueIn?_entry plain'' plain']
  by_cases same : name = first
  · simp [same]
  · rw [if_neg same]
    by_cases same' : name = second
    · rw [if_pos same', if_pos (.inr same')]
      simp
    · rw [if_neg same', if_neg (by tauto)]
      rfl

/-- Every text has one leftmost cut. Expanding it gives the text that is due, with all references of
the cut replaced at once, in every environment that is calm for it: no value that is put in holds
the start of a reference or ends in the middle of one, none goes on with what a dollar sign before
it begins, and no reference encloses one that is replaced. In every environment whatever it does so
for texts with at most one reference, and for no others whose variables can be set. -/
theorem expand_exact (text : String) :
    let pieces := cutOf text.toList.length text.toList
    (∀ other, Cut text.toList other ↔ other = pieces) ∧
      (∀ env, Calm env pieces → (expand env text).toList = render env pieces) ∧
      ((∀ name ∈ names pieces, '=' ∉ name) →
        ((∀ env, (expand env text).toList = render env pieces) ↔ (names pieces).length ≤ 1)) := by
  intro pieces
  have cut : Cut text.toList pieces := cut_cutOf (Nat.le_refl _)
  have run (env : Environment) :
      (expand env text).toList = (names pieces).foldl (substitute env) text.toList := by
    rw [expand, names_cutOf, String.toList_ofList]
  refine ⟨fun other => ⟨fun cut' => cut'.unique cut, fun same => same ▸ cut⟩, ?_, ?_⟩
  · exact fun env calm => (run env).trans (calm.expanded cut)
  · intro plain
    constructor
    · intro always
      by_contra several
      obtain ⟨first, second, rest, listed⟩ : ∃ first second rest,
          names pieces = first :: second :: rest := by
        match listed : names pieces with
        | first :: second :: rest => exact ⟨first, second, rest, rfl⟩
        | [] | [_] => simp [listed] at several
      have isReference : second ∈ names pieces := by simp [listed]
      have value (name : List Char) (isReference' : name ∈ names pieces) :=
        valueOf_both (refText second ++ refText second)
          (plain first (by simp [listed])) (plain second isReference) (plain name isReference')
      have doubling : Doubling (both first second (refText second ++ refText second)) pieces := by
        intro name isReference' put set
        rw [value name isReference', Option.ite_none_right_eq_some, Option.some_inj] at set
        obtain ⟨-, rfl⟩ := set
        refine ⟨⟨rfl, ?_⟩, ?_⟩
        · rw [List.getLast?_append, getLast?_refText, Option.some_or]
        · rw [closings_append, closings_refText (cut.isName isReference)]
      refine doubling.not_expanded cut listed ?_ ?_ ((run _).symm.trans (always _))
      · rw [value first (by simp [listed]), if_pos (.inl rfl)]
      · rw [value second isReference, if_pos (.inr rfl)]
        exact Option.some_ne_none _
    · exact fun single env => (run env).trans (expanded_single env cut single)

namespace Nested

/-- The value of one variable refers to another. -/
def env : Environment := ⟨[("A", "$\x7bB\x7d"), ("B", "x")]⟩

/-- What is due for a text. -/
def dueText (env : Environment) (text : String) : String :=
  String.ofList (render env (cutOf text.toList.length text.toList))

/-- The value that is put in is expanded again if the variable that it refers to comes later, and
only then. -/
theorem value_expanded_again :
    dueText env "$\x7bA\x7d $\x7bB\x7d" = "$\x7bB\x7d x" ∧
      expand env "$\x7bA\x7d $\x7bB\x7d" = "x x" ∧
      dueText env "$\x7bB\x7d $\x7bA\x7d" = "x $\x7bB\x7d" ∧
      expand env "$\x7bB\x7d $\x7bA\x7d" = "x $\x7bB\x7d" := by
  decide +kernel

def settings : Environment := ⟨[("HOST", "db"), ("PORT", "80")]⟩

/-- Plain values are put in, and a reference without one stays. -/
theorem expand_exact_settings :
    expand settings "$\x7bHOST\x7d:$\x7bPORT\x7d/$\x7bPATH\x7d" = "db:80/$\x7bPATH\x7d" := by
  obtain ⟨-, calmly, -⟩ := expand_exact "$\x7bHOST\x7d:$\x7bPORT\x7d/$\x7bPATH\x7d"
  rw [← String.toList_inj, calmly settings]
  · decide +kernel
  · have values : ∀ name ∈ [['H', 'O', 'S', 'T'], ['P', 'O', 'R', 'T'], ['P', 'A', 'T', 'H']],
        ∀ value ∈ valueOf settings name, value ≠ [] ∧ '$' ∉ value ∧ '\x7b' ∉ value := by
      decide +kernel
    exact .of_plain values (by decide +kernel)

end Nested

end SchemaCompiler.Config
