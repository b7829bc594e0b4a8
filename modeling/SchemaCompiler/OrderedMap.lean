/-!
Maps that remember the order in which their keys first arrived. Putting a key that is already
there changes its value and keeps its place, and taking a key out closes the gap, so the entry
list is the whole story: `get?_insert`, `keys_insert` and `get?_erase` say what each operation
does to it, and `get?_eq_some_iff` reads a lookup off the entries.

Tables, rows, option lists and name tables are all maps of this kind, because their order shows.
-/
namespace SchemaCompiler

universe u v

variable {α : Type u} {β : Type v}

namespace Entries

/-- The first value filed under a key. -/
def get? [DecidableEq α] (key : α) : List (α × β) → Option β
  | [] => none
  | (k, v) :: rest => if k = key then some v else get? key rest

/-- Files a value under a key: in the key's place if it has one, else at the end. -/
def insert [DecidableEq α] (key : α) (value : β) : List (α × β) → List (α × β)
  | [] => [(key, value)]
  | (k, v) :: rest => if k = key then (k, value) :: rest else (k, v) :: insert key value rest

/-- Drops a key's entry; the others close up. -/
def erase [DecidableEq α] (key : α) (entries : List (α × β)) : List (α × β) :=
  entries.filter fun entry => entry.1 ≠ key

theorem keys_insert [DecidableEq α] (key : α) (value : β) (entries : List (α × β)) :
    (insert key value entries).map Prod.fst =
      if key ∈ entries.map Prod.fst then entries.map Prod.fst
      else entries.map Prod.fst ++ [key] := by
  induction entries with
  | nil => simp [insert]
  | cons entry rest ih =>
    obtain ⟨k, v⟩ := entry
    by_cases same : k = key
    · simp [insert, same]
    · have other : ¬ key = k := fun h => same h.symm
      simp only [insert, same, ↓reduceIte, List.map_cons, ih, List.mem_cons, other, false_or]
      split <;> simp

theorem nodup_insert [DecidableEq α] (key : α) (value : β) {entries : List (α × β)}
    (distinct : (entries.map Prod.fst).Nodup) :
    ((insert key value entries).map Prod.fst).Nodup := by
  rw [keys_insert]
  split
  · exact distinct
  · next absent =>
    refine List.nodup_append.2 ⟨distinct, by simp, ?_⟩
    intro a present b single
    simp only [List.mem_cons, List.not_mem_nil, or_false] at single
    subst single
    exact fun same => absent (same ▸ present)

theorem insert_of_not_mem [DecidableEq α] {key : α} (value : β) {entries : List (α × β)}
    (absent : key ∉ entries.map Prod.fst) : insert key value entries = entries ++ [(key, value)] := by
  induction entries with
  | nil => rfl
  | cons entry rest ih =>
    obtain ⟨k, v⟩ := entry
    simp only [List.map_cons, List.mem_cons, not_or] at absent
    rw [insert, if_neg (Ne.symm absent.1), ih absent.2, List.cons_append]

theorem insert_of_mem [DecidableEq α] {key : α} (value : β) {entries : List (α × β)}
    (distinct : (entries.map Prod.fst).Nodup) (known : key ∈ entries.map Prod.fst) :
    insert key value entries =
      entries.map fun entry => if entry.1 = key then (key, value) else entry := by
  induction entries with
  | nil => cases known
  | cons entry rest ih =>
    obtain ⟨k, v⟩ := entry
    obtain ⟨fresh, distinct⟩ := List.nodup_cons.1 distinct
    by_cases same : k = key
    · subst same
      have others : rest.map (fun entry => if entry.1 = k then (k, value) else entry) = rest := by
        refine (List.map_congr_left fun entry listed => ?_).trans (List.map_id rest)
        have other : entry.1 ≠ k := fun same =>
          fresh (List.mem_map.2 ⟨entry, listed, same⟩)
        rw [if_neg other, id]
      rw [insert, if_pos rfl, List.map_cons, if_pos rfl, others]
    · have later : key ∈ rest.map Prod.fst := (List.mem_cons.1 known).resolve_left (Ne.symm same)
      rw [insert, if_neg same, ih distinct later, List.map_cons, if_neg same]

theorem get?_insert [DecidableEq α] (key probe : α) (value : β) (entries : List (α × β)) :
    get? probe (insert key value entries) =
      if key = probe then some value else get? probe entries := by
  induction entries with
  | nil => simp [insert, get?]
  | cons entry rest ih =>
    obtain ⟨k, v⟩ := entry
    by_cases same : k = key
    · subst same
      by_cases hit : k = probe <;> simp [insert, get?, hit]
    · by_cases hit : k = probe
      · subst hit
        have other : ¬ key = k := fun h => same h.symm
        simp [insert, get?, same, other]
      · simp [insert, get?, same, hit, ih]

theorem get?_eq_none_iff [DecidableEq α] {key : α} {entries : List (α × β)} :
    get? key entries = none ↔ key ∉ entries.map Prod.fst := by
  induction entries with
  | nil => simp [get?]
  | cons entry rest ih =>
    obtain ⟨k, v⟩ := entry
    by_cases same : k = key
    · simp [get?, same]
    · have other : ¬ key = k := fun h => same h.symm
      simp only [get?, same, ↓reduceIte, ih, List.map_cons, List.mem_cons, other, false_or]

theorem get?_eq_some_iff [DecidableEq α] {key : α} {value : β} {entries : List (α × β)}
    (distinct : (entries.map Prod.fst).Nodup) :
    get? key entries = some value ↔ (key, value) ∈ entries := by
  induction entries with
  | nil => simp [get?]
  | cons entry rest ih =>
    obtain ⟨k, v⟩ := entry
    obtain ⟨fresh, distinct⟩ := List.nodup_cons.1 distinct
    by_cases same : k = key
    · subst same
      have absent : (k, value) ∉ rest := fun h => fresh (List.mem_map.2 ⟨_, h, rfl⟩)
      simp only [get?, ↓reduceIte, Option.some.injEq, List.mem_cons, Prod.mk.injEq, true_and,
        absent, or_false, eq_comm]
    · have other : ¬ key = k := fun h => same h.symm
      simp [get?, same, other, ih distinct]

end Entries

/-- Entries under pairwise distinct keys, in the order the keys first arrived. -/
@[ext]
structure OrderedMap (α : Type u) (β : Type v) where
  entries : List (α × β)
  distinct : (entries.map Prod.fst).Nodup

namespace OrderedMap

/-- The map with no entry. -/
def empty : OrderedMap α β := ⟨[], .nil⟩

instance : Inhabited (OrderedMap α β) := ⟨empty⟩

instance : EmptyCollection (OrderedMap α β) := ⟨empty⟩

/-- The keys, first arrived first. -/
def keys (map : OrderedMap α β) : List α := map.entries.map Prod.fst

/-- The values in the order of their keys. -/
def values (map : OrderedMap α β) : List β := map.entries.map Prod.snd

/-- How many keys there are. -/
def size (map : OrderedMap α β) : Nat := map.entries.length

def isEmpty (map : OrderedMap α β) : Bool := map.entries.isEmpty

theorem keys_nodup (map : OrderedMap α β) : map.keys.Nodup := map.distinct

theorem length_keys (map : OrderedMap α β) : map.keys.length = map.size := List.length_map Prod.fst

section Lookup
variable [DecidableEq α]

/-- The value filed under a key. -/
def get? (map : OrderedMap α β) (key : α) : Option β := Entries.get? key map.entries

/-- Whether a key has an entry. -/
def contains (map : OrderedMap α β) (key : α) : Bool := (map.get? key).isSome

/-- Files a value under a key: in the key's place if it has one, else at the end. -/
def insert (map : OrderedMap α β) (key : α) (value : β) : OrderedMap α β :=
  ⟨Entries.insert key value map.entries, Entries.nodup_insert key value map.distinct⟩

/-- Drops a key's entry; the others keep their order. -/
def erase (map : OrderedMap α β) (key : α) : OrderedMap α β :=
  ⟨Entries.erase key map.entries,
    (List.filter_sublist.map Prod.fst).nodup map.distinct⟩

/-- Keeps the entries that a test on key and value accepts. -/
def filter (map : OrderedMap α β) (keep : α → β → Bool) : OrderedMap α β :=
  ⟨map.entries.filter fun entry => keep entry.1 entry.2,
    (List.filter_sublist.map Prod.fst).nodup map.distinct⟩

/-- Files the entries of a list one after the other, so a repeated key keeps its first place
and takes its last value. -/
def insertAll (map : OrderedMap α β) (entries : List (α × β)) : OrderedMap α β :=
  entries.foldl (fun acc entry => acc.insert entry.1 entry.2) map

/-- The map of a list: a repeated key keeps its first place and takes its last value. -/
def ofList (entries : List (α × β)) : OrderedMap α β := empty.insertAll entries

/-- Whether two maps file matching values under the same keys, in whatever order. -/
def sameEntries (same : β → β → Bool) (a b : OrderedMap α β) : Bool :=
  a.size == b.size && a.entries.all fun entry =>
    match b.get? entry.1 with
    | some value => same entry.2 value
    | none => false

@[simp] theorem get?_empty (key : α) : (empty : OrderedMap α β).get? key = none := rfl

theorem get?_insert (map : OrderedMap α β) (key probe : α) (value : β) :
    (map.insert key value).get? probe = if key = probe then some value else map.get? probe :=
  Entries.get?_insert key probe value map.entries

@[simp] theorem get?_insert_self (map : OrderedMap α β) (key : α) (value : β) :
    (map.insert key value).get? key = some value := by simp [get?_insert]

theorem get?_eq_none_iff (map : OrderedMap α β) (key : α) :
    map.get? key = none ↔ key ∉ map.keys := Entries.get?_eq_none_iff

theorem get?_eq_some_iff (map : OrderedMap α β) (key : α) (value : β) :
    map.get? key = some value ↔ (key, value) ∈ map.entries :=
  Entries.get?_eq_some_iff map.distinct

theorem contains_iff_mem_keys (map : OrderedMap α β) (key : α) :
    map.contains key = true ↔ key ∈ map.keys := by
  rw [contains, Option.isSome_iff_ne_none, ne_eq, get?_eq_none_iff, Decidable.not_not]

theorem mem_keys_iff (map : OrderedMap α β) {key : α} :
    key ∈ map.keys ↔ ∃ value, map.get? key = some value := by
  rw [← contains_iff_mem_keys, contains, Option.isSome_iff_exists]

theorem get?_filter (map : OrderedMap α β) (keep : α → β → Bool) (key : α) :
    (map.filter keep).get? key = (map.get? key).filter (keep key) := by
  ext value
  rw [get?_eq_some_iff, Option.filter_eq_some_iff, get?_eq_some_iff]
  simp [filter]

theorem get?_erase (map : OrderedMap α β) (key probe : α) :
    (map.erase key).get? probe = if key = probe then none else map.get? probe := by
  have erased : map.erase key = map.filter fun other _ => other ≠ key := rfl
  rw [erased, get?_filter]
  by_cases same : key = probe
  · subst same
    cases map.get? key <;> simp
  · cases map.get? probe <;> simp [same, Ne.symm same]

/-- Where entries under distinct keys are filed, they are what is found, and elsewhere what was there
before. -/
theorem get?_insertAll (map : OrderedMap α β) {entries : List (α × β)}
    (distinct : (entries.map Prod.fst).Nodup) (probe : α) :
    (map.insertAll entries).get? probe = (Entries.get? probe entries).or (map.get? probe) := by
  induction entries generalizing map with
  | nil => rfl
  | cons entry rest ih =>
    obtain ⟨key, value⟩ := entry
    obtain ⟨fresh, distinct⟩ := List.nodup_cons.1 distinct
    have later := ih (map.insert key value) distinct
    have filed : (map.insertAll ((key, value) :: rest)).get? probe =
        (Entries.get? probe rest).or ((map.insert key value).get? probe) := later
    rw [filed, get?_insert, Entries.get?]
    by_cases same : key = probe
    · subst same
      simp [Entries.get?_eq_none_iff.2 fresh]
    · simp [same]

/-- A known key keeps its place and a new one goes last. -/
theorem keys_insert (map : OrderedMap α β) (key : α) (value : β) :
    (map.insert key value).keys = if key ∈ map.keys then map.keys else map.keys ++ [key] :=
  Entries.keys_insert key value map.entries

theorem mem_keys_insert (map : OrderedMap α β) (key probe : α) (value : β) :
    probe ∈ (map.insert key value).keys ↔ probe = key ∨ probe ∈ map.keys := by
  rw [keys_insert]
  split
  · next known =>
    constructor
    · exact Or.inr
    · rintro (rfl | there)
      · exact known
      · exact there
  · rw [List.mem_append, List.mem_singleton, or_comm]

theorem size_insert_le (map : OrderedMap α β) (key : α) (value : β) :
    (map.insert key value).size ≤ map.size + 1 := by
  rw [← length_keys, ← length_keys, keys_insert]
  split <;> simp

theorem entries_insert_of_not_mem (map : OrderedMap α β) {key : α} (value : β)
    (absent : key ∉ map.keys) : (map.insert key value).entries = map.entries ++ [(key, value)] :=
  Entries.insert_of_not_mem value absent

/-- A known key takes its new value in its place. -/
theorem entries_insert_of_mem (map : OrderedMap α β) {key : α} (value : β) (known : key ∈ map.keys) :
    (map.insert key value).entries =
      map.entries.map fun entry => if entry.1 = key then (key, value) else entry :=
  Entries.insert_of_mem value map.distinct known

/-- Entries whose keys are new and distinct go last, in their order. -/
theorem entries_insertAll_of_fresh (map : OrderedMap α β) {entries : List (α × β)}
    (fresh : (map.keys ++ entries.map Prod.fst).Nodup) :
    (map.insertAll entries).entries = map.entries ++ entries := by
  induction entries generalizing map with
  | nil => simp [insertAll]
  | cons entry rest ih =>
    have absent : entry.1 ∉ map.keys := fun known =>
      (List.nodup_append.1 fresh).2.2 _ known _ (by simp) rfl
    have appended := map.entries_insert_of_not_mem entry.2 absent
    have keys : (map.insert entry.1 entry.2).keys = map.keys ++ [entry.1] := by
      simp [OrderedMap.keys, appended]
    have later := ih (map.insert entry.1 entry.2) (by simpa [keys] using fresh)
    rw [appended, List.append_assoc, List.singleton_append] at later
    exact later

/-- A list whose keys are distinct is the entry list of its map. -/
theorem entries_ofList {entries : List (α × β)} (distinct : (entries.map Prod.fst).Nodup) :
    (ofList entries).entries = entries :=
  entries_insertAll_of_fresh empty distinct

theorem sameEntries_refl {same : β → β → Bool} (refl : ∀ value, same value value = true)
    (map : OrderedMap α β) : map.sameEntries same map = true := by
  simp only [sameEntries, beq_self_eq_true, Bool.true_and, List.all_eq_true]
  intro entry member
  rw [(map.get?_eq_some_iff entry.1 entry.2).2 member]
  exact refl entry.2

theorem keys_erase (map : OrderedMap α β) (key : α) :
    (map.erase key).keys = map.keys.filter (· ≠ key) := by
  simp [keys, erase, Entries.erase, List.filter_map, Function.comp_def]

/-- If the keys are those of another map and the values are made from the other ones, so are the
entries. -/
theorem entries_eq_map {a b : OrderedMap α β} (change : α → β → β) (keys : b.keys = a.keys)
    (values : ∀ key, b.get? key = (a.get? key).map (change key)) :
    b.entries = a.entries.map fun entry => (entry.1, change entry.1 entry.2) := by
  have same : b.entries.length = a.entries.length := by
    simpa [OrderedMap.keys] using congrArg List.length keys
  refine List.ext_getElem (by simp [same]) fun i inB _ => ?_
  have inA : i < a.entries.length := by omega
  have key : b.entries[i].1 = a.entries[i].1 := by
    have at_i : b.keys[i]? = a.keys[i]? := by rw [keys]
    simpa [OrderedMap.keys, inA, inB] using at_i
  have found : b.get? b.entries[i].1 = some b.entries[i].2 :=
    (b.get?_eq_some_iff _ _).2 (List.getElem_mem inB)
  have found' : a.get? a.entries[i].1 = some a.entries[i].2 :=
    (a.get?_eq_some_iff _ _).2 (List.getElem_mem inA)
  rw [values, key, found', Option.map_some, Option.some.injEq] at found
  rw [List.getElem_map]
  exact Prod.ext key found.symm

/-- A map is known by its keys in order and by what is found under them. -/
theorem ext_get? {a b : OrderedMap α β} (keys : a.keys = b.keys)
    (values : ∀ key, a.get? key = b.get? key) : a = b := by
  apply OrderedMap.ext
  have entries := entries_eq_map (fun _ value => value) keys (by simp [values])
  rw [entries, List.map_id']

/-- Of two values filed under one key the later stays. -/
theorem insert_insert (map : OrderedMap α β) (key : α) (first second : β) :
    (map.insert key first).insert key second = map.insert key second := by
  apply ext_get?
  · have known : key ∈ (map.insert key first).keys := (map.mem_keys_insert key key first).2 (.inl rfl)
    rw [keys_insert, if_pos known, keys_insert, keys_insert]
  · intro probe
    simp only [get?_insert]
    split <;> rfl

/-- Entries under distinct keys go to the places of the keys that are there; the others go last. -/
theorem keys_insertAll (map : OrderedMap α β) {entries : List (α × β)}
    (distinct : (entries.map Prod.fst).Nodup) :
    (map.insertAll entries).keys =
      map.keys ++ (entries.map Prod.fst).filter (· ∉ map.keys) := by
  induction entries generalizing map with
  | nil => simp [insertAll]
  | cons entry rest ih =>
    obtain ⟨fresh, distinct⟩ := List.nodup_cons.1 distinct
    have later := ih (map.insert entry.1 entry.2) distinct
    have filed : (map.insertAll (entry :: rest)).keys =
        ((map.insert entry.1 entry.2).insertAll rest).keys := rfl
    rw [filed, later, keys_insert, List.map_cons, List.filter_cons]
    by_cases known : entry.1 ∈ map.keys
    · simp [known]
    · simp only [known, ↓reduceIte, not_false_eq_true, decide_true, List.append_assoc,
        List.singleton_append]
      congr 2
      refine List.filter_congr fun key listed => ?_
      have other : key ≠ entry.1 := fun same => fresh (same ▸ listed)
      simp [other]

end Lookup

end OrderedMap
end SchemaCompiler
