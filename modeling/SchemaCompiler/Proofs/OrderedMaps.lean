import Mathlib.Data.List.Basic
import Mathlib.Data.List.Induction
import SchemaCompiler.OrderedMap

/-! Places and values in maps that remember the order of their keys. A map that is filed entry by
entry has each key where it came first, with the value that came last (`keys_ofList`, `get?_ofList`).
An entry stands where its key does (`getElem?_entries_iff`), so what is known of the keys in order and
of the lookups is known of the entries. -/
namespace SchemaCompiler.OrderedMap

variable {β γ : Type} [DecidableEq β]

/-! ## Maps of lists -/

theorem insertAll_append (map : OrderedMap β γ) (first second : List (β × γ)) :
    map.insertAll (first ++ second) = (map.insertAll first).insertAll second := List.foldl_append

theorem ofList_concat (entries : List (β × γ)) (key : β) (value : γ) :
    ofList (entries ++ [(key, value)]) = (ofList entries).insert key value :=
  insertAll_append empty entries [(key, value)]

/-- Each key has the place at which it first occurs. -/
theorem keys_ofList (entries : List (β × γ)) :
    (ofList entries).keys = (entries.map Prod.fst).eraseDups := by
  induction entries using List.reverseRecOn with
  | nil => rfl
  | append_singleton front entry ih =>
    obtain ⟨key, value⟩ := entry
    rw [ofList_concat, keys_insert, ih, List.map_append, List.eraseDups_append]
    by_cases known : key ∈ front.map Prod.fst
    · have again : [key].removeAll (front.map Prod.fst) = [] := by simp [List.removeAll, known]
      rw [if_pos (List.mem_eraseDups.2 known)]
      simp [again]
    · have new : [key].removeAll (front.map Prod.fst) = [key] := by simp [List.removeAll, known]
      rw [if_neg fun listed => known (List.mem_eraseDups.1 listed)]
      simp [new, List.eraseDups_cons]

/-- Each key has the value that was given for it last. -/
theorem get?_ofList (entries : List (β × γ)) (key : β) :
    (ofList entries).get? key = Entries.get? key entries.reverse := by
  induction entries using List.reverseRecOn with
  | nil => rfl
  | append_singleton front entry ih =>
    obtain ⟨other, value⟩ := entry
    rw [ofList_concat, get?_insert, ih, List.reverse_append]
    rfl

/-! ## Entries by place -/

variable {map : OrderedMap β γ}

theorem getElem?_entries_iff {place : Nat} {key : β} {value : γ} :
    map.entries[place]? = some (key, value) ↔
      map.keys[place]? = some key ∧ map.get? key = some value := by
  rw [keys, List.getElem?_map, Option.map_eq_some_iff]
  constructor
  · intro there
    exact ⟨⟨_, there, rfl⟩, (map.get?_eq_some_iff key value).2 (List.mem_of_getElem? there)⟩
  · rintro ⟨⟨⟨_, other⟩, there, rfl⟩, found⟩
    rw [(map.get?_eq_some_iff _ other).2 (List.mem_of_getElem? there)] at found
    cases found
    exact there

/-- Looking the keys up in order gives the values. -/
theorem filterMap_keys (map : OrderedMap β γ) : map.keys.filterMap map.get? = map.values := by
  rw [keys, values, List.filterMap_map, ← List.filterMap_eq_map]
  exact List.filterMap_congr fun entry listed => (map.get?_eq_some_iff _ _).2 listed

end SchemaCompiler.OrderedMap
