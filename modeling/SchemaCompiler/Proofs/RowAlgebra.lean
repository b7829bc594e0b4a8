import SchemaCompiler.Proofs.OrderedMaps
import SchemaCompiler.Proofs.RowMerging

/-! The algebra of rows. A row is put together by setting columns and merging other rows in
(`Assembly`), and every row can be put together in this way. All that counts is which values were
given to which columns in turn, those of a merged row included: a column stands where it was given
first and holds what it was given last (`Assembly.row_eq`). To set a column is to merge a row of that
column alone, and merging rows is associative with the empty row as its unit, so giving more columns
is merging the row that they make (`ofList_append`). `merge_monoid` is the laws together, with the
order of columns as part of every equation. -/
namespace SchemaCompiler.Row

/-! ## Laws of merging -/

theorem empty_merge (row : Row) : merge .empty row = row :=
  OrderedMap.ext (OrderedMap.entries_ofList row.distinct)

theorem merge_empty (row : Row) : row.merge .empty = row := rfl

/-- Setting a column is merging a row that has no other. -/
theorem insert_eq_merge (row : Row) (column : String) (value : Json) :
    row.insert column value = row.merge (.ofList [(column, value)]) := rfl

theorem merge_insert (row other : Row) (column : String) (value : Json) :
    row.merge (other.insert column value) = (row.merge other).insert column value := by
  rw [insert_eq_merge, insert_eq_merge, merge_assoc]

/-- Giving more columns in turn is merging the row that they make. -/
theorem ofList_append (first second : List (String × Json)) :
    OrderedMap.ofList (first ++ second) = merge (.ofList first) (.ofList second) := by
  induction second using List.reverseRecOn with
  | nil => rw [List.append_nil]; rfl
  | append_singleton front entry ih =>
    obtain ⟨column, value⟩ := entry
    rw [← List.append_assoc, OrderedMap.ofList_concat, ih, OrderedMap.ofList_concat, merge_insert]

/-! ## Rows put together -/

/-- How a row is put together. -/
inductive Assembly where
  | empty
  | set (assembly : Assembly) (column : String) (value : Json)
  | merge (assembly other : Assembly)

namespace Assembly

/-- The row that comes of it. -/
def row : Assembly → Row
  | empty => .empty
  | set assembly column value => assembly.row.insert column value
  | merge assembly other => assembly.row.merge other.row

/-- What columns are given in turn, as often as they are given something. -/
def given : Assembly → List (String × Json)
  | empty => []
  | set assembly column value => assembly.given ++ [(column, value)]
  | merge assembly other => assembly.given ++ other.given

/-- However a row is put together, it is the row of what its columns are given in turn. -/
theorem row_eq (assembly : Assembly) : assembly.row = .ofList assembly.given := by
  induction assembly with
  | empty => rfl
  | set assembly column value ih => rw [row, given, ih, OrderedMap.ofList_concat]
  | merge assembly other ih ih' => rw [row, given, ih, ih', ofList_append]

/-- Setting columns one by one. -/
def ofEntries (entries : List (String × Json)) : Assembly :=
  entries.foldl (fun assembly entry => assembly.set entry.1 entry.2) empty

private theorem row_ofEntries (entries : List (String × Json)) :
    (ofEntries entries).row = .ofList entries := by
  induction entries using List.reverseRecOn with
  | nil => rfl
  | append_singleton front entry ih =>
    have last : ofEntries (front ++ [entry]) = (ofEntries front).set entry.1 entry.2 :=
      List.foldl_concat ..
    rw [last, row, ih, OrderedMap.ofList_concat]

end Assembly

/-- Rows that setting and merging put together are ordered maps: their columns are distinct, each
stands where it was given first and holds what it was given last. They are all the rows there are.

A merged row has the columns of the first row in their places and after them the other columns of
the second in theirs, with the second row's value wherever it has one. With the order of columns
counted in, merging is associative, the empty row is its unit on both sides, and what was merged in
changes nothing the second time. -/
theorem merge_monoid :
    (∀ assembly : Assembly,
      assembly.row.keys.Nodup ∧
      assembly.row.keys = (assembly.given.map Prod.fst).eraseDups ∧
      ∀ column, assembly.row.get? column = Entries.get? column assembly.given.reverse) ∧
    (∀ row : Row, ∃ assembly : Assembly, assembly.row = row) ∧
    ∀ a b c : Row,
      (a.merge b).keys = a.keys ++ b.keys.filter (· ∉ a.keys) ∧
      (∀ column, (a.merge b).get? column =
        if column ∈ b.keys then b.get? column else a.get? column) ∧
      (a.merge b).merge c = a.merge (b.merge c) ∧
      merge .empty a = a ∧ a.merge .empty = a ∧
      (a.merge b).merge b = a.merge b := by
  refine ⟨?_, ?_, ?_⟩
  · intro assembly
    rw [assembly.row_eq]
    exact ⟨OrderedMap.keys_nodup _, OrderedMap.keys_ofList _, OrderedMap.get?_ofList _⟩
  · intro row
    refine ⟨.ofEntries row.entries, ?_⟩
    rw [Assembly.row_ofEntries]
    exact empty_merge row
  · intro a b c
    refine ⟨keys_merge a b, ?_, merge_assoc a b c, empty_merge a, merge_empty a,
      merge_merge_self a b⟩
    intro column
    rw [get?_merge]
    split
    · next there =>
      obtain ⟨value, found⟩ := b.mem_keys_iff.1 there
      rw [found, Option.some_or]
    · next absent => rw [(b.get?_eq_none_iff column).2 absent, Option.none_or]

end SchemaCompiler.Row
