import SchemaCompiler.Field

/-!
The rows of one table, keyed by id in the order they were inserted, and the id that the next row
without one will get. Ids are unsigned 64-bit words and the counter wraps at their end. Writing is
all these operations do; whether a row may be written is decided before.
-/
namespace SchemaCompiler

structure Storage where
  rows : OrderedMap UInt64 Row := .empty
  nextId : UInt64 := 1

namespace Storage

/-- Stores a row under an id and says so in its `id` column. -/
def file (storage : Storage) (id next : UInt64) (row : Row) : Row × Storage :=
  let row := row.insert idColumn (.ofUInt64 id)
  (row, ⟨storage.rows.insert id row, next⟩)

/-- Stores a row under the id it brings, which has to be free, or else under the next id. Gives
the id, the row as stored, and the storage; or the id that is taken. A brought id pushes the
counter past itself. -/
def insert (storage : Storage) (brought : Option UInt64) (row : Row) :
    Except UInt64 (UInt64 × Row × Storage) :=
  match brought with
  | some id =>
    if storage.rows.contains id then .error id
    else .ok (id, storage.file id (max storage.nextId (id + 1)) row)
  | none => .ok (storage.nextId, storage.file storage.nextId (storage.nextId + 1) row)

/-- Merges values into the rows that are stored under the ids. -/
def update (storage : Storage) (ids : List UInt64) (values : Row) : Storage :=
  { storage with rows := ids.foldl (fun rows id =>
      match rows.get? id with
      | some row => rows.insert id (row.merge values)
      | none => rows) storage.rows }

/-- Removes the rows that are stored under the ids; the others keep their order. -/
def delete (storage : Storage) (ids : List UInt64) : Storage :=
  { storage with rows := ids.foldl OrderedMap.erase storage.rows }

/-- The ids among the given ones that key a row, in the given order and as often as given. -/
def existing (storage : Storage) (ids : List UInt64) : List UInt64 :=
  ids.filter storage.rows.contains

end Storage
end SchemaCompiler
