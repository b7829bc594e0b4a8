import SchemaCompiler.Hook
import SchemaCompiler.Index

/-!
The declared shape of a table: named members of seven kinds, and the descriptions whose fields it
takes over (its mixins). Declaring a name twice replaces the earlier member in its place, so the
members are a map. The identity tells descriptions apart that look alike.
-/
namespace SchemaCompiler

/-- The prefix of member names that carry metadata rather than schema. -/
def reservedPrefix : String := "__"

/-- The member name of a table's own post-definition callback. -/
def onDefineName : String := "_on_define"

/-- The member name of the metadata that a group collects. -/
def extraName : String := "__extra__"

/-- Whether a member name is reserved for metadata. -/
def isReservedName (name : String) : Bool := reservedPrefix.toList.isPrefixOf name.toList

inductive Member (κ : Type) where
  | field (field : Field)
  | virtual (getter : Getter)
  /-- A method of rows. -/
  | method (call : RowMethod)
  | hook (hook : Hook κ)
  | tableMethod (callback : κ)
  | index (index : Index)
  | option (value : Json)

namespace Member

variable {κ : Type}

/-- The kind of a member in words. -/
def kind : Member κ → String
  | field _ => "field"
  | virtual _ => "virtual field"
  | method _ => "method"
  | hook _ => "hook"
  | tableMethod _ => "table method"
  | index _ => "index"
  | option _ => "option"

def isCallable : Member κ → Bool
  | virtual _ | method _ | hook _ | tableMethod _ => true
  | field _ | index _ | option _ => false

def inspect : Member κ → String
  | field f => Inspection.tuple "Field" [f.inspect]
  | virtual _ => Inspection.tuple "Virtual" [Inspection.openRecord "VirtualGetter" []]
  | method _ => Inspection.tuple "Method" [Inspection.openRecord "RowMethod" []]
  | hook _ => Inspection.tuple "Hook" [Inspection.openRecord "Hook" []]
  | tableMethod _ => Inspection.tuple "TableMethod" [Inspection.openRecord "TableMethod" []]
  | index i => Inspection.tuple "Index" [i.inspect]
  | option value => Inspection.tuple "Option" [Inspection.json value]

end Member

structure Description (κ : Type) where
  identity : Nat
  name : String
  members : OrderedMap String (Member κ)
  /-- Descriptions whose fields follow the description's own, in this order. -/
  mixins : List (Description κ)

namespace Description

variable {κ : Type}

/-- The metadata for the group, if it was declared as an option. -/
def extra? (description : Description κ) : Option Json :=
  match description.members.get? extraName with
  | some (.option value) => some value
  | _ => none

end Description
end SchemaCompiler
