import SchemaCompiler.Json

/-!
The six moments of a row operation at which hooks run: before and after an insertion, an update
and a deletion. A phase is a timing and an event (`ofParts_timing_event`), and its name is the
member name under which a description declares a hook for it (`ofName?_eq_some_iff`).
-/
namespace SchemaCompiler

inductive Timing where
  | before
  | after
  deriving DecidableEq

inductive Event where
  | insert
  | update
  | delete
  deriving DecidableEq

inductive Phase where
  | beforeInsert
  | afterInsert
  | beforeUpdate
  | afterUpdate
  | beforeDelete
  | afterDelete
  deriving DecidableEq

namespace Phase

/-- Every phase, in the order in which a hook for all of them is attached. -/
def all : List Phase :=
  [beforeInsert, afterInsert, beforeUpdate, afterUpdate, beforeDelete, afterDelete]

/-- The member name of a phase. -/
def name : Phase → String
  | beforeInsert => "before_insert"
  | afterInsert => "after_insert"
  | beforeUpdate => "before_update"
  | afterUpdate => "after_update"
  | beforeDelete => "before_delete"
  | afterDelete => "after_delete"

/-- The phase with a member name. -/
def ofName? (name : String) : Option Phase := all.find? fun phase => phase.name == name

def timing : Phase → Timing
  | beforeInsert | beforeUpdate | beforeDelete => .before
  | afterInsert | afterUpdate | afterDelete => .after

def event : Phase → Event
  | beforeInsert | afterInsert => .insert
  | beforeUpdate | afterUpdate => .update
  | beforeDelete | afterDelete => .delete

def ofParts : Timing → Event → Phase
  | .before, .insert => beforeInsert
  | .after, .insert => afterInsert
  | .before, .update => beforeUpdate
  | .after, .update => afterUpdate
  | .before, .delete => beforeDelete
  | .after, .delete => afterDelete

/-- The place of a phase in `all`. -/
def position (phase : Phase) : Nat := all.idxOf phase

theorem ofParts_timing_event (phase : Phase) : ofParts phase.timing phase.event = phase := by
  cases phase <;> rfl

theorem ofName?_name (phase : Phase) : ofName? phase.name = some phase := by
  cases phase <;> decide

theorem ofName?_eq_some_iff {text : String} {phase : Phase} :
    ofName? text = some phase ↔ text = phase.name := by
  constructor
  · intro found
    have := List.find?_some found
    exact (beq_iff_eq.1 this).symm
  · rintro rfl
    exact ofName?_name phase

/-- The phase that a value stands for: its name, or an object with nothing but its name filed
over null. -/
def ofJson? : Json → Option Phase
  | .string name => ofName? name
  | .object [(name, .null)] => ofName? name
  | _ => none

end Phase

/-- Whether a member name belongs to a phase. -/
def isHookName (name : String) : Bool := (Phase.ofName? name).isSome

/-- The word for a timing. -/
def Timing.name : Timing → String
  | .before => "Before"
  | .after => "After"

/-- The word for an event. -/
def Event.name : Event → String
  | .insert => "Insert"
  | .update => "Update"
  | .delete => "Delete"

end SchemaCompiler
