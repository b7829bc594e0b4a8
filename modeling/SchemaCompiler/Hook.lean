import SchemaCompiler.Definition
import SchemaCompiler.Phase

/-!
Handles on tables and the hooks attached to them. A callback is data of the application (the type
`κ`); what it does when it is called is told separately, by `Callbacks`. A hook is a callback of
its own, a callback whose outcome is ignored, or a common callback bound to one handle and phase.
The last kind does not keep its table open.
-/
namespace SchemaCompiler

/-- One opening of a table. Later openings of the same table have handles of their own, with hooks
and methods of their own, over the same rows. -/
structure Handle where
  id : HandleId
  definition : TableDefinition

namespace Handle

def database (handle : Handle) : String := handle.id.database

/-- The logical name of the table. -/
def name (handle : Handle) : String := handle.definition.name

/-- The form in which a validator keeps hold of the handle. -/
def ref (handle : Handle) : TableRef := ⟨handle.id, handle.definition.name⟩

end Handle

/-- Whether the operation goes on after a hook. -/
inductive HookFlow where
  | proceed
  /-- Cancels the operation; only the hooks before it are asked. -/
  | abort
  deriving DecidableEq

/-- What a hook is told: the values being written, if any, and the ids of the affected rows. -/
structure HookArgs where
  fields : Option Row := none
  ids : List UInt64 := []

namespace HookArgs

/-- Before an insertion there is no id yet. -/
def insert (fields : Row) : HookArgs := { fields := some fields }

def inserted (fields : Row) (id : UInt64) : HookArgs := { fields := some fields, ids := [id] }

def update (ids : List UInt64) (fields : Row) : HookArgs := { fields := some fields, ids }

def delete (ids : List UInt64) : HookArgs := { ids }

end HookArgs

/-- What a hook does when its phase comes. -/
inductive HookAction (κ : Type) where
  | call (callback : κ)
  /-- The callback's outcome is ignored. -/
  | observe (callback : κ)
  /-- The callback is told a handle and a phase, whichever table and phase it is attached to. -/
  | bound (callback : κ) (table : Handle) (phase : Phase)

structure Hook (κ : Type) where
  /-- Tells hooks apart that were made separately. -/
  serial : Nat
  action : HookAction κ

namespace Hook

/-- Whether two hooks are the same one. -/
def isSame {κ : Type} (a b : Hook κ) : Bool := a.serial == b.serial

end Hook

/-- What has been attached to one handle. -/
structure Decoration (κ : Type) where
  /-- Hooks with their phases, in the order of attachment. -/
  attached : List (Phase × Hook κ) := []
  methods : OrderedMap String κ := .empty

namespace Decoration

variable {κ : Type}

/-- The hooks of a phase in the order of attachment. -/
def hooks (decoration : Decoration κ) (phase : Phase) : List (Hook κ) :=
  decoration.attached.filterMap fun entry => if entry.1 = phase then some entry.2 else none

/-- Adds a hook to a phase, after those it has. -/
def attach (decoration : Decoration κ) (phase : Phase) (hook : Hook κ) : Decoration κ :=
  { decoration with attached := decoration.attached ++ [(phase, hook)] }

/-- Files a method under a name, in place of one that has it. -/
def register (decoration : Decoration κ) (name : String) (method : κ) : Decoration κ :=
  { decoration with methods := decoration.methods.insert name method }

theorem hooks_attach (decoration : Decoration κ) (phase probe : Phase) (hook : Hook κ) :
    (decoration.attach phase hook).hooks probe =
      decoration.hooks probe ++ if phase = probe then [hook] else [] := by
  by_cases same : phase = probe <;> simp [hooks, attach, same]

@[simp] theorem hooks_register (decoration : Decoration κ) (name : String) (method : κ)
    (phase : Phase) : (decoration.register name method).hooks phase = decoration.hooks phase := rfl

end Decoration
end SchemaCompiler
