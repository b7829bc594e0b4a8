import SchemaCompiler.Config
import SchemaCompiler.Config.Expansion
import SchemaCompiler.Toml.Reader

/-!
Reading settings from TOML. Each section is a record of known fields. A record is written as a
table, in which unknown fields are refused, or as an array of its fields' values in their fixed
order. An array may stop early where the fields that follow have a default of their own, and what
it holds past the last field is passed over.
-/
namespace SchemaCompiler

namespace Toml

def string? : Toml → Option String
  | string s => some s
  | _ => none

def boolean? : Toml → Option Bool
  | boolean b => some b
  | _ => none

def table? : Toml → Option (List (String × Toml))
  | table fields => some fields
  | _ => none

/-- The fields of a record: of a table all must be known, and of an array there must be at least
so many. -/
def record? (names : List String) (least : Nat) : Toml → Option (List (String × Toml))
  | table fields => if fields.all (·.1 ∈ names) then some fields else none
  | array items => if least ≤ items.length then some (names.zip items) else none
  | _ => none

/-- A field that may be missing. -/
def field? {α : Type} (fields : List (String × Toml)) (name : String) (read : Toml → Option α) :
    Option (Option α) :=
  match fields.find? (·.1 == name) with
  | some (_, value) => (read value).map some
  | none => some none

/-- A table of values that are read alike, in the order of the document. -/
def mapOf? {α : Type} (read : Toml → Option α) (value : Toml) : Option (OrderedMap String α) := do
  let entries ← (← value.table?).mapM fun field => do return (field.1, ← read field.2)
  return .ofList entries

end Toml

open Toml (field? mapOf?)

def GroupConfig.ofToml? (value : Toml) : Option GroupConfig := do
  let fields ← value.record? ["prefix", "auto_pk"] 0
  return {
    rawPrefix := ← field? fields "prefix" Toml.string?
    autoKey := (← field? fields "auto_pk" Toml.boolean?).getD false }

/-- A truth value or a list of table names. -/
def MigrateSetting.ofToml? : Toml → Option MigrateSetting
  | .boolean value => some (.flag value)
  | .array items => do return .tables (← items.mapM Toml.string?)
  | _ => none

def IndexConfig.ofToml? (value : Toml) : Option IndexConfig := do
  let fields ← value.record? ["migrate"] 0
  return { migrate := (← field? fields "migrate" MigrateSetting.ofToml?).getD (.flag false) }

def DebugConfig.ofToml? (value : Toml) : Option DebugConfig := do
  let fields ← value.record? ["log_level", "log_format"] 0
  return {
    logLevel := ← field? fields "log_level" Toml.string?
    logFormat := ← field? fields "log_format" Toml.string? }

def GroupOverride.ofToml? (value : Toml) : Option GroupOverride := do
  let fields ← value.record? ["prefix", "auto_pk"] 2
  return {
    rawPrefix := ← field? fields "prefix" Toml.string?
    autoKey := ← field? fields "auto_pk" Toml.boolean? }

def EnvironmentOverride.ofToml? (value : Toml) : Option EnvironmentOverride := do
  let fields ← value.record? ["groups", "indexes", "debug"] 3
  return {
    groups := (← field? fields "groups" (mapOf? GroupOverride.ofToml?)).getD .empty
    indexes := ← field? fields "indexes" IndexConfig.ofToml?
    debug := ← field? fields "debug" DebugConfig.ofToml? }

namespace Config

def ofToml? (value : Toml) : Option Config := do
  let fields ← value.record? ["groups", "indexes", "debug", "environments"] 0
  return {
    groups := (← field? fields "groups" (mapOf? GroupConfig.ofToml?)).getD .empty
    indexes := (← field? fields "indexes" IndexConfig.ofToml?).getD {}
    debug := (← field? fields "debug" DebugConfig.ofToml?).getD {}
    environments := (← field? fields "environments" (mapOf? EnvironmentOverride.ofToml?)).getD
      .empty }

/-- Reads settings from a text with references to environment variables. -/
def read (env : Environment) (text : String) : Except SchemaError Config :=
  match (Toml.read? (expand env text)).bind ofToml? with
  | some config => .ok config
  | none => .error .malformedToml

end Config
end SchemaCompiler
