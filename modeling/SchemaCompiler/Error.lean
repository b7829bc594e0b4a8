/-!
What can go wrong, by the part that reports it, and the text of each cause. Errors of an inner part
that surface in a build are kept whole inside the build error, so that a reader of the build error
can still see what happened underneath (`BuildError.source`).
-/
namespace SchemaCompiler

/-- A callback refused. -/
structure CallbackError where
  message : String
  deriving DecidableEq

/-- A validator that needs the database could not be made for it. -/
structure ValidatorError where
  reason : String
  deriving DecidableEq

def ValidatorError.message (e : ValidatorError) : String :=
  "cannot resolve validator: " ++ e.reason

/-- What the relational layer answers instead of a table. -/
inductive LayerError where
  /-- A table of this name is open with another layout. -/
  | incompatible (table reason : String)
  /-- The definition contradicts itself. -/
  | rejected (table reason : String)
  | other (reason : String)
  deriving DecidableEq

def LayerError.message : LayerError → String
  | incompatible table reason =>
    "table `" ++ table ++ "` is already defined with an incompatible definition: " ++ reason
  | rejected table reason => "table `" ++ table ++ "` was rejected: " ++ reason
  | other reason => "relational layer error: " ++ reason

/-- What is wrong with a description or a configuration. -/
inductive SchemaError where
  | unreadable (path : String)
  | invalidMember (table member reason : String)
  /-- A member has the name of a phase and is not a hook. -/
  | invalidHook (table phase kind : String)
  | configuration (reason : String)
  | malformedToml
  deriving DecidableEq

namespace SchemaError

def message : SchemaError → String
  | unreadable path => "failed to read file: " ++ path
  | invalidMember table member reason =>
    "invalid member `" ++ table ++ "." ++ member ++ "`: " ++ reason
  | invalidHook table phase kind =>
    "member `" ++ table ++ "." ++ phase ++ "` is named after a lifecycle phase but is a " ++
      kind ++ ", not a hook"
  | configuration reason => "configuration error: " ++ reason
  | malformedToml => "failed to parse TOML"

/-- The stable identifier under which a diagnostic is looked up. -/
def code : SchemaError → String
  | unreadable _ => "tablewright::schema::io_error"
  | invalidMember .. => "tablewright::schema::invalid_member"
  | invalidHook .. => "tablewright::schema::invalid_hook"
  | configuration _ => "tablewright::schema::config_error"
  | malformedToml => "tablewright::schema::toml_error"

/-- Advice on what to change. -/
def help? : SchemaError → Option String
  | invalidHook .. => some "members named before_/after_ insert/update/delete must be hooks"
  | _ => none

end SchemaError

/-- What stops the reconciliation of a table's indexes. -/
inductive MigrationError where
  | store (reason : String)
  | invalidIndex (table index reason : String)
  | duplicateIndex (table index : String)
  | other (reason : String)
  deriving DecidableEq

def MigrationError.message : MigrationError → String
  | store reason => "Index store error: " ++ reason
  | invalidIndex table index reason =>
    "Invalid index `" ++ index ++ "` on `" ++ table ++ "`: " ++ reason
  | duplicateIndex table index => "Index `" ++ index ++ "` is declared twice on `" ++ table ++ "`"
  | other reason => "Migration error: " ++ reason

/-- What stops an operation on rows. -/
inductive RowError where
  | unknownColumn (table column : String)
  | rowNotFound (table : String) (id : UInt64)
  | duplicateKey (table : String) (id : UInt64)
  | validation (table column validator reason : String)
  /-- The row supplies an id that cannot key a row; `value` is its text. -/
  | invalidId (table value : String)
  | keyUpdate (table : String)
  | unknownMethod (table method : String)
  | callback (source : CallbackError)
  deriving DecidableEq

def RowError.message : RowError → String
  | unknownColumn table column => "table `" ++ table ++ "` has no stored column `" ++ column ++ "`"
  | rowNotFound table id => "row " ++ toString id.toNat ++ " not found in `" ++ table ++ "`"
  | duplicateKey table id => "duplicate key " ++ toString id.toNat ++ " in `" ++ table ++ "`"
  | validation table column validator reason =>
    "`" ++ table ++ "." ++ column ++ "` failed `" ++ validator ++ "`: " ++ reason
  | invalidId table value => "invalid row id `" ++ value ++ "` in `" ++ table ++ "`"
  | keyUpdate table => "the `id` column of `" ++ table ++ "` cannot be updated"
  | unknownMethod table method =>
    "table `" ++ table ++ "` has no row method `" ++ method ++ "`"
  | callback source => source.message

/-- Which post-definition callback failed. -/
inductive CallbackStage where
  /-- The callback that the table itself declares. -/
  | onDefine
  /-- The callback that a group runs for each of its tables. -/
  | onDefineTable
  /-- The callback that a group runs after its last table. -/
  | onDefineModel
  deriving DecidableEq

def CallbackStage.name : CallbackStage → String
  | onDefine => "_on_define"
  | onDefineTable => "on_define_table"
  | onDefineModel => "on_define_model"

/-- What stops the build of a table or a group. -/
inductive BuildError where
  | schema (source : SchemaError)
  | layer (source : LayerError)
  | validator (table field : String) (source : ValidatorError)
  | missingIndexMigrator (table : String)
  | unknownIndexColumn (table index column : String)
  | invalidOption (table option reason : String)
  | callback (table : String) (stage : CallbackStage) (source : CallbackError)
  | migration (table : String) (source : MigrationError)
  deriving DecidableEq

namespace BuildError

def message : BuildError → String
  | schema source => source.message
  | layer source => "Layer error: " ++ source.message
  | validator table field _ => "cannot build validators of `" ++ table ++ "." ++ field ++ "`"
  | missingIndexMigrator table =>
    "index migration requested for `" ++ table ++ "` but no index migrator was supplied"
  | unknownIndexColumn table index column =>
    "index `" ++ table ++ "." ++ index ++ "` references unknown field `" ++ column ++ "`"
  | invalidOption table option reason =>
    "invalid option `" ++ option ++ "` on `" ++ table ++ "`: " ++ reason
  | callback table stage _ => "`" ++ stage.name ++ "` callback failed for `" ++ table ++ "`"
  | migration table _ => "index migration failed for `" ++ table ++ "`"

/-- The stable identifier under which a diagnostic is looked up. -/
def code : BuildError → String
  | schema source => source.code
  | layer _ => "tablewright::build::layer"
  | validator .. => "tablewright::build::validator"
  | missingIndexMigrator _ => "tablewright::build::missing_index_migrator"
  | unknownIndexColumn .. => "tablewright::build::unknown_index_column"
  | invalidOption .. => "tablewright::build::invalid_option"
  | callback .. => "tablewright::build::callback"
  | migration .. => "tablewright::build::migration"

/-- Advice on what to change. -/
def help? : BuildError → Option String
  | schema source => source.help?
  | missingIndexMigrator _ =>
    some "pass an index migrator to the builder or disable index migration"
  | _ => none

/-- Whether settings are at fault rather than a declaration. -/
def isConfigError : BuildError → Bool
  | missingIndexMigrator _ => true
  | schema (.configuration _) => true
  | _ => false

end BuildError
end SchemaCompiler
