import SchemaCompiler.Environment

/-!
What the environment says about logging. Words are compared without regard to the case of ASCII
letters; no other letter has one of the words' letters as its lower case.
-/
namespace SchemaCompiler.Logging

def debugVariable : String := "TABLEWRIGHT_DEBUG"

def levelVariable : String := "TABLEWRIGHT_LOG_LEVEL"

def formatVariable : String := "TABLEWRIGHT_LOG_FORMAT"

inductive Level where
  | trace
  | debug
  | info
  | warn
  | error
  deriving DecidableEq

def Level.name : Level → String
  | trace => "trace"
  | debug => "debug"
  | info => "info"
  | warn => "warn"
  | error => "error"

/-- The level that a word names, in whatever case. -/
def Level.ofWord? (word : String) : Option Level :=
  [trace, debug, info, warn, error].find? fun level => level.name == word.toLower

inductive Format where
  | json
  | pretty
  | compact
  deriving DecidableEq

def Format.name : Format → String
  | json => "json"
  | pretty => "pretty"
  | compact => "compact"

/-- The format that a word names, in whatever case; any other word means JSON. -/
def Format.ofWord (word : String) : Format :=
  ([json, pretty, compact].find? fun format => format.name == word.toLower).getD .json

/-- Whether debug logging is switched on. -/
def isDebugEnabled (env : Environment) : Bool :=
  (env.get? debugVariable).any fun word => word.toLower ∈ ["true", "1", "yes"]

/-- The level that is set, or else one that depends on the debug switch. -/
def level (env : Environment) : Level :=
  ((env.get? levelVariable).bind Level.ofWord?).getD (if isDebugEnabled env then .debug else .warn)

/-- The format that is set. -/
def format (env : Environment) : Format :=
  ((env.get? formatVariable).map Format.ofWord).getD .json

end SchemaCompiler.Logging
