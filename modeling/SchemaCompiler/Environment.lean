/-!
The environment a program runs in: variables, each with an entry `NAME=VALUE`. A name is looked up
in the entries, not among the names that were set: its value is what follows the name and an equals
sign in the first entry that starts with both. A name that holds an equals sign itself can so match
an entry whose value goes on where the shorter name ends.
-/
namespace SchemaCompiler

structure Environment where
  /-- The names that were set, each with its value. -/
  assignments : List (String × String) := []

namespace Environment

/-- The entry of an assignment. -/
def entry (assignment : String × String) : List Char :=
  assignment.1.toList ++ '=' :: assignment.2.toList

/-- What follows a name and an equals sign in an entry. -/
def valueIn? (name entry : List Char) : Option (List Char) :=
  if (name ++ ['=']).isPrefixOf entry then some (entry.drop (name.length + 1)) else none

/-- The value of a name. -/
def get? (env : Environment) (name : String) : Option String :=
  (env.assignments.findSome? fun assignment => valueIn? name.toList (entry assignment)).map
    String.ofList

end Environment
end SchemaCompiler
