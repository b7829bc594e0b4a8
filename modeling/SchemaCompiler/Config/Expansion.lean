import SchemaCompiler.Environment

/-!
Environment variables in settings. A reference is `${`, at least one character that is no closing
brace, and `}`. The references of a text are found once, from left to right. Each one whose
variable is set is then replaced wherever its text occurs, in the order in which they were found;
the values that were put in before are part of the text by then.
-/
namespace SchemaCompiler.Config

/-- The name that a reference at the front encloses, with what follows the reference. -/
def reference? : List Char → Option (List Char × List Char)
  | '$' :: '\x7b' :: rest =>
    let name := rest.takeWhile (· ≠ '\x7d')
    if name.isEmpty then none
    else match rest.drop name.length with
      | _ :: rest => some (name, rest)
      | [] => none
  | _ => none

/-- The names of the references of a text, from left to right. References do not overlap. -/
def references : Nat → List Char → List (List Char)
  | 0, _ => []
  | _, [] => []
  | fuel + 1, c :: rest =>
    match reference? (c :: rest) with
    | some (name, rest) => name :: references fuel rest
    | none => references fuel rest

/-- Replaces every occurrence of a text that is not empty. -/
def replaceAll (text replacement : List Char) : Nat → List Char → List Char
  | 0, cs => cs
  | _, [] => []
  | fuel + 1, c :: rest =>
    if text.isPrefixOf (c :: rest) then
      replacement ++ replaceAll text replacement fuel ((c :: rest).drop text.length)
    else c :: replaceAll text replacement fuel rest

/-- Replaces the reference to a variable, if the variable is set. -/
def substitute (env : Environment) (cs name : List Char) : List Char :=
  match env.get? (String.ofList name) with
  | some value => replaceAll ('$' :: '\x7b' :: name ++ ['\x7d']) value.toList cs.length cs
  | none => cs

/-- Replaces the references of a text by the values of their variables. -/
def expand (env : Environment) (text : String) : String :=
  let cs := text.toList
  String.ofList ((references cs.length cs).foldl (substitute env) cs)

end SchemaCompiler.Config
