import SchemaCompiler.Inspection.Unprintable
import SchemaCompiler.Json.Printer

/-!
The one-line form in which a value shows how it is put together, for messages and diagnostics.
A record is its name and its fields in braces; a record that holds something with no form of its
own, such as a callback, ends in `..`. Strings are quoted, and a character that would not be
visible as itself is written by its number.
-/
namespace SchemaCompiler.Inspection

/-- What stands for one character inside quotes. -/
def escapeChar (c : Char) : List Char :=
  match c with
  | '"' => ['\\', '"']
  | '\\' => ['\\', '\\']
  | '\n' => ['\\', 'n']
  | '\r' => ['\\', 'r']
  | '\t' => ['\\', 't']
  | _ =>
    if c.toNat = 0 then ['\\', '0']
    else if isUnprintable c then
      ['\\', 'u', '\x7b'] ++ Nat.toDigits 16 c.toNat ++ ['\x7d']
    else [c]

/-- A string between quotes. -/
def quoted (s : String) : String :=
  String.ofList ('"' :: s.toList.flatMap escapeChar ++ ['"'])

def commaSeparated (items : List String) : String := ", ".intercalate items

/-- Items in brackets. -/
def list (items : List String) : String := "[" ++ commaSeparated items ++ "]"

/-- Keys and values in braces. -/
def map (entries : List (String × String)) : String :=
  "\x7b" ++ commaSeparated (entries.map fun entry => entry.1 ++ ": " ++ entry.2) ++ "\x7d"

/-- A name applied to arguments. -/
def tuple (name : String) (items : List String) : String :=
  name ++ "(" ++ commaSeparated items ++ ")"

/-- A record all of whose fields are shown. -/
def record (name : String) (fields : List (String × String)) : String :=
  name ++ " \x7b " ++ commaSeparated (fields.map fun field => field.1 ++ ": " ++ field.2) ++ " \x7d"

/-- A record with fields that are not shown. -/
def openRecord (name : String) (fields : List (String × String)) : String :=
  name ++ " \x7b " ++
    commaSeparated (fields.map (fun field => field.1 ++ ": " ++ field.2) ++ [".."]) ++ " \x7d"

def bool (b : Bool) : String := if b then "true" else "false"

/-- A value that may be missing. -/
def option : Option String → String
  | none => "None"
  | some text => tuple "Some" [text]

def strings (items : List String) : String := list (items.map quoted)

mutual

/-- A cell value. -/
def json : Json → String
  | .null => "Null"
  | .bool b => tuple "Bool" [bool b]
  | .number n => tuple "Number" [n.text]
  | .string s => tuple "String" [quoted s]
  | .array items => "Array " ++ list (jsonItems items)
  | .object fields => "Object " ++ map (jsonFields fields)

def jsonItems : List Json → List String
  | [] => []
  | item :: rest => json item :: jsonItems rest

def jsonFields : List (String × Json) → List (String × String)
  | [] => []
  | (name, value) :: rest => (quoted name, json value) :: jsonFields rest

end

end SchemaCompiler.Inspection
