import SchemaCompiler.Json
import SchemaCompiler.Binary64.Shortest

/-!
The compact text of a value: no blanks, object fields in name order, strings with the fewest
escapes the format allows. A floating-point number is written with the fewest digits that read
back as the same number and never looks like an integer.
-/
namespace SchemaCompiler

/-- How floating-point numbers are laid out. -/
structure FloatNotation where
  /-- Numbers whose leading digit stands below this power of ten take an exponent. -/
  positionalFrom : Int
  /-- Numbers whose leading digit stands above this power of ten take an exponent. -/
  positionalTo : Int
  /-- What marks a whole number as a floating-point one. -/
  wholeMark : String
  exponentMark : String
  /-- The sign of an exponent that is not negative. -/
  plusSign : String

/-- Numbers from `1e-5` to below `1e16` are positional, whole ones end in `.0`, and exponents
always carry a sign. -/
def Json.floatNotation : FloatNotation := ⟨-5, 15, ".0", "e", "+"⟩

namespace FloatNotation

private def zeros (n : Nat) : List Char := List.replicate n '0'

/-- The digits of `digits * 10 ^ exponent` with a decimal point and no exponent. -/
def positional (layout : FloatNotation) (d : Binary64.Decimal) : String :=
  let digits := Nat.toDigits 10 d.digits
  if 0 ≤ d.exponent then
    String.ofList (digits ++ zeros d.exponent.toNat) ++ layout.wholeMark
  else
    let places := (-d.exponent).toNat
    let padded := zeros (places + 1 - digits.length) ++ digits
    let whole := padded.length - places
    String.ofList (padded.take whole ++ '.' :: padded.drop whole)

/-- One digit, the others after a point, and the exponent of the first. -/
def scientific (layout : FloatNotation) (d : Binary64.Decimal) (leading : Int) : String :=
  let mantissa := match Nat.toDigits 10 d.digits with
    | [] => []
    | [c] => [c]
    | c :: rest => c :: '.' :: rest
  let sign := if leading < 0 then "-" else layout.plusSign
  String.ofList mantissa ++ layout.exponentMark ++ sign ++ toString leading.natAbs

/-- The text of a number. -/
def text (layout : FloatNotation) (x : Binary64) : String :=
  let d := x.shortest
  let leading : Int := (Nat.toDigits 10 d.digits).length - 1 + d.exponent
  let unsigned :=
    if layout.positionalFrom ≤ leading ∧ leading ≤ layout.positionalTo then layout.positional d
    else layout.scientific d leading
  if x.negative then "-" ++ unsigned else unsigned

end FloatNotation

/-- The decimal text of a number. -/
def Number.text : Number → String
  | int n => toString n
  | float x => Json.floatNotation.text x

namespace Json

/-- The lower-case hexadecimal digits of a control character. -/
private def controlEscape (c : Char) : List Char :=
  ['\\', 'u', '0', '0'] ++ [Nat.digitChar (c.toNat / 16), Nat.digitChar (c.toNat % 16)]

/-- What stands for one character inside quotes. -/
def escapeChar (c : Char) : List Char :=
  match c with
  | '"' => ['\\', '"']
  | '\\' => ['\\', '\\']
  | '\n' => ['\\', 'n']
  | '\r' => ['\\', 'r']
  | '\t' => ['\\', 't']
  | _ =>
    if c.toNat = 8 then ['\\', 'b']
    else if c.toNat = 12 then ['\\', 'f']
    else if c.toNat < 32 then controlEscape c
    else [c]

/-- A string between quotes. -/
def quoted (s : String) : String :=
  String.ofList ('"' :: s.toList.flatMap escapeChar ++ ['"'])

mutual

/-- The compact text of a value. -/
def compact : Json → String
  | null => "null"
  | bool true => "true"
  | bool false => "false"
  | number n => n.text
  | string s => quoted s
  | array items => "[" ++ compactItems items ++ "]"
  | object fields => "\x7b" ++ compactFields fields ++ "\x7d"

def compactItems : List Json → String
  | [] => ""
  | [item] => item.compact
  | item :: rest => item.compact ++ "," ++ compactItems rest

def compactFields : List (String × Json) → String
  | [] => ""
  | [(name, value)] => quoted name ++ ":" ++ value.compact
  | (name, value) :: rest => quoted name ++ ":" ++ value.compact ++ "," ++ compactFields rest

end

/-- The compact text of an object whose fields keep the order they are given in. -/
def compactObject (fields : List (String × Json)) : String :=
  "\x7b" ++ compactFields fields ++ "\x7d"

end Json
end SchemaCompiler
