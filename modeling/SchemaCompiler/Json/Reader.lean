import SchemaCompiler.Json

/-!
Reading a value from its text. The text must be exactly one value between blanks; at most 127
arrays and objects may be open at once. A number without fraction and exponent that fits a signed
or unsigned 64-bit word is an integer, and `-0` is not. Every other number is a floating-point
one: its digits are gathered into an unsigned 64-bit word, those that no longer fit only move the
decimal point, and the word is then scaled by a power of ten (`Binary64.ofDecimal`).
-/
namespace SchemaCompiler

/-- Divides by `10 ^ k` in steps of at most `10 ^ 308`, until nothing is left. -/
def Binary64.shrink (x : Binary64) (k : Nat) : Option Binary64 :=
  if k ≤ 308 then x.scaleDown k
  else if x.isZero then some x
  else (x.scaleDown 308).bind fun y => y.shrink (k - 308)
termination_by k

/-- The number `significand * 10 ^ exponent`: the significand is rounded first and the product or
quotient once more. `none` if it is too large. -/
def Binary64.ofDecimal (significand : Nat) (exponent : Int) : Option Binary64 := do
  let x ← ofNat? significand
  if exponent < 0 then x.shrink (-exponent).toNat
  else if exponent ≤ 308 then x.scaleUp exponent.toNat
  else if x.isZero then some x
  else none

/-- The number of the other sign. -/
def Binary64.negate (x : Binary64) : Binary64 := { x with negative := !x.negative }

namespace Json.Reader

/-- Skips blanks. -/
def skip : List Char → List Char
  | ' ' :: rest => skip rest
  | '\t' :: rest => skip rest
  | '\n' :: rest => skip rest
  | '\r' :: rest => skip rest
  | cs => cs

/-! ## Numbers -/

/-- Appends digits to a significand as long as it fits 64 bits, and counts those left over. -/
def gather (significand : Nat) : List Char → Nat × Nat
  | [] => (significand, 0)
  | c :: rest =>
    let next := significand * 10 + (c.toNat - 48)
    if next < UInt64.size then gather next rest else (significand, rest.length + 1)

/-- An exponent with its mark, or nothing. -/
def exponent? : List Char → Option (Option Int × List Char)
  | c :: rest =>
    if c = 'e' ∨ c = 'E' then
      let (negative, rest) := match rest with
        | '+' :: r => (false, r)
        | '-' :: r => (true, r)
        | r => (false, r)
      let digits := rest.takeWhile Char.isDigit
      if digits.isEmpty then none
      else
        let size : Int := digits.foldl (fun n c => n * 10 + (c.toNat - 48 : Nat)) 0
        some (some (if negative then -size else size), rest.drop digits.length)
    else some (none, c :: rest)
  | [] => some (none, [])

/-- The digits after a decimal point, or nothing. -/
def fraction? : List Char → Option (Option (List Char) × List Char)
  | '.' :: rest =>
    let digits := rest.takeWhile Char.isDigit
    if digits.isEmpty then none else some (some digits, rest.drop digits.length)
  | rest => some (none, rest)

/-- An unsigned number with the sign that stood before it. -/
def number? (negative : Bool) (cs : List Char) : Option (Number × List Char) := do
  let whole := cs.takeWhile Char.isDigit
  guard (!whole.isEmpty && (whole.head? != some '0' || whole.length == 1))
  let (fraction, rest) ← fraction? (cs.drop whole.length)
  let (exponent, rest) ← exponent? rest
  let (significand, dropped) := gather 0 whole
  let float (significand : Nat) (exponent : Int) : Option (Number × List Char) := do
    let x ← Binary64.ofDecimal significand exponent
    return (.float (if negative then x.negate else x), rest)
  match fraction, exponent with
  | none, none =>
    if dropped ≠ 0 then float significand dropped
    else if !negative then return (.int significand, rest)
    else if significand = 0 ∨ Nat.pow 2 63 < significand then float significand 0
    else return (.int (-(significand : Int)), rest)
  | fraction, exponent =>
    let digits := fraction.getD []
    let (significand, extra) := gather significand digits
    let shift : Int := dropped - ((digits.length : Int) - extra)
    float significand (shift + exponent.getD 0)

/-! ## Strings -/

/-- The value of a hexadecimal digit. -/
def hexDigit? (c : Char) : Option Nat :=
  if '0' ≤ c ∧ c ≤ '9' then some (c.toNat - 48)
  else if 'a' ≤ c ∧ c ≤ 'f' then some (c.toNat - 87)
  else if 'A' ≤ c ∧ c ≤ 'F' then some (c.toNat - 55)
  else none

/-- Four hexadecimal digits. -/
def hex4? : List Char → Option (Nat × List Char)
  | a :: b :: c :: d :: rest => do
    let a ← hexDigit? a
    let b ← hexDigit? b
    let c ← hexDigit? c
    let d ← hexDigit? d
    return (((a * 16 + b) * 16 + c) * 16 + d, rest)
  | _ => none

/-- What follows `\u`: a character by its number, or two halves of a surrogate pair. -/
def unicode? (cs : List Char) : Option (Char × List Char) := do
  let (high, rest) ← hex4? cs
  if high < 0xD800 ∨ 0xDFFF < high then return (Char.ofNat high, rest)
  guard (high < 0xDC00)
  match rest with
  | '\\' :: 'u' :: rest =>
    let (low, rest) ← hex4? rest
    guard (0xDC00 ≤ low && low ≤ 0xDFFF)
    return (Char.ofNat (0x10000 + (high - 0xD800) * 0x400 + (low - 0xDC00)), rest)
  | _ => none

/-- What follows a backslash. -/
def escape? : List Char → Option (Char × List Char)
  | '"' :: rest => some ('"', rest)
  | '\\' :: rest => some ('\\', rest)
  | '/' :: rest => some ('/', rest)
  | 'b' :: rest => some (Char.ofNat 8, rest)
  | 'f' :: rest => some (Char.ofNat 12, rest)
  | 'n' :: rest => some ('\n', rest)
  | 'r' :: rest => some ('\r', rest)
  | 't' :: rest => some ('\t', rest)
  | 'u' :: rest => unicode? rest
  | _ => none

/-- The characters up to the closing quote. Every round uses up a character, so the length of
the text is fuel enough. -/
def string? : Nat → List Char → Option (List Char × List Char)
  | 0, _ => none
  | _, [] => none
  | fuel + 1, c :: rest =>
    if c = '"' then some ([], rest)
    else if c = '\\' then do
      let (c, rest) ← escape? rest
      let (cs, rest) ← string? fuel rest
      return (c :: cs, rest)
    else if c.toNat < 32 then none
    else do
      let (cs, rest) ← string? fuel rest
      return (c :: cs, rest)

/-! ## Values -/

mutual

/-- One value after blanks; `depth` bounds the arrays and objects that may still be opened. -/
def value? : Nat → Nat → List Char → Option (Json × List Char)
  | 0, _, _ => none
  | fuel + 1, depth, cs =>
    match skip cs with
    | 'n' :: 'u' :: 'l' :: 'l' :: rest => some (.null, rest)
    | 't' :: 'r' :: 'u' :: 'e' :: rest => some (.bool true, rest)
    | 'f' :: 'a' :: 'l' :: 's' :: 'e' :: rest => some (.bool false, rest)
    | '"' :: rest => do
      let (s, rest) ← string? fuel rest
      return (.string (String.ofList s), rest)
    | '[' :: rest =>
      match depth, skip rest with
      | 0, _ => none
      | _ + 1, ']' :: rest => some (.array [], rest)
      | depth + 1, rest => do
        let (items, rest) ← items? fuel depth rest
        return (.array items, rest)
    | '\x7b' :: rest => do
      let (fields, rest) ← object? fuel depth rest
      return (.ofFields fields, rest)
    | '-' :: rest => do
      let (n, rest) ← number? true rest
      return (.number n, rest)
    | rest => do
      let (n, rest) ← number? false rest
      return (.number n, rest)

/-- The items of an array up to its end. -/
def items? : Nat → Nat → List Char → Option (List Json × List Char)
  | 0, _, _ => none
  | fuel + 1, depth, cs => do
    let (item, rest) ← value? fuel depth cs
    match skip rest with
    | ']' :: rest => return ([item], rest)
    | ',' :: rest =>
      let (items, rest) ← items? fuel depth rest
      return (item :: items, rest)
    | _ => none

/-- The fields of an object after its brace, in the order they are written. -/
def object? : Nat → Nat → List Char → Option (List (String × Json) × List Char)
  | 0, _, _ => none
  | fuel + 1, depth, cs =>
    match depth, skip cs with
    | 0, _ => none
    | _ + 1, '\x7d' :: rest => some ([], rest)
    | depth + 1, rest => fields? fuel depth rest

/-- One field and those after it. -/
def fields? : Nat → Nat → List Char → Option (List (String × Json) × List Char)
  | 0, _, _ => none
  | fuel + 1, depth, cs => do
    let '"' :: rest := skip cs | none
    let (name, rest) ← string? fuel rest
    let ':' :: rest := skip rest | none
    let (value, rest) ← value? fuel depth rest
    match skip rest with
    | '\x7d' :: rest => return ([(String.ofList name, value)], rest)
    | ',' :: rest =>
      let (fields, rest) ← fields? fuel depth rest
      return ((String.ofList name, value) :: fields, rest)
    | _ => none

end

/-- How many arrays and objects may be open at once. -/
def maxDepth : Nat := 127

/-- Every step into a value, item or field uses up a character, so this many steps suffice. -/
def fuelFor (cs : List Char) : Nat := 2 * cs.length + 4

end Json.Reader

open Json.Reader in
/-- Reads a text that is one value. -/
def Json.read? (text : String) : Option Json := do
  let cs := text.toList
  let (value, rest) ← value? (fuelFor cs) maxDepth cs
  guard (skip rest).isEmpty
  return value

open Json.Reader in
/-- Reads a text that is one object and keeps its fields in the order they are written. -/
def Json.readFields? (text : String) : Option (List (String × Json)) := do
  let cs := text.toList
  let '\x7b' :: rest := skip cs | none
  let (fields, rest) ← object? (fuelFor cs) maxDepth rest
  guard (skip rest).isEmpty
  return fields

end SchemaCompiler
