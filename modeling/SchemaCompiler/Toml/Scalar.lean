import SchemaCompiler.Binary64

/-!
The written forms of TOML numbers, dates and times. Settings use none of their values, so a form is
only recognised: `isScalar` accepts a word that is a number in range or a date or time that
exists. A floating-point number may be too large for its format only if it is negative.
-/
namespace SchemaCompiler.Toml

/-- Digits of a base, with single underscores between them. -/
def isDigitRun (isDigit : Char → Bool) : List Char → Bool
  | [] => false
  | [c] => isDigit c
  | c :: '_' :: rest => isDigit c && isDigitRun isDigit rest
  | c :: rest => isDigit c && isDigitRun isDigit rest

def isHexDigit (c : Char) : Bool :=
  c.isDigit || ('a' ≤ c && c ≤ 'f') || ('A' ≤ c && c ≤ 'F')

def digitValue (c : Char) : Nat :=
  if c.isDigit then c.toNat - 48 else c.toLower.toNat - 87

/-- The value of digits, underscores left out. -/
def digitsValue (base : Nat) (cs : List Char) : Nat :=
  (cs.filter (· ≠ '_')).foldl (fun n c => n * base + digitValue c) 0

/-- Removes a sign. -/
def unsigned : List Char → List Char
  | '+' :: rest => rest
  | '-' :: rest => rest
  | cs => cs

/-- A decimal digit run without superfluous zeros in front. -/
def isDecimal (cs : List Char) : Bool :=
  isDigitRun Char.isDigit cs && (cs.head? != some '0' || cs.length == 1)

/-- A signed 64-bit integer; only decimal ones have a sign. -/
def isInteger (cs : List Char) : Bool :=
  let based (base : Nat) (isDigit : Char → Bool) (digits : List Char) : Bool :=
    isDigitRun isDigit digits && digitsValue base digits < Nat.pow 2 63
  match cs with
  | '0' :: 'x' :: digits => based 16 isHexDigit digits
  | '0' :: 'o' :: digits => based 8 (fun c => '0' ≤ c && c ≤ '7') digits
  | '0' :: 'b' :: digits => based 2 (fun c => c == '0' || c == '1') digits
  | cs =>
    let digits := unsigned cs
    let limit := if cs.head? == some '-' then Nat.pow 2 63 + 1 else Nat.pow 2 63
    isDecimal digits && digitsValue 10 digits < limit

/-- An unsigned decimal cut into its whole part, its fraction with the point, and its exponent
with the mark; a part that is not there is empty. -/
def decimalParts (cs : List Char) : List Char × List Char × List Char :=
  let mantissa := cs.takeWhile fun c => c != 'e' && c != 'E'
  let whole := mantissa.takeWhile (· ≠ '.')
  (whole, mantissa.drop whole.length, cs.drop mantissa.length)

/-- Whether an unsigned decimal rounds to a finite number. -/
def isFiniteDecimal (cs : List Char) : Bool :=
  let (whole, fraction, exponent) := decimalParts cs
  let places := ((fraction.drop 1).filter (· ≠ '_')).length
  let size := digitsValue 10 (unsigned (exponent.drop 1))
  let exponent : Int := if (exponent.drop 1).head? == some '-' then -size else size
  Binary64.isInRange (digitsValue 10 (whole ++ fraction.drop 1)) (exponent - places)

/-- A floating-point number: a decimal with a fraction, an exponent or both, or a special one. -/
def isFloat (cs : List Char) : Bool :=
  let digits := unsigned cs
  if digits == ['i', 'n', 'f'] || digits == ['n', 'a', 'n'] then true
  else
    let (whole, fraction, exponent) := decimalParts digits
    isDecimal whole && (!exponent.isEmpty || !fraction.isEmpty) &&
      (fraction.isEmpty || isDigitRun Char.isDigit (fraction.drop 1)) &&
      (exponent.isEmpty || isDigitRun Char.isDigit (unsigned (exponent.drop 1))) &&
      (cs.head? == some '-' || isFiniteDecimal digits)

/-- The value of exactly so many digits at the front, and what follows. -/
def fixedDigits? (count : Nat) (cs : List Char) : Option (Nat × List Char) :=
  let digits := cs.take count
  if digits.length == count && digits.all Char.isDigit then
    some (digitsValue 10 digits, cs.drop count)
  else none

def expect (c : Char) : List Char → Option (List Char)
  | d :: rest => if c = d then some rest else none
  | [] => none

def daysIn (year month : Nat) : Nat :=
  if month = 2 then
    if year % 4 = 0 ∧ (year % 100 ≠ 0 ∨ year % 400 = 0) then 29 else 28
  else if month ∈ [4, 6, 9, 11] then 30
  else 31

/-- What follows a date that exists. -/
def date? (cs : List Char) : Option (List Char) := do
  let (year, cs) ← fixedDigits? 4 cs
  let (month, cs) ← fixedDigits? 2 (← expect '-' cs)
  let (day, cs) ← fixedDigits? 2 (← expect '-' cs)
  guard (1 ≤ month && month ≤ 12 && 1 ≤ day && day ≤ daysIn year month)
  return cs

/-- What follows an hour and a minute that exist. -/
def hourMinute? (cs : List Char) : Option (List Char) := do
  let (hour, cs) ← fixedDigits? 2 cs
  let (minute, cs) ← fixedDigits? 2 (← expect ':' cs)
  guard (hour ≤ 23 && minute ≤ 59)
  return cs

/-- What follows a time that exists; a leap second does. -/
def time? (cs : List Char) : Option (List Char) := do
  let (second, cs) ← fixedDigits? 2 (← expect ':' (← hourMinute? cs))
  guard (second ≤ 60)
  match cs with
  | '.' :: rest =>
    guard ((rest.head?.map Char.isDigit).getD false)
    return rest.dropWhile Char.isDigit
  | cs => return cs

/-- Whether an offset from universal time, or nothing, is all there is. -/
def isOffset : List Char → Bool
  | [] => true
  | ['Z'] => true
  | ['z'] => true
  | '+' :: rest => hourMinute? rest == some []
  | '-' :: rest => hourMinute? rest == some []
  | _ => false

/-- A date, a time, or a date with a time and maybe an offset. -/
def isDateTime (cs : List Char) : Bool :=
  match date? cs with
  | some [] => true
  | some (mark :: rest) =>
    (mark == 'T' || mark == 't' || mark == ' ') && ((time? rest).map isOffset).getD false
  | none => time? cs == some []

/-- Whether a word is a number, date or time. -/
def isScalar (cs : List Char) : Bool := isInteger cs || isFloat cs || isDateTime cs

end SchemaCompiler.Toml
