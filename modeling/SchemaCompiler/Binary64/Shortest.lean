import SchemaCompiler.Binary64

/-!
The fewest decimal digits that identify a number. A number owns the interval of reals that round
to it: it reaches halfway to each neighbour, ends included when its word is even. On the grids of
one, two, … digits the two grid points around the number are tried; the first grid with a point
inside the interval wins, and of two such points the nearer one, a tie going to the even digit.
-/
namespace SchemaCompiler.Binary64

/-- A decimal `digits * 10 ^ exponent`. -/
structure Decimal where
  digits : Nat
  exponent : Int
  deriving DecidableEq

/-- The denominator's share of `10 ^ k`. -/
private def down (k : Int) : Nat := Nat.pow 10 (-k).toNat

/-- The numerator's share of `10 ^ k`. -/
private def up (k : Int) : Nat := Nat.pow 10 k.toNat

/-- Whether `c * 10 ^ k` rounds to the number with a magnitude word: twice the candidate lies
between the sums of the word's value with its neighbours' values. -/
def owns (word c : Nat) (k : Int) : Bool :=
  let twice := c * up k * Nat.pow 2 1075
  let low := (scaledWord word + scaledWord (word - 1)) * down k
  let high := (scaledWord word + scaledWord (word + 1)) * down k
  if word % 2 == 0 then low ≤ twice && twice ≤ high else low < twice && twice < high

/-- The grid point next to the number on the grid of `10 ^ k`, if one rounds to it. -/
def onGrid? (word : Nat) (k : Int) : Option Nat :=
  let num := scaledWord word * down k
  let den := Nat.pow 2 1074 * up k
  let low := num / den
  match owns word low k, owns word (low + 1) k with
  | true, false => some low
  | false, true => some (low + 1)
  | false, false => none
  | true, true => some (divideToEven num den)

/-- The exponent of the leading decimal digit of a positive value in units of `2 ^ -1074`. The
estimate from the binary length is off by one place at most. -/
def leadingExponent (value : Nat) : Int :=
  let estimate : Int := ((Nat.log2 value : Int) - 1074) * 30103 / 100000
  let reaches (e : Int) : Bool := Nat.pow 2 1074 * up e ≤ value * down e
  if reaches (estimate + 1) then estimate + 1
  else if reaches estimate then estimate
  else estimate - 1

/-- Drops trailing zeros from the digits, at most as many as the fuel. -/
private def trim : Nat → Decimal → Decimal
  | 0, d => d
  | fuel + 1, d =>
    if d.digits ≠ 0 ∧ d.digits % 10 = 0 then trim fuel ⟨d.digits / 10, d.exponent + 1⟩ else d

/-- Tries the grids from the given one towards finer ones. -/
private def firstHit (word : Nat) : Nat → Int → Decimal
  | 0, k => ⟨scaledWord word * down k / (Nat.pow 2 1074 * up k), k⟩
  | finer + 1, k =>
    match onGrid? word k with
    | some c => trim 20 ⟨c, k⟩
    | none => firstHit word finer (k - 1)

/-- The shortest decimal that rounds to the absolute value. Seventeen digits always suffice. -/
def shortest (x : Binary64) : Decimal :=
  if x.isZero then ⟨0, 0⟩ else firstHit x.magnitude 17 (leadingExponent x.scaled)

end SchemaCompiler.Binary64
