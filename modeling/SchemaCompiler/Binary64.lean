/-!
Finite binary floating-point numbers of the 64-bit format, held as a sign and a magnitude word.
A number with magnitude word `m` is `scaledWord m / 2 ^ 1074`, so every comparison and every
rounding is exact arithmetic on natural numbers. `ofRatio` rounds a quotient to the nearest
number, a tie to the even word; products, quotients and scalings by powers of ten are one such
rounding each.
-/
namespace SchemaCompiler

/-- A finite number: its sign, and the exponent field and fraction read as one word. -/
structure Binary64 where
  negative : Bool
  magnitude : Nat
  finite : magnitude < 2047 * Nat.pow 2 52
  deriving DecidableEq

namespace Binary64

/-- The value of a magnitude word in units of `2 ^ -1074`. Words below `2 ^ 52` have no
implicit leading bit. -/
def scaledWord (word : Nat) : Nat :=
  if word < Nat.pow 2 52 then word
  else (Nat.pow 2 52 + word % Nat.pow 2 52) * Nat.pow 2 (word / Nat.pow 2 52 - 1)

/-- The absolute value in units of `2 ^ -1074`. -/
def scaled (x : Binary64) : Nat := scaledWord x.magnitude

def isZero (x : Binary64) : Bool := x.magnitude == 0

/-- Numerical equality: the two zeros are the same number. -/
def same (a b : Binary64) : Bool :=
  a.magnitude == b.magnitude && (a.negative == b.negative || a.magnitude == 0)

theorem same_refl (a : Binary64) : a.same a = true := by simp [same]

theorem same_symm {a b : Binary64} (h : a.same b = true) : b.same a = true := by
  simp only [same, Bool.and_eq_true, Bool.or_eq_true, beq_iff_eq] at h ⊢
  exact ⟨h.1.symm, h.2.imp Eq.symm fun zero => h.1 ▸ zero⟩

theorem same_trans {a b c : Binary64} (hab : a.same b = true) (hbc : b.same c = true) :
    a.same c = true := by
  simp only [same, Bool.and_eq_true, Bool.or_eq_true, beq_iff_eq] at hab hbc ⊢
  refine ⟨hab.1.trans hbc.1, ?_⟩
  rcases hab.2 with left | zero
  · rcases hbc.2 with right | zero
    · exact .inl (left.trans right)
    · exact .inr (hab.1.trans zero)
  · exact .inr zero

/-- The zero of a sign. -/
def zero (negative : Bool) : Binary64 := ⟨negative, 0, by decide⟩

/-- The quotient rounded to the nearest integer, a half to the even neighbour. -/
def divideToEven (num den : Nat) : Nat :=
  let low := num / den
  let rest := 2 * (num % den)
  if rest < den || (rest == den && low % 2 == 0) then low else low + 1

/-- The magnitude word nearest to `num / den` units of `2 ^ -1074`. In the binade that starts
at `2 ^ (52 + p)` neighbouring numbers are `2 ^ p` units apart. -/
def nearestWord (num den : Nat) : Nat :=
  let p := Nat.log2 (num / den) - 52
  p * Nat.pow 2 52 + divideToEven num (den * Nat.pow 2 p)

/-- The number with a sign and a magnitude word, unless the word is past the largest one. -/
def ofWord? (negative : Bool) (word : Nat) : Option Binary64 :=
  if finite : word < 2047 * Nat.pow 2 52 then some ⟨negative, word, finite⟩ else none

/-- The number nearest to `num / den`; `none` if it rounds past the largest one. -/
def ofRatio (negative : Bool) (num den : Nat) : Option Binary64 :=
  ofWord? negative (nearestWord (num * Nat.pow 2 1074) den)

/-- A natural number, rounded. -/
def ofNat? (n : Nat) : Option Binary64 := ofRatio false n 1

/-- Whether `significand * 10 ^ exponent` is near enough to a finite number to round to one.
Below `10 ^ 308` every value is, from `10 ^ 309` on none, and only between them it is computed. -/
def isInRange (significand : Nat) (exponent : Int) : Bool :=
  let digits := (Nat.toDigits 10 significand).length
  if significand = 0 then true
  else if digits + exponent ≤ 308 then true
  else if 310 ≤ digits + exponent then false
  else if exponent < 0 then (ofRatio false significand (Nat.pow 10 (-exponent).toNat)).isSome
  else (ofRatio false (significand * Nat.pow 10 exponent.toNat) 1).isSome

/-- The product with `10 ^ k`, where the power is itself rounded first. -/
def scaleUp (x : Binary64) (k : Nat) : Option Binary64 := do
  let power ← ofNat? (Nat.pow 10 k)
  ofWord? x.negative (nearestWord (x.scaled * power.scaled) (Nat.pow 2 1074))

/-- The quotient by `10 ^ k`, where the power is itself rounded first. -/
def scaleDown (x : Binary64) (k : Nat) : Option Binary64 := do
  let power ← ofNat? (Nat.pow 10 k)
  ofWord? x.negative (nearestWord (x.scaled * Nat.pow 2 1074) power.scaled)

end Binary64
end SchemaCompiler
