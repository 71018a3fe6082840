/-!
# Doubles

The finite numbers of double precision: a sign, and a magnitude `significand * 2 ^ exponent` with at
most 53 binary digits. Arithmetic is exact and rounds once, to the nearest double, and of two that
are equally near to the one with an even significand (`Double.ofQuotient?`).

A decimal is not rounded once but read in steps (`Double.ofDecimal?`): its digits are rounded, and
then multiplied or divided by the double nearest to a power of ten. The last digit can differ from
the nearest double's, and a decimal just below the largest double may overflow.
-/

namespace RunParams

/-- A finite double. -/
structure Double where
  negative : Bool
  /-- Below `2 ^ 53`, and at least `2 ^ 52` unless the exponent is the least one. -/
  significand : Nat
  exponent : Int
  deriving DecidableEq, Repr, Inhabited

namespace Double

/-- The exponent of the doubles next to zero. -/
def leastExponent : Int := -1074

/-- The exponent of the largest doubles. -/
def greatestExponent : Int := 971

/-- A zero with a sign. -/
def zero (negative : Bool) : Double := ⟨negative, 0, leastExponent⟩

/-- Whether the number is a zero of either sign. -/
def isZero (x : Double) : Bool := x.significand == 0

/-! ## Rounding -/

/-- `n / d * 2 ^ e` as a quotient. -/
def scaled (n d : Nat) (e : Int) : Nat × Nat :=
  (n * Nat.pow 2 e.toNat, d * Nat.pow 2 (-e).toNat)

/-- The whole number nearest to a quotient; of two that are equally near the even one. -/
def roundQuotient (n d : Nat) : Nat :=
  let q := n / d
  let twice := 2 * (n % d)
  if twice < d ∨ (twice = d ∧ q % 2 = 0) then q else q + 1

/-- The exponent that leaves a positive quotient `n / d` a whole part of 53 binary digits, or the
least one. -/
def exponentOf (n d : Nat) : Int :=
  let guess := (n.log2 : Int) - d.log2
  let (scaledN, scaledD) := scaled n d (-guess)
  max leastExponent ((if scaledD ≤ scaledN then guess else guess - 1) - 52)

/-- The double nearest to `n / d * 2 ^ e`, with a sign; none if the magnitude is past the largest
double by half a step or more. -/
def ofQuotient? (negative : Bool) (n d : Nat) (e : Int) : Option Double :=
  if n = 0 then some (zero negative)
  else
    let (n, d) := scaled n d e
    let exponent := exponentOf n d
    let (n, d) := scaled n d (-exponent)
    let significand := roundQuotient n d
    let (significand, exponent) :=
      if significand = 9007199254740992 then (4503599627370496, exponent + 1)
      else (significand, exponent)
    if greatestExponent < exponent then none else some ⟨negative, significand, exponent⟩

/-- The double nearest to a natural number. -/
def ofNat? (negative : Bool) (n : Nat) : Option Double := ofQuotient? negative n 1 0

/-- The product, with the sign of the first factor. -/
def mul? (x y : Double) : Option Double :=
  ofQuotient? x.negative (x.significand * y.significand) 1 (x.exponent + y.exponent)

/-- The quotient, with the sign of the dividend. -/
def div? (x y : Double) : Option Double :=
  ofQuotient? x.negative x.significand y.significand (x.exponent - y.exponent)

/-! ## Decimals -/

/-- The greatest power of ten that is not past the largest double. -/
def greatestPower : Nat := 308

/-- Multiplies by `10 ^ exponent` in steps. A zero stays what it is, and a magnitude that gets too
small becomes a zero, so a few steps are enough for any exponent. -/
def shift (x : Double) (exponent : Int) : (steps : Nat) → Option Double
  | 0 => some (zero x.negative)
  | steps + 1 => do
    if exponent.natAbs ≤ greatestPower then
      let power ← ofNat? false (Nat.pow 10 exponent.natAbs)
      if 0 ≤ exponent then x.mul? power else x.div? power
    else if x.isZero then some x
    else if 0 ≤ exponent then none
    else
      let power ← ofNat? false (Nat.pow 10 greatestPower)
      shift (← x.div? power) (exponent + greatestPower) steps

/-- The double that a decimal `digits * 10 ^ exponent` is read as; none if it is too large. -/
def ofDecimal? (negative : Bool) (digits : Nat) (exponent : Int) : Option Double := do
  (← ofNat? negative digits).shift exponent 5

end Double

end RunParams
