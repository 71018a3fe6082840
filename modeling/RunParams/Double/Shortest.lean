import RunParams.Double.Basic

/-!
# The shortest decimal of a double

Many decimals round to one double. The one that is written has the fewest digits, and of those with
as many it is the nearest to the double; it is found by trying one digit more at a time, each time
on the two neighbours of the double among the decimals with so many digits.
-/

namespace RunParams

/-- The decimal `digits * 10 ^ exponent`. -/
structure Decimal where
  digits : Nat
  exponent : Int
  deriving DecidableEq, Repr

namespace Double

/-- How `a * 10 ^ i` and `n * 2 ^ j` compare. -/
def compareScaled (a : Nat) (i : Int) (n : Nat) (j : Int) : Ordering :=
  compare (a * Nat.pow 10 i.toNat * Nat.pow 2 (-j).toNat)
    (n * Nat.pow 2 j.toNat * Nat.pow 10 (-i).toNat)

/-- Whether the gap to the double below is half of the gap to the double above. -/
def narrowBelow (x : Double) : Bool :=
  x.significand == 4503599627370496 && leastExponent < x.exponent

/-- Whether a decimal rounds to the magnitude of a double: it lies no further than halfway to the
neighbours, and halfway only if the significand is even. -/
def readsAs (x : Double) (d : Decimal) : Bool :=
  let low := if x.narrowBelow then 4 * x.significand - 1 else 4 * x.significand - 2
  let high := 4 * x.significand + 2
  let even := x.significand % 2 == 0
  let fromLow := compareScaled d.digits d.exponent low (x.exponent - 2)
  let fromHigh := compareScaled d.digits d.exponent high (x.exponent - 2)
  (fromLow == .gt || (even && fromLow == .eq)) && (fromHigh == .lt || (even && fromHigh == .eq))

/-- The greatest decimal with an exponent that is not above the magnitude. -/
def floorAt (x : Double) (exponent : Int) : Decimal :=
  ⟨x.significand * Nat.pow 2 x.exponent.toNat * Nat.pow 10 (-exponent).toNat /
    (Nat.pow 2 (-x.exponent).toNat * Nat.pow 10 exponent.toNat), exponent⟩

/-- The decimal with an exponent that rounds to the magnitude and is nearest to it, if there is one.
-/
def decimalAt (x : Double) (exponent : Int) : Option Decimal :=
  let below := x.floorAt exponent
  let above : Decimal := ⟨below.digits + 1, exponent⟩
  match x.readsAs below, x.readsAs above with
  | false, false => none
  | true, false => some below
  | false, true => some above
  | true, true =>
    -- the middle of the two neighbours decides
    match compareScaled (2 * below.digits + 1) exponent (2 * x.significand) x.exponent with
    | .gt => some below
    | .lt => some above
    | .eq => some (if below.digits % 2 = 0 then below else above)

/-- The number of decimal digits before the point of a positive magnitude, negative if the first
ones after it are zeros. -/
def scale (x : Double) : Int :=
  -- the logarithm of 2 is close to 30103 / 100000
  let guess := ((x.significand.log2 : Int) + x.exponent) * 30103 / 100000
  let isBelow (k : Int) : Bool := compareScaled 1 k x.significand x.exponent == .gt
  if isBelow guess then guess else if isBelow (guess + 1) then guess + 1 else guess + 2

/-- Drops zeros at the end of the digits. -/
def trim (d : Decimal) : (bound : Nat) → Decimal
  | 0 => d
  | bound + 1 =>
    if d.digits ≠ 0 ∧ d.digits % 10 = 0 then trim ⟨d.digits / 10, d.exponent + 1⟩ bound else d

/-- The shortest decimal that rounds to the magnitude. Seventeen digits are always enough. -/
def shortest (x : Double) : Decimal :=
  if x.isZero then ⟨0, 0⟩
  else
    let scale := x.scale
    let found := (List.range 17).findSome? fun n => x.decimalAt (scale - (n + 1 : Nat))
    trim (found.getD (x.floorAt (scale - 17))) 17

end Double

end RunParams
