import Exemplar.Decimal.Double

/-!
# Exemplar.Decimal.Reading

The number that a decimal numeral stands for.  The numeral is `significand * 10 ^ exponent`,
where the significand holds the leading digits that fit into 64 bits.  It is rounded to a
double first, and then multiplied by, or divided by, the double nearest the power of ten; each
step rounds.  A numeral with more than 15 digits may thus end next to the nearest double.
-/

namespace Exemplar

/-- The greatest power of ten with a double near it. -/
def largestPowerOfTen : Nat := 308

/-- The double nearest `10 ^ n`. -/
def powerOfTen (n : Nat) : Float := Float.ofScientific 1 false n

/-- Scales a float by a power of ten, in steps that doubles can express. -/
def scaleByTen (x : Float) (exponent : Int) : Float :=
  if exponent.natAbs ≤ largestPowerOfTen then
    if 0 ≤ exponent then x * powerOfTen exponent.natAbs else x / powerOfTen exponent.natAbs
  else if x == 0 then x
  else if 0 ≤ exponent then x / 0
  else scaleByTen (x / powerOfTen largestPowerOfTen) (exponent + largestPowerOfTen)
termination_by exponent.natAbs
decreasing_by simp only [largestPowerOfTen] at *; omega

/-- The finite number that a numeral stands for; none when it is too large. -/
def Double.ofDecimal? (negative : Bool) (significand : Nat) (exponent : Int) : Option Double :=
  let x := scaleByTen (Float.ofNat significand) exponent
  ofFloat? (if negative then -x else x)

end Exemplar
