/-!
# Exemplar.Decimal.Double

Finite binary64 numbers, kept by their bits.  The magnitude of such a number is an exact
product `m * 2 ^ q` of a natural number and a power of two, which is how it is compared with
decimals.
-/

namespace Exemplar

/-- A finite binary64 number; the two zeros are different numbers. -/
structure Double where
  bits : UInt64
  finite : (bits >>> 52) &&& 0x7FF ≠ 0x7FF
deriving DecidableEq

namespace Double

/-- The number with the given bits, unless they stand for an infinity or for no number. -/
def ofBits? (bits : UInt64) : Option Double :=
  if h : (bits >>> 52) &&& 0x7FF ≠ 0x7FF then some ⟨bits, h⟩ else none

/-- The number as a machine float. -/
def toFloat (x : Double) : Float := Float.ofBits x.bits

/-- A machine float that is a finite number. -/
def ofFloat? (x : Float) : Option Double := ofBits? x.toBits

/-- The sign bit is set. -/
def isNegative (x : Double) : Bool := x.bits >>> 63 = 1

/-- The eleven bits of the exponent. -/
def exponentField (x : Double) : Nat := ((x.bits >>> 52) &&& 0x7FF).toNat

/-- The 52 bits of the fraction. -/
def fractionField (x : Double) : Nat := (x.bits &&& 0xFFFFFFFFFFFFF).toNat

end Double

/-- The magnitude `m * 2 ^ q` of a finite number. -/
structure Magnitude where
  m : Nat
  q : Int
  /-- The gap to the number below is half of the gap to the number above. -/
  atPowerOfTwo : Bool
deriving DecidableEq

/-- The leading bit of a normal significand, `2 ^ 52`, which is not stored. -/
def leadingBit : Nat := 4503599627370496

/-- The exact magnitude of a finite number. -/
def Double.magnitude (x : Double) : Magnitude :=
  if x.exponentField = 0 then ⟨x.fractionField, -1074, false⟩
  else ⟨leadingBit + x.fractionField, x.exponentField - 1075,
    x.fractionField = 0 && 1 < x.exponentField⟩

end Exemplar
