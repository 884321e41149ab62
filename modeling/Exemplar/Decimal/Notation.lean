import Exemplar.Decimal.Shortest

/-!
# Exemplar.Decimal.Notation

The text of a finite number.  It has the fewest digits that identify the number.  A layout says
which numbers are positional and always have a fraction, `100.0`, and how the others show their
exponent; these have no empty fraction, `1e+16`, `2.5e-7`.  Zero is `0.0` and keeps its sign.
-/

namespace Exemplar

/-- The decimal digits of a natural number. -/
def digitChars (n : Nat) : List Char := Nat.toDigits 10 n

/-- A list of digits without the zeros at its end. -/
def dropTrailingZeros (digits : List Char) : List Char :=
  (digits.reverse.dropWhile (· = '0')).reverse

/-- How numbers are laid out. -/
structure NumberLayout where
  /-- Numbers from `10 ^ least` up are positional, if they are below `10 ^ bound`. -/
  least : Int
  bound : Int
  /-- Exponents that are not negative have a plus sign. -/
  showsPlus : Bool
deriving DecidableEq

/-- In JSON text numbers from `10^-5` up to `10^16` are positional, and exponents have a sign. -/
def jsonLayout : NumberLayout where
  least := -5
  bound := 16
  showsPlus := true

/-- The text of `0.d₁d₂… * 10 ^ point`, where the first digit is not zero. -/
def NumberLayout.chars (layout : NumberLayout) (digits : List Char) (point : Int) : List Char :=
  let count : Int := digits.length
  if point ≤ layout.bound ∧ layout.least < point then
    if count ≤ point then
      digits ++ List.replicate (point - count).toNat '0' ++ ['.', '0']
    else if 0 < point then
      digits.take point.toNat ++ '.' :: digits.drop point.toNat
    else
      '0' :: '.' :: List.replicate (-point).toNat '0' ++ digits
  else
    let exponent := point - 1
    let mantissa := match digits with
      | [] => []
      | [d] => [d]
      | d :: rest => d :: '.' :: rest
    let sign := if exponent < 0 then ['-'] else if layout.showsPlus then ['+'] else []
    mantissa ++ 'e' :: sign ++ digitChars exponent.natAbs

/-- The text of a finite number in a layout. -/
def Double.charsIn (layout : NumberLayout) (x : Double) : List Char :=
  let sign := if x.isNegative then ['-'] else []
  let size := x.magnitude
  if size.m = 0 then sign ++ ['0', '.', '0']
  else
    let d := size.shortest
    let all := digitChars d.digits
    sign ++ layout.chars (dropTrailingZeros all) (d.exponent + all.length)

/-- The text of a finite number in JSON. -/
def Double.chars (x : Double) : List Char := x.charsIn jsonLayout

end Exemplar
