import Exemplar.Decimal.Double

/-!
# Exemplar.Decimal.Shortest

The decimal that identifies a magnitude with the fewest digits.  A decimal identifies a
magnitude when it lies among the reals that round to it, which reach half way to the numbers
on either side and include their ends when `m` is even.  Decimals of one digit are tried first,
then of two, and so on; for each length only the two decimals around the magnitude can be the
nearest, and of two that identify it the nearer counts, the even one on a tie.

All comparisons are exact, between natural numbers.
-/

namespace Exemplar

/-- The decimal number `digits * 10 ^ exponent`. -/
structure Decimal where
  digits : Nat
  exponent : Int
deriving DecidableEq

/-- Compares `a * 10 ^ i` with `b * 2 ^ j`. -/
def comparePowers (a : Nat) (i : Int) (b : Nat) (j : Int) : Ordering :=
  compare (a * Nat.pow 10 i.toNat * Nat.pow 2 (-j).toNat)
    (b * Nat.pow 2 j.toNat * Nat.pow 10 (-i).toNat)

namespace Magnitude

/-- The decimal lies among the reals that round to the magnitude. -/
def isIdentifiedBy (x : Magnitude) (d : Decimal) : Bool :=
  let lower := if x.atPowerOfTwo then 4 * x.m - 1 else 4 * x.m - 2
  let upper := 4 * x.m + 2
  match comparePowers d.digits d.exponent lower (x.q - 2),
      comparePowers d.digits d.exponent upper (x.q - 2) with
  | .gt, .lt => true
  | .eq, _ | _, .eq => x.m % 2 = 0
  | _, _ => false

/-- The number of digits before the point: the least `k` with the magnitude below `10 ^ k`. -/
def decimalExponent (x : Magnitude) : Int :=
  let start := (x.m.log2 + x.q) * 1233 / 4096 - 1
  let candidates := (List.range 5).map fun (i : Nat) => start + i
  (candidates.find? fun k => comparePowers 1 k x.m x.q = .gt).getD (start + 5)

/-- The greatest multiple of `10 ^ exponent` that is not above the magnitude. -/
def floorAt (x : Magnitude) (exponent : Int) : Decimal :=
  ⟨x.m * Nat.pow 2 x.q.toNat * Nat.pow 10 (-exponent).toNat
      / (Nat.pow 2 (-x.q).toNat * Nat.pow 10 exponent.toNat),
    exponent⟩

/-- The nearest multiple of `10 ^ exponent`, if it identifies the magnitude. -/
def nearestAt? (x : Magnitude) (exponent : Int) : Option Decimal :=
  let below := x.floorAt exponent
  let above : Decimal := ⟨below.digits + 1, exponent⟩
  match x.isIdentifiedBy below, x.isIdentifiedBy above with
  | true, false => some below
  | false, true => some above
  | false, false => none
  | true, true =>
    match comparePowers (2 * below.digits + 1) exponent x.m (x.q + 1) with
    | .lt => some above
    | .gt => some below
    | .eq => if below.digits % 2 = 0 then some below else some above

/-- The magnitude written out in full. -/
def exactDecimal (x : Magnitude) : Decimal :=
  if 0 ≤ x.q then ⟨x.m * Nat.pow 2 x.q.toNat, 0⟩ else ⟨x.m * Nat.pow 5 (-x.q).toNat, x.q⟩

/-- The decimal with the fewest digits that identifies a positive magnitude. -/
def shortest (x : Magnitude) : Decimal :=
  let k := x.decimalExponent
  ((List.range 17).findSome? fun (n : Nat) => x.nearestAt? (k - n - 1)).getD x.exactDecimal

end Magnitude

end Exemplar
