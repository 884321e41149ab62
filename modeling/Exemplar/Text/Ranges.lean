/-!
# Ranges of code points

A class of characters is given as a list of closed ranges of code points, ascending and apart.
-/

namespace Exemplar

/-- The code point of `c` lies in one of the closed ranges. -/
def inRanges (ranges : List (Nat × Nat)) (c : Char) : Bool :=
  ranges.any fun r => r.1 ≤ c.toNat && c.toNat ≤ r.2

end Exemplar
