import Exemplar.Text.Ranges

/-!
# Blanks

The 25 characters with the Unicode property White_Space, and the trimming of texts by them.
-/

namespace Exemplar

/-- The code points of blank characters, ascending. -/
def blankRanges : List (Nat × Nat) :=
  [(0x09, 0x0D), (0x20, 0x20), (0x85, 0x85), (0xA0, 0xA0), (0x1680, 0x1680), (0x2000, 0x200A),
   (0x2028, 0x2029), (0x202F, 0x202F), (0x205F, 0x205F), (0x3000, 0x3000)]

/-- A white-space character. -/
def isBlank (c : Char) : Bool := inRanges blankRanges c

/-- The text without its leading blanks. -/
def skipBlanks (s : List Char) : List Char := s.dropWhile isBlank

/-- The text without its trailing blanks. -/
def trimEnd (s : List Char) : List Char := (skipBlanks s.reverse).reverse

/-- The text without the blanks around it. -/
def trim (s : List Char) : List Char := trimEnd (skipBlanks s)

theorem length_skipBlanks_le (s : List Char) : (skipBlanks s).length ≤ s.length :=
  (List.dropWhile_suffix _).length_le

end Exemplar
