/-!
# Lengths in bytes

The number of bytes of a text in UTF-8.
-/

namespace Exemplar

/-- The number of bytes of a text. -/
def byteLength : List Char → Nat
  | [] => 0
  | c :: rest => c.utf8Size + byteLength rest

end Exemplar
