import Exemplar.Text.Split

/-!
# Exemplar.Name

Class names are identifiers joined by dots, `java.util.Map`.  Identifiers are ASCII: a letter,
`_` or `$`, then letters, digits, `_` and `$`.  The part after the last dot is the simple name;
the proper dotted prefixes are the places where an enclosing class can be declared.

* `isQualifiedName` — one or more identifiers joined by dots;
* `simpleName` — the part after the last dot;
* `dottedPrefixes` — what stands before each dot, longest first.
-/

namespace Exemplar

/-! ## identifiers -/

/-- A character that an identifier may begin with. -/
def isIdentifierStart (c : Char) : Bool := c.isAlpha || c = '_' || c = '$'

/-- A character that an identifier may go on with. -/
def isIdentifierPart (c : Char) : Bool := c.isAlphanum || c = '_' || c = '$'

/-- A non-empty identifier. -/
def isIdentifier : List Char → Bool
  | [] => false
  | c :: rest => isIdentifierStart c && rest.all isIdentifierPart

/-! ## dotted names -/

/-- The parts of a name between its dots. -/
def segments (name : List Char) : List (List Char) := splitAtChar '.' name

/-- One or more identifiers joined by dots. -/
def isQualifiedName (name : String) : Bool := (segments name.toList).all isIdentifier

/-- The part of a name after its last dot, or all of it. -/
def simpleName (name : String) : String :=
  String.ofList ((segments name.toList).getLastD [])

/-- What stands before each dot of a text, longest first. -/
def dottedPrefixChars : List Char → List (List Char)
  | [] => []
  | c :: rest => (dottedPrefixChars rest).map (c :: ·) ++ if c = '.' then [[]] else []

/-- The proper dotted prefixes of a name, longest first. -/
def dottedPrefixes (name : String) : List String :=
  (dottedPrefixChars name.toList).map String.ofList

end Exemplar
