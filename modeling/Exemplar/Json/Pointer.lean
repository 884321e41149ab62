import Exemplar.Json.Basic
import Exemplar.Text.Split

/-!
# Exemplar.Json.Pointer

Selecting a part of a JSON value by a pointer.  The empty pointer selects the value itself; any
other starts with `/` and names one part after each `/`: a key, in which `~1` stands for `/` and
`~0` for `~`, or an index without sign and without leading zeros.
-/

namespace Exemplar

/-- Replaces a tilde and a digit by a character, from left to right. -/
def replaceTilde (digit char : Char) : List Char → List Char
  | '~' :: d :: rest =>
    if d = digit then char :: replaceTilde digit char rest
    else '~' :: replaceTilde digit char (d :: rest)
  | c :: rest => c :: replaceTilde digit char rest
  | [] => []

/-- The name that a part of a pointer spells. -/
def pointerName (part : List Char) : String :=
  String.ofList (replaceTilde '0' '~' (replaceTilde '1' '/' part))

/-- The index that a name spells. -/
def arrayIndex? (name : String) : Option Nat :=
  match name.toList with
  | [] => none
  | ['0'] => some 0
  | digits =>
    if digits.head? = some '0' ∨ ¬ digits.all Char.isDigit then none
    else some (digits.foldl (fun value d => value * 10 + (d.toNat - '0'.toNat)) 0)

namespace Json

/-- The part of a value that a name selects. -/
def child? (value : Json) (name : String) : Option Json :=
  match value with
  | object entries => entry? entries name
  | array items => (arrayIndex? name).bind (items[·]?)
  | _ => none

/-- The part of a value that a pointer selects. -/
def pointer? (value : Json) (pointer : String) : Option Json :=
  match pointer.toList with
  | [] => some value
  | '/' :: rest =>
    ((splitAtChar '/' rest).map pointerName).foldlM child? value
  | _ => none

end Json

end Exemplar
