import Exemplar.Decimal.Notation
import Exemplar.Json.Basic

/-!
# Exemplar.Json.Printer

The two texts of a JSON value: the compact one without any blank, and the indented one with two
spaces for each level, where empty arrays and objects stay on one line.

In a string only `"`, `\` and the characters below U+0020 are escaped.
-/

namespace Exemplar

/-- How a value is laid out. -/
inductive Style where
  | indented
  | compact
deriving DecidableEq

/-- The lower-case hexadecimal digit of a number below 16. -/
def hexDigit (n : Nat) : Char := (Nat.toDigits 16 n).headD '0'

namespace Json

/-! ## scalars -/

/-- What stands for a character inside a string. -/
def escapeChar (c : Char) : List Char :=
  match c with
  | '"' => ['\\', '"']
  | '\\' => ['\\', '\\']
  | '\x08' => ['\\', 'b']
  | '\t' => ['\\', 't']
  | '\n' => ['\\', 'n']
  | '\x0c' => ['\\', 'f']
  | '\r' => ['\\', 'r']
  | c =>
    if c.toNat < 0x20 then ['\\', 'u', '0', '0', hexDigit (c.toNat / 16), hexDigit (c.toNat % 16)]
    else [c]

/-- A string with its quotes. -/
def stringChars (s : String) : List Char := '"' :: s.toList.flatMap escapeChar ++ ['"']

/-- The text of an integer. -/
def integerChars (value : Int) : List Char :=
  if value < 0 then '-' :: digitChars value.natAbs else digitChars value.natAbs

/-- The text of a number. -/
def numberChars : Number → List Char
  | .integer value _ => integerChars value
  | .double value => value.chars

/-! ## the compact text -/

mutual

/-- The characters of the compact text. -/
def compactChars : Json → List Char
  | null => "null".toList
  | bool true => "true".toList
  | bool false => "false".toList
  | number n => numberChars n
  | string s => stringChars s
  | array [] => ['[', ']']
  | array (item :: rest) => '[' :: item.compactChars ++ compactItems rest
  | object [] => ['{', '}']
  | object ((key, value) :: rest) =>
    '{' :: stringChars key ++ ':' :: value.compactChars ++ compactEntries rest

/-- The items after the first, and the closing bracket. -/
def compactItems : List Json → List Char
  | [] => [']']
  | item :: rest => ',' :: item.compactChars ++ compactItems rest

/-- The entries after the first, and the closing brace. -/
def compactEntries : List (String × Json) → List Char
  | [] => ['}']
  | (key, value) :: rest =>
    ',' :: stringChars key ++ ':' :: value.compactChars ++ compactEntries rest

end

/-! ## the indented text -/

/-- A new line and its indentation. -/
def newLine (level : Nat) : List Char := '\n' :: List.replicate (2 * level) ' '

mutual

/-- The characters of the indented text of a value that stands at a level. -/
def indentedChars (level : Nat) : Json → List Char
  | null => "null".toList
  | bool true => "true".toList
  | bool false => "false".toList
  | number n => numberChars n
  | string s => stringChars s
  | array [] => ['[', ']']
  | array (item :: rest) =>
    '[' :: newLine (level + 1) ++ item.indentedChars (level + 1) ++ indentedItems level rest
  | object [] => ['{', '}']
  | object ((key, value) :: rest) =>
    '{' :: newLine (level + 1) ++ stringChars key ++ ':' :: ' ' :: value.indentedChars (level + 1)
      ++ indentedEntries level rest

/-- The items after the first, and the closing bracket at the level of the array. -/
def indentedItems (level : Nat) : List Json → List Char
  | [] => newLine level ++ [']']
  | item :: rest =>
    ',' :: newLine (level + 1) ++ item.indentedChars (level + 1) ++ indentedItems level rest

/-- The entries after the first, and the closing brace at the level of the object. -/
def indentedEntries (level : Nat) : List (String × Json) → List Char
  | [] => newLine level ++ ['}']
  | (key, value) :: rest =>
    ',' :: newLine (level + 1) ++ stringChars key ++ ':' :: ' ' :: value.indentedChars (level + 1)
      ++ indentedEntries level rest

end

/-! ## texts -/

/-- The text of a value in a style. -/
def render (style : Style) (value : Json) : String :=
  match style with
  | .indented => String.ofList (value.indentedChars 0)
  | .compact => String.ofList value.compactChars

end Json

end Exemplar
