import Exemplar.Json.Printer

/-!
# Exemplar.Filter.Value

The values that filters compute with.  Whole numbers of 64 signed bits and machine floats are
numbers to compute with; any other number stays as it is written until something is computed
from it.

* `Value.ofJson`, `Value.text` — from a JSON value, and to JSON text;
* `Value.order` — null, false, true, numbers, strings, arrays, objects; objects by their sorted
  keys first.
-/

namespace Exemplar.Filter

/-- A value in a filter. -/
inductive Value where
  | null
  | bool (value : Bool)
  | int (value : Int)
  | float (value : Float)
  | numeral (text : String)
  | string (value : String)
  | array (items : List Value)
  | object (entries : List (String × Value))

namespace Value

instance : Inhabited Value := ⟨null⟩

/-! ## JSON -/

/-- The number of an integer: kept as it is written when 64 signed bits do not hold it. -/
def ofInteger (value : Int) : Value :=
  if -9223372036854775808 ≤ value ∧ value < 9223372036854775808 then int value
  else numeral (String.ofList (Json.integerChars value))

/-- The value of a JSON number. -/
def ofNumber : Number → Value
  | .integer value _ => ofInteger value
  | .double value => numeral (String.ofList value.chars)

mutual

/-- The value of a JSON value. -/
def ofJson : Json → Value
  | .null => null
  | .bool value => bool value
  | .number value => ofNumber value
  | .string value => string value
  | .array items => array (ofItems items)
  | .object entries => object (ofEntries entries)

/-- The values of the items of an array. -/
def ofItems : List Json → List Value
  | [] => []
  | item :: rest => ofJson item :: ofItems rest

/-- The values of the entries of an object. -/
def ofEntries : List (String × Json) → List (String × Value)
  | [] => []
  | (key, value) :: rest => (key, ofJson value) :: ofEntries rest

end

/-! ## text -/

/-- Computed numbers from `10^-4` up to `10^16` are positional, and only negative exponents have
a sign. -/
def floatLayout : NumberLayout where
  least := -4
  bound := 16
  showsPlus := false

/-- The text of a float; one that is no finite number is shown as null. -/
def floatChars (x : Float) : List Char :=
  match Double.ofFloat? x with
  | some x => x.charsIn floatLayout
  | none => "null".toList

/-- What stands for a character inside a string: a quote, a backslash, a tab and the ends of lines
have short forms, and other control characters are written by their code points. -/
def escapeChar (c : Char) : List Char :=
  match c with
  | '"' => ['\\', '"']
  | '\\' => ['\\', '\\']
  | '\t' => ['\\', 't']
  | '\n' => ['\\', 'n']
  | '\r' => ['\\', 'r']
  | c =>
    if c.toNat < 0x20 then ['\\', 'u', '0', '0', hexDigit (c.toNat / 16), hexDigit (c.toNat % 16)]
    else [c]

/-- A string with its quotes. -/
def stringChars (s : String) : List Char := '"' :: s.toList.flatMap escapeChar ++ ['"']

mutual

/-- The characters of the text of a value. -/
def chars : Value → List Char
  | null => "null".toList
  | bool true => "true".toList
  | bool false => "false".toList
  | int value => Json.integerChars value
  | float value => floatChars value
  | numeral text => text.toList
  | string s => stringChars s
  | array [] => ['[', ']']
  | array (item :: rest) => '[' :: item.chars ++ moreItems rest
  | object [] => ['{', '}']
  | object ((key, value) :: rest) =>
    '{' :: stringChars key ++ ':' :: value.chars ++ moreEntries rest

/-- The items after the first, and the closing bracket. -/
def moreItems : List Value → List Char
  | [] => [']']
  | item :: rest => ',' :: item.chars ++ moreItems rest

/-- The entries after the first, and the closing brace. -/
def moreEntries : List (String × Value) → List Char
  | [] => ['}']
  | (key, value) :: rest => ',' :: stringChars key ++ ':' :: value.chars ++ moreEntries rest

end

/-- The text of a value. -/
def text (value : Value) : String := String.ofList value.chars

/-- The text of a value as it stands in other texts: a string stands for itself. -/
def plainText : Value → String
  | string s => s
  | value => value.text

/-! ## numbers -/

/-- The decimal exponents of numerals are cut at this size, far beyond those of floats. -/
def exponentCut : Nat := 10000

/-- The float that a numeral stands for. -/
def numeralFloat (text : String) : Float :=
  let (negative, s) := match text.toList with
    | '-' :: rest => (true, rest)
    | rest => (false, rest)
  let whole := s.takeWhile Char.isDigit
  let (fraction, tail) := match s.dropWhile Char.isDigit with
    | '.' :: rest => (rest.takeWhile Char.isDigit, rest.dropWhile Char.isDigit)
    | rest => ([], rest)
  let value (digits : List Char) : Nat :=
    digits.foldl (fun n d => n * 10 + (d.toNat - '0'.toNat)) 0
  let exponent : Int := match tail with
    | _ :: '-' :: digits => -(min (value digits) exponentCut : Nat)
    | _ :: '+' :: digits | _ :: digits => (min (value digits) exponentCut : Nat)
    | [] => 0
  let exponent := exponent - fraction.length
  let x := Float.ofScientific (value (whole ++ fraction)) (exponent < 0) exponent.natAbs
  if negative then -x else x

/-- The float of a number. -/
def toFloat? : Value → Option Float
  | int value => some (Float.ofInt value)
  | float value => some value
  | numeral text => some (numeralFloat text)
  | _ => none

/-! ## truth -/

/-- Everything but null and false counts as true. -/
def isTrue : Value → Bool
  | null | bool false => false
  | _ => true

/-! ## order -/

/-- The place of the kind of a value in the order. -/
def rank : Value → Nat
  | null => 0
  | bool _ => 1
  | int _ | float _ | numeral _ => 2
  | string _ => 3
  | array _ => 4
  | object _ => 5

/-- The order of floats.  The two zeros are equal, and what is no number is below all others. -/
def floatOrder (x y : Float) : Ordering :=
  if x == 0 && y == 0 then .eq
  else if x.isNaN then .lt
  else if y.isNaN then .gt
  else if x < y then .lt
  else if x == y then .eq
  else .gt

/-- The order of values without parts. -/
def scalarOrder : Value → Value → Ordering
  | bool x, bool y => compare x y
  | int x, int y => compare x y
  | string x, string y => compare x y
  | x, y =>
    match x.toFloat?, y.toFloat? with
    | some x, some y => floatOrder x y
    | _, _ => compare x.rank y.rank

mutual

/-- The value with the entries of all objects sorted by key. -/
def sortKeys : Value → Value
  | array items => array (sortItems items)
  | object entries => object ((sortEntries entries).mergeSort fun a b => a.1 ≤ b.1)
  | value => value

/-- The items with the entries of all objects sorted. -/
def sortItems : List Value → List Value
  | [] => []
  | item :: rest => item.sortKeys :: sortItems rest

/-- The entries with the entries of all objects in them sorted. -/
def sortEntries : List (String × Value) → List (String × Value)
  | [] => []
  | (key, value) :: rest => (key, value.sortKeys) :: sortEntries rest

end

/-- The order of lists of keys, by the first difference. -/
def keyOrder : List String → List String → Ordering
  | [], [] => .eq
  | [], _ :: _ => .lt
  | _ :: _, [] => .gt
  | k :: ks, l :: ls => (compare k l).then (keyOrder ks ls)

mutual

/-- The order of values with sorted entries. -/
def sortedOrder : Value → Value → Ordering
  | array xs, array ys => itemOrder xs ys
  | object xs, object ys => (keyOrder (xs.map (·.1)) (ys.map (·.1))).then (entryOrder xs ys)
  | x, y => scalarOrder x y

/-- The order of lists of items, by the first difference. -/
def itemOrder : List Value → List Value → Ordering
  | [], [] => .eq
  | [], _ :: _ => .lt
  | _ :: _, [] => .gt
  | x :: xs, y :: ys => (sortedOrder x y).then (itemOrder xs ys)

/-- The order of the values of entries, by the first difference. -/
def entryOrder : List (String × Value) → List (String × Value) → Ordering
  | [], [] => .eq
  | [], _ :: _ => .lt
  | _ :: _, [] => .gt
  | (_, x) :: xs, (_, y) :: ys => (sortedOrder x y).then (entryOrder xs ys)

end

/-- The order of values. -/
def order (x y : Value) : Ordering := sortedOrder x.sortKeys y.sortKeys

end Value

end Exemplar.Filter
