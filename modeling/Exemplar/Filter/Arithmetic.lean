import Exemplar.Filter.Stream

/-!
# Exemplar.Filter.Arithmetic

Calculation with values.  Whole numbers stay whole under addition, subtraction and
multiplication, and wrap around at 64 signed bits; all else is calculated with floats.  Sums and
products also exist for other kinds of values:

* null adds nothing, strings and arrays are joined, and the entries of objects are put into each
  other;
* a string is repeated, and objects are merged all the way down;
* from an array the items of another are taken away, and a string is split by another.
-/

namespace Exemplar.Filter

/-- The ways to calculate. -/
inductive Arithmetic where
  | add
  | sub
  | mul
  | div
  | rem
deriving DecidableEq

/-- The sign for a way to calculate. -/
def Arithmetic.sign : Arithmetic → String
  | add => "+"
  | sub => "-"
  | mul => "*"
  | div => "/"
  | rem => "%"

namespace Value

/-- A whole number, brought into the range of 64 signed bits. -/
def wrap (value : Int) : Value := int (value.bmod 18446744073709551616)

/-! ## texts -/

/-- The parts of a text between the occurrences of a separator that is not empty.  The part read
so far is given last character first. -/
def splitChars (separator : List Char) : Nat → List Char → List Char → List (List Char)
  | 0, part, _ => [part.reverse]
  | _ + 1, part, [] => [part.reverse]
  | fuel + 1, part, c :: rest =>
    if separator.isPrefixOf (c :: rest) then
      part.reverse :: splitChars separator fuel [] ((c :: rest).drop separator.length)
    else splitChars separator fuel (c :: part) rest

/-- The parts of a text between the occurrences of a separator; the empty separator stands
between any two characters, and the empty text has no parts. -/
def splitText (text separator : String) : List String :=
  if text.isEmpty then []
  else if separator.isEmpty then text.toList.map (·.toString)
  else (splitChars separator.toList (text.length + 1) [] text.toList).map String.ofList

/-! ## merging -/

mutual

/-- A value put in the place of another; an object is merged into an object. -/
def mergeInto (old : Option Value) : Value → Value
  | object new =>
    match old with
    | some (object entries) => object (mergeEntries entries new)
    | _ => object new
  | value => value

/-- Entries merged into others. -/
def mergeEntries (entries : List (String × Value)) :
    List (String × Value) → List (String × Value)
  | [] => entries
  | (key, value) :: rest =>
    mergeEntries (Json.insertEntry key (mergeInto (Json.entry? entries key) value) entries) rest

end

/-- Entries put into others, in order. -/
def putEntries (entries new : List (String × Value)) : List (String × Value) :=
  new.foldl (fun done (key, value) => Json.insertEntry key value done) entries

/-! ## calculation -/

/-- The remainder of a division whose quotient is cut to a whole number, without rounding; it has
the sign of the dividend. -/
def floatRemainder (x y : Float) : Float :=
  match Double.ofFloat? x, Double.ofFloat? y with
  | some a, some b =>
    let q := min a.magnitude.q b.magnitude.q
    let scaled (m : Magnitude) : Nat := m.m * Nat.pow 2 (m.q - q).toNat
    if scaled b.magnitude = 0 then 0 / 0
    else
      let size := (Float.ofNat (scaled a.magnitude % scaled b.magnitude)).scaleB q
      if a.isNegative then -size else size
  | some _, none => if y.isNaN then y else x
  | none, _ => 0 / 0

/-- Calculates with floats. -/
def calculateFloats : Arithmetic → Float → Float → Value
  | .add, x, y => float (x + y)
  | .sub, x, y => float (x - y)
  | .mul, x, y => float (x * y)
  | .div, x, y => float (x / y)
  | .rem, x, y => float (floatRemainder x y)

/-- Calculates with values. -/
def calculate (op : Arithmetic) (left right : Value) : Outcome :=
  match op, left, right with
  | .add, null, value | .add, value, null => .ok value
  | .add, int x, int y => .ok (wrap (x + y))
  | .sub, int x, int y => .ok (wrap (x - y))
  | .mul, int x, int y => .ok (wrap (x * y))
  | .rem, int x, int y =>
    if y = 0 then .error (.wrongOperands left op.sign right) else .ok (int (x.tmod y))
  | .add, string s, string t => .ok (string (s ++ t))
  | .add, array xs, array ys => .ok (array (xs ++ ys))
  | .add, object xs, object ys => .ok (object (putEntries xs ys))
  | .sub, array xs, array ys => .ok (array (xs.filter fun x => ys.all fun y => x.order y ≠ .eq))
  | .mul, string s, int n | .mul, int n, string s =>
    .ok (if 0 < n then string (String.join (List.replicate n.toNat s)) else null)
  | .mul, object xs, object ys => .ok (object (mergeEntries xs ys))
  | .div, string s, string t => .ok (array ((splitText s t).map string))
  | op, left, right =>
    match left.toFloat?, right.toFloat? with
    | some x, some y => .ok (calculateFloats op x y)
    | _, _ => .error (.wrongOperands left op.sign right)

/-- The number with the other sign. -/
def negate (value : Value) : Outcome :=
  match value with
  | int x => .ok (wrap (-x))
  | value =>
    match value.toFloat? with
    | some x => .ok (float (-x))
    | none => .error (.wrongKind value "a number")

end Value

end Exemplar.Filter
