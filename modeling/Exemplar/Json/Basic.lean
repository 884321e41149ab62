import Exemplar.Decimal.Reading

/-!
# Exemplar.Json.Basic

JSON values.  Objects keep their entries in order; an entry put under a key that is present
keeps that key's place (`insertEntry`).  Numbers are integers of 64 bits, signed or unsigned, or
finite doubles, and `1` and `1.0` are different values.
-/

namespace Exemplar

/-- A number as JSON text distinguishes it. -/
inductive Number where
  | integer (value : Int) (fits : -9223372036854775808 ≤ value ∧ value < 18446744073709551616)
  | double (value : Double)
deriving DecidableEq

/-- The integer as a number, if 64 bits hold it. -/
def Number.ofInt? (value : Int) : Option Number :=
  if h : -9223372036854775808 ≤ value ∧ value < 18446744073709551616 then some (.integer value h)
  else none

/-- A JSON value. -/
inductive Json where
  | null
  | bool (value : Bool)
  | number (value : Number)
  | string (value : String)
  | array (items : List Json)
  | object (entries : List (String × Json))

namespace Json

instance : Inhabited Json := ⟨null⟩

/-- An integer value; one that 64 bits cannot hold becomes a double. -/
def ofInt (value : Int) : Json :=
  match Number.ofInt? value with
  | some n => number n
  | none =>
    match Double.ofDecimal? (value < 0) value.natAbs 0 with
    | some x => number (.double x)
    | none => null

/-- The integer zero. -/
def zero : Json := number (.integer 0 (by decide))

/-- The double zero. -/
def doubleZero : Json := number (.double ⟨0, by decide⟩)

/-! ## equality -/

mutual

/-- Decides equality of values. -/
def decEq : (a b : Json) → Decidable (a = b)
  | null, null => isTrue rfl
  | bool m, bool n => if h : m = n then isTrue (by rw [h]) else isFalse (by simpa using h)
  | number m, number n => if h : m = n then isTrue (by rw [h]) else isFalse (by simpa using h)
  | string m, string n => if h : m = n then isTrue (by rw [h]) else isFalse (by simpa using h)
  | array as, array bs =>
    match decEqItems as bs with
    | isTrue h => isTrue (by rw [h])
    | isFalse h => isFalse (by simpa using h)
  | object as, object bs =>
    match decEqEntries as bs with
    | isTrue h => isTrue (by rw [h])
    | isFalse h => isFalse (by simpa using h)
  | null, bool _ | null, number _ | null, string _ | null, array _ | null, object _
  | bool _, null | bool _, number _ | bool _, string _ | bool _, array _ | bool _, object _
  | number _, null | number _, bool _ | number _, string _ | number _, array _
  | number _, object _ | string _, null | string _, bool _ | string _, number _
  | string _, array _ | string _, object _ | array _, null | array _, bool _
  | array _, number _ | array _, string _ | array _, object _ | object _, null
  | object _, bool _ | object _, number _ | object _, string _ | object _, array _ =>
    isFalse (by simp)

/-- Decides equality of lists of items. -/
def decEqItems : (as bs : List Json) → Decidable (as = bs)
  | [], [] => isTrue rfl
  | a :: as, b :: bs =>
    match decEq a b, decEqItems as bs with
    | isTrue h, isTrue h' => isTrue (by rw [h, h'])
    | isFalse h, _ => isFalse (by simp [h])
    | _, isFalse h' => isFalse (by simp [h'])
  | [], _ :: _ | _ :: _, [] => isFalse (by simp)

/-- Decides equality of lists of entries. -/
def decEqEntries : (as bs : List (String × Json)) → Decidable (as = bs)
  | [], [] => isTrue rfl
  | (k, a) :: as, (l, b) :: bs =>
    if h : k = l then
      match decEq a b, decEqEntries as bs with
      | isTrue h', isTrue h'' => isTrue (by rw [h, h', h''])
      | isFalse h', _ => isFalse (by simp [h'])
      | _, isFalse h'' => isFalse (by simp [h''])
    else isFalse (by simp [h])
  | [], _ :: _ | _ :: _, [] => isFalse (by simp)

end

instance : DecidableEq Json := decEq

/-! ## entries -/

/-- Puts a value under a key: in place of the value there, or at the end. -/
def insertEntry {α : Type} (key : String) (value : α) : List (String × α) → List (String × α)
  | [] => [(key, value)]
  | (k, v) :: rest => if k = key then (key, value) :: rest else (k, v) :: insertEntry key value rest

/-- The value under a key. -/
def entry? {α : Type} (entries : List (String × α)) (key : String) : Option α :=
  (entries.find? (·.1 = key)).map (·.2)

/-! ## measures -/

mutual

/-- How deeply arrays and objects are nested: 0 for a scalar, 1 for `[]` and `{}`. -/
def nesting : Json → Nat
  | array items => 1 + nestingItems items
  | object entries => 1 + nestingEntries entries
  | _ => 0

/-- The deepest nesting among the items. -/
def nestingItems : List Json → Nat
  | [] => 0
  | item :: rest => max item.nesting (nestingItems rest)

/-- The deepest nesting among the values of the entries. -/
def nestingEntries : List (String × Json) → Nat
  | [] => 0
  | (_, value) :: rest => max value.nesting (nestingEntries rest)

end

end Json

end Exemplar
