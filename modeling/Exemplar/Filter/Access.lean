import Exemplar.Filter.Stream

/-!
# Exemplar.Filter.Access

The parts of a value: one by an index or a key, a slice, or all of them.  An index counts from
the end when it is negative.  What an array or object does not have is null; only arrays and
objects have parts, and only arrays and strings have slices.
-/

namespace Exemplar.Filter

/-- A way to parts of a value. -/
inductive Access where
  | index (key : Value)
  | slice (first last : Option Value)
  | items

namespace Value

/-- The position that an index means in a list of the given length. -/
def position? (length : Nat) (index : Int) : Option Nat :=
  let index := if index < 0 then index + length else index
  if 0 ≤ index ∧ index < length then some index.toNat else none

/-- The position that a bound of a slice means, cut to the list. -/
def boundPosition (length : Nat) (bound : Int) : Nat :=
  min (if bound < 0 then bound + length else bound).toNat length

/-- The bound of a slice; a bound that is not given is the default. -/
def readBound (length default : Nat) : Option Value → Except Fault Nat
  | none => .ok default
  | some (int bound) => .ok (boundPosition length bound)
  | some bound => .error (.wrongKind bound "a whole number")

/-- The part of a list between two bounds. -/
def sliceOf {α : Type} (items : List α) (first last : Option Value) : Except Fault (List α) := do
  let first ← readBound items.length 0 first
  let last ← readBound items.length items.length last
  return (items.drop first).take (last - first)

/-- The parts of a value in some way. -/
def parts (value : Value) : Access → Stream
  | .index key =>
    match value, key with
    | array items, int index =>
      .one (((position? items.length index).bind (items[·]?)).getD null)
    | object entries, string key => .one ((Json.entry? entries key).getD null)
    | array _, key | object _, key => .fail (.wrongIndex value key)
    | _, _ => .fail (.wrongKind value "an array or object")
  | .slice first last =>
    match value with
    | array items => .ofOutcome ((sliceOf items first last).map array)
    | string s => .ofOutcome ((sliceOf s.toList first last).map fun s => string (String.ofList s))
    | _ => .fail (.wrongKind value "an array or string")
  | .items =>
    match value with
    | array items => items.map .ok
    | object entries => entries.map fun (_, item) => .ok item
    | _ => .fail (.wrongKind value "an array or object")

mutual

/-- A value, and all parts of it on all levels, each before its own parts. -/
def withParts : Value → List Value
  | array items => array items :: allItems items
  | object entries => object entries :: allEntries entries
  | value => [value]

/-- The items of an array with all their parts. -/
def allItems : List Value → List Value
  | [] => []
  | item :: rest => item.withParts ++ allItems rest

/-- The values of the entries of an object with all their parts. -/
def allEntries : List (String × Value) → List Value
  | [] => []
  | (_, value) :: rest => value.withParts ++ allEntries rest

end

end Value

/-- The parts that are reached by several steps.  A step that may fail has no outputs where it
fails. -/
def follow : List (Access × Bool) → Closure
  | [], value => .one value
  | (access, mayFail) :: rest, value =>
    let parts := value.parts access
    (if mayFail then Stream.valuesOnly parts else parts).bind (follow rest)

end Exemplar.Filter
