import Exemplar.Filter.Access
import Exemplar.Filter.Arithmetic
import Exemplar.Json.Reader

/-!
# Exemplar.Filter.Function

The functions that filters can call.  A function is known by its name and the number of its
arguments.  Arguments are filters: some run on the input of the call, others on its parts.

Joining is adding: `join` puts its argument between the texts of the items and adds everything
up.
-/

namespace Exemplar.Filter

/-! ## kinds of values -/

namespace Value

/-- The name of the kind of a value. -/
def kindName : Value → String
  | null => "null"
  | bool _ => "boolean"
  | int _ | float _ | numeral _ => "number"
  | string _ => "string"
  | array _ => "array"
  | object _ => "object"

/-- A value is a number. -/
def isNumber (value : Value) : Bool := value.toFloat?.isSome

/-- The items of an array. -/
def asArray : Value → Except Fault (List Value)
  | array items => .ok items
  | value => .error (.wrongKind value "an array")

/-- A string. -/
def asString : Value → Except Fault String
  | string s => .ok s
  | value => .error (.wrongKind value "a string")

/-- The items of an array, or the values in an object. -/
def children (value : Value) : Stream := value.parts .items

/-- The keys of an object in order, or the positions in an array. -/
def keys : Value → Except Fault (List Value)
  | array items => .ok ((List.range items.length).map fun (i : Nat) => int i)
  | object entries => .ok (entries.map fun (key, _) => string key)
  | value => .error (.wrongKind value "an array or object")

/-! ## order -/

/-- One value comes before another, or is equal to it. -/
def isAtMost (x y : Value) : Bool := (x.order y).isLE

/-- The values in ascending order; equal values keep their order. -/
def sort (items : List Value) : List Value := items.mergeSort isAtMost

/-- The first of the least values. -/
def least? : List Value → Option Value
  | [] => none
  | first :: rest =>
    some (rest.foldl (fun best item => if item.order best = .lt then item else best) first)

/-- The last of the greatest values. -/
def greatest? : List Value → Option Value
  | [] => none
  | first :: rest =>
    some (rest.foldl (fun best item => if item.order best = .lt then best else item) first)

/-- A sorted list with the first of each run of equal values. -/
def dropRepeats : List Value → List Value
  | first :: second :: rest =>
    if first.order second = .eq then dropRepeats (first :: rest)
    else first :: dropRepeats (second :: rest)
  | items => items
termination_by items => items.length

/-! ## single values -/

/-- The length: of a list or text the number of parts, of a number its size. -/
def length : Value → Outcome
  | null => .ok (int 0)
  | int n => .ok (wrap n.natAbs)
  | float x => .ok (float x.abs)
  | numeral text => .ok (float (numeralFloat text).abs)
  | string s => .ok (int s.length)
  | array items => .ok (int items.length)
  | object entries => .ok (int entries.length)
  | bool b => .error (.wrongKind (bool b) "a value with a length")

/-- An index or key is there. -/
def has (value key : Value) : Outcome :=
  match value, key with
  | array items, int index =>
    if 0 ≤ index then .ok (bool (index < items.length)) else .error (.wrongIndex value key)
  | object entries, string key => .ok (bool (Json.entry? entries key).isSome)
  | _, _ => .error (.wrongIndex value key)

/-- The entries of an object, or the items of an array, as objects of key and value. -/
def toEntries (value : Value) : Outcome := do
  let items ← (← value.keys).mapM fun key => do
    let item ← (value.parts (.index key)).headD (.ok null)
    return object [("key", key), ("value", item)]
  return array items

/-- Everything of a stream added up, from null on. -/
def addAll (outputs : Stream) : Outcome := do
  (← outputs.collect).foldlM (calculate .add) null

/-- The text of a value, as a value. -/
def toText (value : Value) : Value := string value.plainText

/-- The texts of the items added up with a value between them. -/
def join (value separator : Value) : Outcome := do
  match ← value.children.collect with
  | [] => return string ""
  | first :: rest =>
    rest.foldlM (fun done item => do (← done.calculate .add separator).calculate .add item.toText)
      first.toText

/-- The parts of a string between separators. -/
def split (value separator : Value) : Outcome := do
  return array ((splitText (← value.asString) (← separator.asString)).map string)

/-! ## ranges -/

/-- The values from one on, each with the step added, as long as they pass a test.  The first
argument bounds their number, and the last holds those so far, last first. -/
def progression (step : Value) (test : Value → Bool) : Nat → Value → Stream → Stream
  | 0, _, done => (.error .unbounded :: done).reverse
  | fuel + 1, value, done =>
    if test value then
      match value.calculate .add step with
      | .ok next => progression step test fuel next (.ok value :: done)
      | .error fault => (.error fault :: .ok value :: done).reverse
    else done.reverse

/-- The greatest number of values in a range. -/
def rangeLimit : Nat := 10000000

/-- The values from a start on, by a step, before a stop: below it if the step is positive, above
it if the step is negative, and other than it if the step is zero. -/
def range (start stop step : Value) : Stream :=
  let direction := step.order (int 0)
  let test (value : Value) : Bool := match direction with
    | .gt => value.order stop = .lt
    | .lt => value.order stop = .gt
    | .eq => value.order stop ≠ .eq
  progression step test rangeLimit start []

end Value

/-! ## functions -/

/-- A function. -/
structure Function where
  name : String
  arity : Nat
  /-- The outputs for the given arguments and input. -/
  apply : List Closure → Closure

namespace Function

/-- A function without arguments. -/
def simple (name : String) (f : Value → Outcome) : Function where
  name := name
  arity := 0
  apply _ input := .ofOutcome (f input)

/-- A function of one argument, which runs on the input of the call. -/
def unary (name : String) (f : Value → Value → Outcome) : Function where
  name := name
  arity := 1
  apply arguments input := arguments.flatMap fun argument =>
    (argument input).bind fun value => .ofOutcome (f input value)

/-- A function without arguments that keeps some values and drops the others. -/
def keep (name : String) (test : Value → Bool) : Function where
  name := name
  arity := 0
  apply _ input := if test input then .one input else []

/-- A function that is told how to use its arguments. -/
def special (name : String) (arity : Nat) (apply : List Closure → Closure) : Function where
  name := name
  arity := arity
  apply := apply

/-- The outputs of a filter as one array. -/
def arrayOf (outputs : Stream) : Stream := .ofOutcome (outputs.collect.map .array)

/-- The input, once for each true output of a test. -/
def select (test : Closure) (input : Value) : Stream :=
  (test input).bind fun value => if value.isTrue then .one input else []

/-- The first output of a filter as a fault, or the input if there is none. -/
def raise (f : Closure) (input : Value) : Stream :=
  match f input with
  | [] => .one input
  | .ok value :: _ => .fail (.raised value)
  | .error fault :: _ => .fail fault

/-- The ranges between all limits. -/
def ranges : List Stream → Stream
  | [stops] => stops.bind fun stop => Value.range (.int 0) stop (.int 1)
  | [starts, stops] =>
    starts.bind fun start => stops.bind fun stop => Value.range start stop (.int 1)
  | [starts, stops, steps] =>
    starts.bind fun start => stops.bind fun stop => steps.bind fun step =>
      Value.range start stop step
  | _ => []

/-- All functions. -/
def all : List Function := [
  special "empty" 0 fun _ _ => [],
  simple "null" fun _ => .ok .null,
  simple "true" fun _ => .ok (.bool true),
  simple "false" fun _ => .ok (.bool false),
  simple "not" fun input => .ok (.bool !input.isTrue),
  simple "length" Value.length,
  simple "type" fun input => .ok (.string input.kindName),
  simple "keys" fun input => do return .array (Value.sort (← input.keys)),
  simple "keys_unsorted" fun input => do return .array (← input.keys),
  simple "to_entries" Value.toEntries,
  simple "tojson" fun input => .ok (.string input.text),
  simple "tostring" fun input => .ok input.toText,
  simple "sort" fun input => do return .array (Value.sort (← input.asArray)),
  simple "unique" fun input => do
    return .array (Value.dropRepeats (Value.sort (← input.asArray))),
  simple "min" fun input => do return (Value.least? (← input.asArray)).getD .null,
  simple "max" fun input => do return (Value.greatest? (← input.asArray)).getD .null,
  simple "reverse" fun input => do return .array (← input.asArray).reverse,
  simple "add" fun input => Value.addAll input.children,
  simple "error" fun input => .error (.raised input),
  keep "values" fun input => input.rank ≠ 0,
  keep "nulls" fun input => input.rank = 0,
  keep "booleans" fun input => input.rank = 1,
  keep "numbers" Value.isNumber,
  keep "strings" fun input => input.rank = 3,
  keep "arrays" fun input => input.rank = 4,
  keep "objects" fun input => input.rank = 5,
  keep "iterables" fun input => 4 ≤ input.rank,
  keep "scalars" fun input => input.rank < 4,
  unary "has" Value.has,
  unary "split" Value.split,
  unary "join" Value.join,
  special "error" 1 fun arguments input => arguments.flatMap fun f => raise f input,
  special "recurse" 0 fun _ input => input.withParts.map .ok,
  special "select" 1 fun arguments input => arguments.flatMap fun test => select test input,
  special "map" 1 fun arguments input => arguments.flatMap fun f => arrayOf (input.children.bind f),
  special "add" 1 fun arguments input => arguments.map fun f => Value.addAll (f input),
  special "range" 1 fun arguments input => ranges (arguments.map (· input)),
  special "range" 2 fun arguments input => ranges (arguments.map (· input)),
  special "range" 3 fun arguments input => ranges (arguments.map (· input))]

/-- The function of a name and a number of arguments. -/
def find? (name : String) (arity : Nat) : Option Function :=
  all.find? fun f => f.name = name && f.arity = arity

end Function

end Exemplar.Filter
