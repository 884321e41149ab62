import Exemplar.Filter.Function

/-!
# Exemplar.Filter.Term

Filters as terms, and what they do.  A filter turns one input into any number of outputs.  Where
two filters meet in an operator, all pairs of their outputs count, and the left one changes
last.

* `Term.run` — the outputs for an input;
* `Term.undefined` — the names in a filter that mean nothing.
-/

namespace Exemplar.Filter

/-! ## terms -/

/-- Comparisons of two values. -/
inductive Comparison where
  | eq
  | ne
  | lt
  | le
  | gt
  | ge
deriving DecidableEq

/-- A comparison holds for two values that stand in the given order. -/
def Comparison.holds : Comparison → Ordering → Bool
  | eq, o => o.isEq
  | ne, o => o.isNe
  | lt, o => o.isLT
  | le, o => o.isLE
  | gt, o => o.isGT
  | ge, o => o.isGE

/-- Operators between two filters. -/
inductive Operator where
  | pipe
  | comma
  | alternative
  | disjunction
  | conjunction
  | comparison (c : Comparison)
  | arithmetic (op : Arithmetic)
deriving DecidableEq

mutual

/-- A filter. -/
inductive Term where
  | identity
  | literal (value : Value)
  | parts
  | array (items : Term)
  | entry (key value : Term)
  /-- An entry with the part of the input that is under its key. -/
  | shortEntry (key : Term)
  | negation (term : Term)
  | binary (op : Operator) (left right : Term)
  | conditional (test yes no : Term)
  | optional (term : Term)
  | path (base : Term) (steps : Steps)
  | call (name : String) (arguments : Arguments)
  | reference (name : String)

/-- The arguments of a call. -/
inductive Arguments where
  | none
  | more (first : Term) (rest : Arguments)

/-- One step from a value to its parts. -/
inductive Step where
  | items
  | index (key : Term)
  | sliceFrom (first : Term)
  | sliceTo (last : Term)
  | slice (first last : Term)

/-- Steps in order; a step that is optional has no outputs where it fails. -/
inductive Steps where
  | none
  | more (step : Step) (isOptional : Bool) (rest : Steps)

end

/-- The number of arguments. -/
def Arguments.count : Arguments → Nat
  | none => 0
  | more _ rest => rest.count + 1

/-- Arguments in order. -/
def Arguments.ofList : List Term → Arguments
  | [] => none
  | first :: rest => more first (ofList rest)

/-- Steps in order. -/
def Steps.ofList : List (Step × Bool) → Steps
  | [] => none
  | (step, isOptional) :: rest => more step isOptional (ofList rest)

/-! ## names -/

/-- A name that means nothing. -/
inductive Undefined where
  | function (name : String) (arity : Nat)
  | reference (name : String)
deriving DecidableEq

/-- The wording for a name that means nothing in the text of a filter. -/
def Undefined.message (text : String) : Undefined → String
  | function name arity => s!"jq: undefined `{name}` (Filter({arity})) in `{text}`"
  | reference name => s!"jq: undefined `{name}` (Var) in `{text}`"

mutual

/-- The names in a filter that mean nothing, in order; those of a conditional come from its last
part first, and those in its test are before those in what follows the test. -/
def Term.undefined : Term → List Undefined
  | .identity | .literal _ | .parts => []
  | .array term | .negation term | .optional term | .shortEntry term => term.undefined
  | .entry left right | .binary _ left right => left.undefined ++ right.undefined
  | .conditional test yes no => no.undefined ++ test.undefined ++ yes.undefined
  | .path base steps => base.undefined ++ steps.undefined
  | .call name arguments =>
    arguments.undefined ++
      if (Function.find? name arguments.count).isSome then [] else [.function name arguments.count]
  | .reference name => [.reference name]

/-- The names in arguments that mean nothing. -/
def Arguments.undefined : Arguments → List Undefined
  | .none => []
  | .more first rest => first.undefined ++ rest.undefined

/-- The names in a step that mean nothing. -/
def Step.undefined : Step → List Undefined
  | .items => []
  | .index term | .sliceFrom term | .sliceTo term => term.undefined
  | .slice first last => first.undefined ++ last.undefined

/-- The names in steps that mean nothing. -/
def Steps.undefined : Steps → List Undefined
  | .none => []
  | .more step _ rest => step.undefined ++ rest.undefined

end

/-! ## outputs -/

/-- The outputs of an operator, given the filters on both sides. -/
def Operator.run (op : Operator) (left right : Closure) (input : Value) : Stream :=
  match op with
  | pipe => (left input).bind right
  | comma => left input ++ right input
  | alternative => (left input).orElse (right input)
  | disjunction => (left input).bind fun x =>
      if x.isTrue then .one (.bool true)
      else (right input).bind fun y => .one (.bool y.isTrue)
  | conjunction => (left input).bind fun x =>
      if x.isTrue then (right input).bind fun y => .one (.bool y.isTrue)
      else .one (.bool false)
  | comparison c => (left input).pairs (right input) fun x y => .ok (.bool (c.holds (x.order y)))
  | arithmetic op => (left input).pairs (right input) (Value.calculate op)

/-- An object of one entry; only strings are keys. -/
def singleEntry (key value : Value) : Outcome := do
  return .object [(← key.asString, value)]

mutual

/-- The outputs of a filter for an input. -/
def Term.run : Term → Closure
  | .identity, input => .one input
  | .literal value, _ => .one value
  | .parts, input => input.withParts.map .ok
  | .array items, input => Function.arrayOf (items.run input)
  | .entry key value, input => (key.run input).pairs (value.run input) singleEntry
  | .shortEntry key, input =>
    (key.run input).pairs ((key.run input).bind fun key => input.parts (.index key)) singleEntry
  | .negation term, input => (term.run input).bind fun value => .ofOutcome value.negate
  | .binary op left right, input => op.run left.run right.run input
  | .conditional test yes no, input => (test.run input).bind fun value =>
      if value.isTrue then yes.run input else no.run input
  | .optional term, input => (term.run input).untilFault
  | .path base steps, input => (base.run input).bind fun value =>
      (steps.resolve input).flatMap fun outcome => match outcome with
        | .ok accesses => follow accesses value
        | .error fault => [.error fault]
  | .call name arguments, input =>
    match Function.find? name arguments.count with
    | some f => f.apply arguments.closures input
    | none => []
  | .reference _, _ => []

/-- The arguments as filters. -/
def Arguments.closures : Arguments → List Closure
  | .none => []
  | .more first rest => first.run :: rest.closures

/-- The ways to parts that a step means for an input. -/
def Step.resolve : Step → Value → List (Except Fault Access)
  | .items, _ => [.ok .items]
  | .index key, input => (key.run input).map fun key => do return .index (← key)
  | .sliceFrom first, input => (first.run input).map fun first => do
      return .slice (some (← first)) none
  | .sliceTo last, input => (last.run input).map fun last => do
      return .slice none (some (← last))
  | .slice first last, input => (first.run input).flatMap fun first =>
      (last.run input).map fun last => do return .slice (some (← first)) (some (← last))

/-- All sequences of ways to parts that steps mean for an input. -/
def Steps.resolve : Steps → Value → List (Except Fault (List (Access × Bool)))
  | .none, _ => [.ok []]
  | .more step isOptional rest, input => (step.resolve input).flatMap fun access =>
      match access with
      | .error fault => [.error fault]
      | .ok access => (rest.resolve input).map fun accesses => do
          return (access, isOptional) :: (← accesses)

end

end Exemplar.Filter
