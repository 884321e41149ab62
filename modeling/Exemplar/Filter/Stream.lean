import Exemplar.Filter.Value

/-!
# Exemplar.Filter.Stream

The outputs of a filter: values and faults in order.  A filter may have no output, or many.  A
fault takes the place of one output and passes through everything that is done with it.
-/

namespace Exemplar.Filter

/-- Why a filter has no value where it should have one. -/
inductive Fault where
  | raised (value : Value)
  | wrongKind (value : Value) (wanted : String)
  | wrongIndex (value index : Value)
  | wrongOperands (left : Value) (sign : String) (right : Value)
  | unbounded

/-- The wording of a fault. -/
def Fault.message : Fault → String
  | raised value => value.plainText
  | wrongKind value wanted => value.text ++ " is not " ++ wanted
  | wrongIndex value index => "cannot index " ++ value.text ++ " with " ++ index.text
  | wrongOperands left sign right =>
    "cannot calculate " ++ left.text ++ " " ++ sign ++ " " ++ right.text
  | unbounded => "the range has no end"

/-- A value, or a fault in its place. -/
abbrev Outcome := Except Fault Value

/-- The outputs of a filter. -/
abbrev Stream := List Outcome

/-- A filter that is given to a function: outputs for every input. -/
abbrev Closure := Value → Stream

namespace Stream

/-- One output. -/
def one (value : Value) : Stream := [.ok value]

/-- A fault and nothing else. -/
def fail (fault : Fault) : Stream := [.error fault]

/-- One output, unless there is a fault. -/
def ofOutcome (outcome : Outcome) : Stream := [outcome]

/-- The outputs of a filter for each output of another. -/
def bind (outputs : Stream) (f : Closure) : Stream :=
  outputs.flatMap fun outcome => match outcome with
    | .ok value => f value
    | .error fault => [.error fault]

/-- All pairs of outputs, those with the same first one together. -/
def pairs (left right : Stream) (f : Value → Value → Outcome) : Stream :=
  left.flatMap fun x => right.map fun y => do f (← x) (← y)

/-- The output is a value. -/
def isValue : Outcome → Bool
  | .ok _ => true
  | .error _ => false

/-- The outputs without the faults. -/
def valuesOnly (outputs : Stream) : Stream := outputs.filter isValue

/-- The outputs before the first fault. -/
def untilFault (outputs : Stream) : Stream := outputs.takeWhile isValue

/-- All outputs as one list; the first fault counts. -/
def collect (outputs : Stream) : Except Fault (List Value) := outputs.mapM id

/-- The outputs that are true, faults included, or else the outputs of another filter. -/
def orElse (outputs other : Stream) : Stream :=
  let good := outputs.filter fun outcome => match outcome with
    | .ok value => value.isTrue
    | .error _ => true
  if good.isEmpty then other else good

end Stream

end Exemplar.Filter
