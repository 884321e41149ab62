/-!
# Exemplar.Json.Path

Where in a JSON value something stands: the keys and indexes that lead to it from the root.
-/

namespace Exemplar

/-- One step from a value to one of its parts. -/
inductive PathStep where
  | key (name : String)
  | index (position : Nat)
  /-- Between the entries of an object. -/
  | unknown
deriving DecidableEq

/-- The steps that lead to a part, the last one first. -/
abbrev Path := List PathStep

namespace Path

/-- The text of a step, with a point before a name unless it comes first. -/
def stepText (isFirst : Bool) (step : PathStep) : String :=
  let point := if isFirst then "" else "."
  match step with
  | .index position => s!"[{position}]"
  | .key name => point ++ name
  | .unknown => point ++ "?"

/-- The text of a path, `classes[0].fields[2].type`; the root is a point. -/
def text (path : Path) : String :=
  match path.reverse with
  | [] => "."
  | first :: rest => stepText true first ++ String.join (rest.map (stepText false))

end Path

end Exemplar
