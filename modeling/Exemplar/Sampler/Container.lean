import Exemplar.ClassTable.Inheritance

/-!
# Exemplar.Sampler.Container

Library classes that are sampled by what they contain rather than by their fields: sequences,
optional values, class tokens and maps.  A class is one of them by what it inherits from and by
the number of its type parameters.
-/

namespace Exemplar

/-- The families of library classes with a sample of their own. -/
inductive Container where
  | sequence
  | optional
  | classToken
  | map
deriving DecidableEq

namespace ClassTable

/-- Names of library classes begin like this. -/
def libraryOrigin : String := "java."

/-- The family of a class, by its name and number of type parameters. -/
def containerOf? (table : ClassTable) (name : String) (arity : Nat) : Option Container :=
  let isA (base : String) : Bool := table.reaches name base
  if ¬ libraryOrigin.toList.isPrefixOf name.toList then none
  else if arity = 1 then
    if isA "java.lang.Iterable" ∨ isA "java.util.Collection" then some .sequence
    else if isA "java.util.Optional" then some .optional
    else if isA "java.lang.Class" then some .classToken
    else none
  else if arity = 2 ∧ isA "java.util.Map" then some .map
  else none

end ClassTable

end Exemplar
