import Exemplar.Environment
import Exemplar.Registry.Basic
import Exemplar.Sampler.Container

/-!
# Exemplar.Sampler.Basic

The sample of a type: one JSON value that shows its form, or no value.

* a primitive type, and a class with a rule in the registry, has the value of the rule;
* an array is a list of one item;
* a class that nothing is known of is an empty object, and an enumeration its first constant;
* a library container is sampled by what it contains;
* a type parameter is what it is bound to;
* any other class is an object with an entry for each field that has a value.

Every step into a part uses up one unit of depth, and without depth there is no value: the
containers say what then stands in its place.  `Sampler.sampleAt` is the recursion; the other
functions are given the step into a part as an argument.
-/

namespace Exemplar

/-- What is shown of a class besides its fields. -/
structure Visibility where
  constants : Bool
  qualifiedNames : Bool

namespace Visibility

/-- Everything is shown. -/
def full : Visibility := ⟨true, true⟩

/-- Constants are not shown, and classes have only simple names. -/
def plain : Visibility := ⟨false, false⟩

end Visibility

/-- A source of samples. -/
structure Sampler where
  table : ClassTable
  visibility : Visibility

/-- The greatest depth. -/
def maxDepth : Nat := 200

/-- The key of the entry in the sample of a map. -/
def mapKey : String := " "

/-- A computation of a sample; the counters of the registry may advance. -/
abbrev Sampling := StateM Registry (Option Json)

namespace Sampler

/-! ## environments -/

/-- A type argument as it is outside of the class that it is given to; a parameter without a
binding there is nothing. -/
def concrete (env : Environment Ty) : Ty → Option Ty
  | .param name => env.resolve name
  | ty => some ty

/-- What the type parameters of a class stand for, given its arguments: nothing, unless there is
an argument for each. -/
def argumentsIn (info : ClassInfo) (args : List Ty) (env : Environment Ty) :
    List (String × Option Ty) :=
  match info.givenArguments args with
  | some args => info.typeParameters.zip (args.map (concrete env))
  | none => info.typeParameters.map (·, none)

/-- The environment inside a type: the parameters of its class over those outside. -/
def environmentFor (s : Sampler) (ty : Ty) (env : Environment Ty) : Environment Ty :=
  match s.table.classOf? ty with
  | none => env
  | some info =>
    (argumentsIn info ty.arguments env).foldl (fun inner (name, ty) => inner.push name ty) env

/-! ## class tokens -/

/-- The name of the outermost class in a class token. -/
def outermostName (s : Sampler) (info : ClassInfo) : String :=
  if s.visibility.qualifiedNames then info.name else info.simpleName

/-- The name of a type in a class token: for a nested class the name of the outermost class and
the simple names of the others, `example.Outer$Middle$Inner`. -/
def binaryName (s : Sampler) (ty : Ty) : String :=
  match s.table.classOf? ty with
  | none => ty.text
  | some info =>
    match (s.table.enclosingClasses info).reverse with
    | [] => ty.text
    | outermost :: middle =>
      s.outermostName outermost
        ++ String.join ((middle ++ [info]).map fun inner => "$" ++ inner.simpleName)

/-- The sample of a class token for a type. -/
def sampleToken (s : Sampler) (env : Environment Ty) (target : Ty) : Option Json :=
  match target with
  | .wildcard | .bounded _ => none
  | target => some (.string (s.binaryName ((concrete env target).getD target)))

/-! ## containers -/

/-- The list of an item, empty when the item has no value. -/
def listOf (item : Option Json) : Json := .array item.toList

/-- The sample of a container with the given arguments. -/
def sampleContainer (s : Sampler) (step : Ty → Sampling) (env : Environment Ty) :
    Container → List Ty → Sampling
  | .sequence, [item] => return some (listOf (← step item))
  | .sequence, _ => return some (.array [])
  | .optional, [inner] => return some ((← step inner).getD .null)
  | .optional, _ => return some .null
  | .classToken, [target] => return s.sampleToken env target
  | .classToken, _ => return none
  | .map, [_, value] => return some (.object [(mapKey, (← step value).getD .null)])
  | .map, _ => return some (.object [])

/-! ## fields -/

/-- The value of a field: its initializer, or else the sample of its type. -/
def sampleField (step : Ty → Sampling) (field : FieldInfo Ty) : Sampling :=
  match field.initializer with
  | none | some .null => step field.type
  | some value => return some value

/-- The entries for fields, put into an object in order; nothing if a field is static. -/
def sampleFields (step : Ty → Sampling) :
    List (FieldInfo Ty) → List (String × Json) → StateM Registry (Option (List (String × Json)))
  | [], entries => return some entries
  | field :: rest, entries => do
    if field.isStatic then return none
    match ← sampleField step field with
    | none => sampleFields step rest entries
    | some value => sampleFields step rest (Json.insertEntry field.key value entries)

/-- The object for a class.  A class without fields has none, except as a root. -/
def sampleObject (step : Ty → Sampling) (isRoot : Bool) (fields : List (FieldInfo Ty)) :
    Sampling := do
  if fields.isEmpty ∧ ¬ isRoot then return none
  return (← sampleFields step fields []).map .object

/-! ## types -/

/-- The first constant of an enumeration, if it is shown. -/
def firstConstant? (s : Sampler) (info : ClassInfo) : Option String :=
  if s.visibility.constants then info.constants.head? else none

/-- The sample of a class that has no rule in the registry. -/
def sampleClass (s : Sampler) (step : Ty → Sampling) (isRoot : Bool) (env : Environment Ty)
    (name : String) (args : List Ty) : Sampling :=
  match s.table.find? name with
  | none => return some (.object [])
  | some info =>
    match s.firstConstant? info with
    | some constant => return some (.string constant)
    | none =>
      match s.table.containerOf? name info.typeParameters.length with
      | some container => s.sampleContainer step env container args
      | none => sampleObject step isRoot (s.table.allFields info)

/-- The sample of a type parameter that has no rule in the registry. -/
def sampleParameter (step : Ty → Sampling) (isRoot : Bool) (env : Environment Ty)
    (name : String) : Sampling :=
  match env.resolve name with
  | some bound => step bound
  | none => sampleObject step isRoot []

/-- The value of a rule for a type, or else the given sample. -/
def orElse (ty : Ty) (sample : Sampling) : Sampling := do
  match ← Registry.lookup ty.text with
  | some value => return some value
  | none => sample

/-- The sample of a type in an environment, with the given depth left. -/
def sampleAt (s : Sampler) : Nat → Ty → Environment Ty → Sampling
  | 0, _, _ => return none
  | left + 1, ty, env =>
    let step (part : Ty) : Sampling := s.sampleAt left part (s.environmentFor part env)
    let isRoot := left + 1 = maxDepth
    match ty with
    | .primitive _ => Registry.lookup ty.text
    | .array item => return some (listOf (← step item.component))
    | .named name args => orElse ty (s.sampleClass step isRoot env name args)
    | .param name => orElse ty (sampleParameter step isRoot env name)
    | .wildcard | .bounded _ => return none

/-- The sample of a type. -/
def sample (s : Sampler) (ty : Ty) : Sampling :=
  s.sampleAt maxDepth ty (s.environmentFor ty .empty)

end Sampler

end Exemplar
