import Exemplar.Declaration.Basic
import Exemplar.FieldKey
import Exemplar.Ty.Basic

/-!
# Exemplar.ClassTable.Basic

Classes whose declarations have been understood: the types of supertypes and fields are types
rather than texts.  A class table holds them in the order of their declarations.
-/

namespace Exemplar

/-- A field of a class. -/
structure FieldInfo (τ : Type) where
  name : String
  type : τ
  initializer : Option Json
  annotations : List Marker
  isStatic : Bool
deriving DecidableEq

/-- The JSON key of a field. -/
def FieldInfo.key {τ : Type} (field : FieldInfo τ) : String :=
  fieldKey field.annotations field.name

/-- A class. -/
structure ClassInfo where
  name : String
  simpleName : String
  kind : ClassKind
  typeParameters : List String
  /-- The superclass first, then the interfaces. -/
  supertypes : List Ty
  enumConstants : List String
  fields : List (FieldInfo Ty)
  /-- The class that this one is nested in. -/
  enclosing : Option String
deriving DecidableEq

/-- The constants of an enumeration; other classes have none, whatever they declare. -/
def ClassInfo.constants (info : ClassInfo) : List String :=
  if info.kind = .enumeration then info.enumConstants else []

/-- The arguments for the type parameters of a class, if there is one for each. -/
def ClassInfo.givenArguments (info : ClassInfo) (args : List Ty) : Option (List Ty) :=
  if args.length = info.typeParameters.length then some args else none

/-- The classes that are known, in order. -/
structure ClassTable where
  classes : List ClassInfo
deriving DecidableEq

namespace ClassTable

/-- The names of the classes, in order. -/
def names (table : ClassTable) : List String := table.classes.map (·.name)

/-- The class of a name. -/
def find? (table : ClassTable) (name : String) : Option ClassInfo :=
  table.classes.find? (·.name = name)

/-- The class of a type that is a class name with arguments. -/
def classOf? (table : ClassTable) : Ty → Option ClassInfo
  | .named name _ => table.find? name
  | _ => none

/-- The class that a class is directly nested in. -/
def enclosing? (table : ClassTable) (info : ClassInfo) : Option ClassInfo :=
  info.enclosing.bind table.find?

/-- The classes that a class is nested in, innermost first, at most `fuel` of them. -/
def enclosingUpTo (table : ClassTable) : Nat → ClassInfo → List ClassInfo
  | 0, _ => []
  | fuel + 1, info =>
    match table.enclosing? info with
    | none => []
    | some outer => outer :: table.enclosingUpTo fuel outer

/-- The classes that a class is nested in, innermost first. -/
def enclosingClasses (table : ClassTable) (info : ClassInfo) : List ClassInfo :=
  table.enclosingUpTo table.classes.length info

end ClassTable

end Exemplar
