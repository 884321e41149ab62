import Exemplar.Json.Basic

/-!
# Exemplar.Declaration.Basic

Class declarations as documents hold them: names are plain texts and types are as written.  A
document is a list of class declarations.
-/

namespace Exemplar

/-- The kinds of classes. -/
inductive ClassKind where
  | ordinary
  | interface
  | enumeration
deriving DecidableEq

/-- The word for a kind of class. -/
def ClassKind.word : ClassKind → String
  | ordinary => "class"
  | interface => "interface"
  | enumeration => "enum"

/-- An annotation of a field, with its attributes in order. -/
structure Marker where
  name : String
  attributes : List (String × String)
deriving DecidableEq

/-- The value of an attribute. -/
def Marker.attribute? (a : Marker) (key : String) : Option String :=
  Json.entry? a.attributes key

/-- The declaration of a field. -/
structure FieldDecl where
  name : String
  type : String
  isStatic : Bool
  initializer : Option Json
  annotations : List Marker
deriving DecidableEq

/-- The declaration of a class. -/
structure ClassDecl where
  name : String
  kind : ClassKind
  typeParameters : List String
  extended : List String
  implemented : List String
  enumConstants : List String
  fields : List FieldDecl
deriving DecidableEq

/-- A document of class declarations. -/
structure Document where
  classes : List ClassDecl
deriving DecidableEq

end Exemplar
