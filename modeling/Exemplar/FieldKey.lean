import Exemplar.Declaration.Basic
import Exemplar.Text.Blank

/-!
# Exemplar.FieldKey

The JSON key of a field.  Two annotations rename a field: the `value` of a Jackson property
comes first, the `name` of a Fastjson field second.  Double quotes around a name are dropped,
and a blank name does not count; without a name the field keeps the one it is declared with.
-/

namespace Exemplar

/-- The annotations that rename a field, with the attribute that holds the name. -/
def namingAttributes : List (String × String) :=
  [("com.fasterxml.jackson.annotation.JsonProperty", "value"),
   ("com.alibaba.fastjson.annotation.JSONField", "name")]

/-- A text without the double quotes around it. -/
def stripQuotes (s : List Char) : List Char :=
  ((s.dropWhile (· = '"')).reverse.dropWhile (· = '"')).reverse

/-- The attribute of the first annotation with the given name. -/
def annotationValue? (annotations : List Marker) (marker key : String) : Option String :=
  (annotations.find? (·.name = marker)).bind (·.attribute? key)

/-- The name that a naming marker gives, unless it is blank. -/
def override? (annotations : List Marker) (marker : String × String) : Option String :=
  match annotationValue? annotations marker.1 marker.2 with
  | none => none
  | some name =>
    let name := stripQuotes name.toList
    if name.all isBlank then none else some (String.ofList name)

/-- The JSON key of a field that is declared with a name and annotations. -/
def fieldKey (annotations : List Marker) (declared : String) : String :=
  (namingAttributes.findSome? (override? annotations)).getD declared

end Exemplar
