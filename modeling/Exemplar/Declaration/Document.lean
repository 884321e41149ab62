import Exemplar.Declaration.Basic
import Exemplar.Declaration.Format

/-!
# Exemplar.Declaration.Document

How class declarations stand in JSON:

```
{ "classes": [
    { "name": "com.example.Page", "typeParameters": ["T"],
      "fields": [ { "name": "items", "type": "List<T>" },
                  { "name": "size", "type": "int", "initializer": 20 } ] } ] }
```

* `Document.ofText` — reads a document from text;
* `Document.ofJson` — reads a document from a value;
* `Document.toJson` — the value of a document, in which defaults are left out.
-/

namespace Exemplar

/-! ## formats -/

/-- A list, left out when empty. -/
def writeList {α : Type} (write : α → Json) (items : List α) : Option Json :=
  if items.isEmpty then none else some (.array (items.map write))

/-- How annotations stand in JSON. -/
def Marker.format : RecordFormat Marker where
  name := "struct AnnotationDoc"
  blank := ⟨"", []⟩
  fields := [
    { name := "name"
      isRequired := true
      read := fun path node record => do return { record with name := ← readText path node }
      write := fun record => some (.string record.name) },
    { name := "attributes"
      isRequired := false
      read := fun path node record => do
        return { record with attributes := ← readTable readText path node }
      write := fun record =>
        if record.attributes.isEmpty then none
        else some (.object (record.attributes.map fun (key, value) => (key, .string value))) }]

/-- How field declarations stand in JSON. -/
def FieldDecl.format (source : Source) : RecordFormat FieldDecl where
  name := "struct FieldDoc"
  blank := ⟨"", "", false, none, []⟩
  fields := [
    { name := "name"
      isRequired := true
      read := fun path node record => do return { record with name := ← readText path node }
      write := fun record => some (.string record.name) },
    { name := "type"
      isRequired := true
      read := fun path node record => do return { record with type := ← readText path node }
      write := fun record => some (.string record.type) },
    { name := "static"
      isRequired := false
      read := fun path node record => do return { record with isStatic := ← readBool path node }
      write := fun record => if record.isStatic then some (.bool true) else none },
    { name := "initializer"
      isRequired := false
      read := fun path node record => do
        return { record with initializer := ← readOptional path node }
      write := fun record => record.initializer },
    { name := "annotations"
      isRequired := false
      read := fun path node record => do
        return { record with
          annotations := ← readList (Marker.format.read source) path node }
      write := fun record => writeList Marker.format.write record.annotations }]

/-- The words for the kinds of classes. -/
def ClassKind.words : List (String × ClassKind) :=
  [ordinary, interface, enumeration].map fun kind => (kind.word, kind)

/-- How class declarations stand in JSON. -/
def ClassDecl.format (source : Source) : RecordFormat ClassDecl where
  name := "struct ClassDoc"
  blank := ⟨"", .ordinary, [], [], [], [], []⟩
  fields := [
    { name := "name"
      isRequired := true
      read := fun path node record => do return { record with name := ← readText path node }
      write := fun record => some (.string record.name) },
    { name := "kind"
      isRequired := false
      read := fun path node record => do
        return { record with kind := ← readChoice ClassKind.words source path node }
      write := fun record => some (.string record.kind.word) },
    { name := "typeParameters"
      isRequired := false
      read := fun path node record => do
        return { record with typeParameters := ← readList readText path node }
      write := fun record => writeList .string record.typeParameters },
    { name := "extends"
      isRequired := false
      read := fun path node record => do
        return { record with extended := ← readList readText path node }
      write := fun record => writeList .string record.extended },
    { name := "implements"
      isRequired := false
      read := fun path node record => do
        return { record with implemented := ← readList readText path node }
      write := fun record => writeList .string record.implemented },
    { name := "enumConstants"
      isRequired := false
      read := fun path node record => do
        return { record with enumConstants := ← readList readText path node }
      write := fun record => writeList .string record.enumConstants },
    { name := "fields"
      isRequired := false
      read := fun path node record => do
        return { record with
          fields := ← readList ((FieldDecl.format source).read source) path node }
      write := fun record => writeList (FieldDecl.format source).write record.fields }]

/-- How documents stand in JSON. -/
def Document.format (source : Source) : RecordFormat Document where
  name := "struct ModelDocument"
  blank := ⟨[]⟩
  fields := [
    { name := "classes"
      isRequired := false
      read := fun path node record => do
        return { record with
          classes := ← readList ((ClassDecl.format source).read source) path node }
      write := fun record =>
        some (.array (record.classes.map (ClassDecl.format source).write)) }]

/-! ## documents -/

namespace Document

/-- Reads a document from a value. -/
def ofJson (value : Json) : Except DocumentError Document :=
  ((format .value).read .value [] (Node.ofJson value)).mapError (·.inValue)

/-- Reads a document from text. -/
def ofText (text : String) : Except DocumentError Document :=
  let chars := text.toList
  let node := Node.parse nestingLimit (Lexemes.scan chars)
  ((format .text).read .text [] node).mapError (·.inText chars)

/-- The value of a document. -/
def toJson (document : Document) : Json := (format .value).write document

end Document

end Exemplar
