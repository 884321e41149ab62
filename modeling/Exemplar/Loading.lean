import Exemplar.ClassTable.Build
import Exemplar.Declaration.Document
import Exemplar.File.Fault
import Exemplar.Json.Pointer

/-!
# Exemplar.Loading

Documents from files, and class tables from documents, with all that can go wrong.  A document
is a whole file, or the part of it that a JSON pointer selects; errors in a part have no
position in the text.
-/

namespace Exemplar

/-- Why there is no class table, or no type. -/
inductive LoadError where
  | unreadable (path : String) (fault : FileFault)
  | document (error : DocumentError)
  | pointerMiss (pointer : String)
  | build (error : BuildError)
deriving DecidableEq

/-- What kind of error an error is. -/
inductive ErrorKind where
  | io
  | document
  | pointerMiss
  | duplicateClass
  | invalidClassName
  | typeSyntax
deriving DecidableEq

/-- The wording of an error at a place of a document. -/
def invalidDocument (place message : String) : String :=
  "invalid model document at JSON path " ++ place ++ ": " ++ message

/-- The wording of an error. -/
def BuildError.message : BuildError → String
  | invalidClassName name => "invalid class name `" ++ name ++ "`"
  | duplicateClass name => "class " ++ name ++ " is declared more than once"
  | typeSyntax text place fault =>
    "cannot parse type `" ++ text ++ "` in " ++ place.message ++ ": " ++ fault.message
  | compoundInitializer className fieldName =>
    invalidDocument (TypePlace.field className fieldName).message
      "initializer must be a JSON scalar"

/-- The kind of an error. -/
def BuildError.kind : BuildError → ErrorKind
  | invalidClassName _ => .invalidClassName
  | duplicateClass _ => .duplicateClass
  | typeSyntax _ _ _ => .typeSyntax
  | compoundInitializer _ _ => .document

namespace LoadError

/-- The wording of an error. -/
def message : LoadError → String
  | unreadable path fault => "failed to read model " ++ path ++ ": " ++ fault.message
  | document error => invalidDocument error.path.text error.message
  | pointerMiss pointer => "JSON pointer " ++ pointer ++ " selects nothing in the model document"
  | build error => error.message

/-- The kind of an error. -/
def kind : LoadError → ErrorKind
  | unreadable _ _ => .io
  | document _ => .document
  | pointerMiss _ => .pointerMiss
  | build error => error.kind

/-- The wording of an error with the causes that it has: the fault of a file is told again. -/
def fullMessage : LoadError → String
  | unreadable path fault => (unreadable path fault).message ++ ": " ++ fault.message
  | error => error.message

end LoadError

namespace Document

/-- Reads the document in a text, or in the part of it that a pointer selects. -/
def ofPart (text : String) : Option String → Except LoadError Document
  | none => (ofText text).mapError .document
  | some pointer => do
    let value ← (Json.read text).mapError .document
    match value.pointer? pointer with
    | none => .error (.pointerMiss pointer)
    | some part => (ofJson part).mapError .document

/-- Reads the document in a file with the given contents. -/
def ofFile (path : String) (contents : Except FileFault String) (pointer : Option String) :
    Except LoadError Document := do
  let text ← contents.mapError (.unreadable path)
  ofPart text pointer

end Document

namespace ClassTable

/-- The table of document texts. -/
def ofTexts (texts : List String) : Except LoadError ClassTable := do
  let documents ← texts.mapM fun text => (Document.ofText text).mapError .document
  (ofDocuments documents).mapError .build

/-- The table of document values. -/
def ofValues (values : List Json) : Except LoadError ClassTable := do
  let documents ← values.mapM fun value => (Document.ofJson value).mapError .document
  (ofDocuments documents).mapError .build

end ClassTable

end Exemplar
