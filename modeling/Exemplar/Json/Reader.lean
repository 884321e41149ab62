import Exemplar.Json.Node
import Exemplar.Json.Path
import Exemplar.Json.Printer
import Exemplar.Text.Quoted

/-!
# Exemplar.Json.Reader

Reading a value from text, and the errors of reading.  An error has a cause, the path of the
part it concerns, and the number of bytes that had been read when it was noticed; from text the
last becomes a line and a column.

What a text holds after its first value is ignored.  At most 127 brackets may be open at once.
-/

namespace Exemplar

/-! ## errors -/

/-- What was found where something else is wanted. -/
inductive Found where
  | scalar (value : Scalar)
  | sequence
  | map
deriving DecidableEq

/-- The wording of what was found. -/
def Found.message : Found → String
  | scalar .null => "null"
  | scalar (.bool value) => "boolean `" ++ (if value then "true" else "false") ++ "`"
  | scalar (.number (.integer value _)) =>
    "integer `" ++ String.ofList (Json.integerChars value) ++ "`"
  | scalar (.number (.double value)) => "floating point `" ++ String.ofList value.chars ++ "`"
  | scalar (.string value) => "string " ++ quoted value
  | sequence => "sequence"
  | map => "map"

/-- Why a text or a value cannot be read. -/
inductive ReadFault where
  | malformed (fault : SyntaxFault)
  | missingField (name : String)
  | duplicateField (name : String)
  | unknownField (name : String) (known : List String)
  | unknownVariant (name : String) (known : List String)
  | invalidType (found : Found) (wanted : String)
  | invalidValue (found : Found) (wanted : String)
  | invalidLength (length : Nat) (wanted : String)
deriving DecidableEq

/-- The names that are allowed, in backquotes. -/
def expectedNames (names : List String) : String :=
  let shown := names.map fun name => "`" ++ name ++ "`"
  match shown with
  | [] => "there are no fields"
  | [name] => "expected " ++ name
  | [name, other] => "expected " ++ name ++ " or " ++ other
  | names => "expected one of " ++ ", ".intercalate names

/-- The wording of a fault. -/
def ReadFault.message : ReadFault → String
  | malformed fault => fault.message
  | missingField name => "missing field `" ++ name ++ "`"
  | duplicateField name => "duplicate field `" ++ name ++ "`"
  | unknownField name known => "unknown field `" ++ name ++ "`, " ++ expectedNames known
  | unknownVariant name known => "unknown variant `" ++ name ++ "`, " ++ expectedNames known
  | invalidType found wanted => "invalid type: " ++ found.message ++ ", expected " ++ wanted
  | invalidValue found wanted => "invalid value: " ++ found.message ++ ", expected " ++ wanted
  | invalidLength length wanted => s!"invalid length {length}, expected " ++ wanted

/-- A fault, the path of the part it concerns, and the number of bytes read before it. -/
structure ReadError where
  path : Path
  fault : ReadFault
  offset : Nat
deriving DecidableEq

/-- A line, counted from 1, and the number of bytes read in it. -/
structure TextPosition where
  line : Nat
  column : Nat
deriving DecidableEq

/-- The position that is reached from another by reading up to the given number of bytes. -/
def TextPosition.after (position : TextPosition) : Nat → List Char → TextPosition
  | 0, _ => position
  | count, [] => { position with column := position.column + count }
  | count + 1, c :: rest =>
    let size := min c.utf8Size (count + 1)
    let position := if c = '\n' then ⟨position.line + 1, 0⟩
      else { position with column := position.column + size }
    position.after (count + 1 - size) rest
termination_by _ text => text.length

/-- The position in a text after the given number of bytes. -/
def TextPosition.at (text : List Char) (offset : Nat) : TextPosition :=
  (⟨1, 0⟩ : TextPosition).after offset text

/-- An error of reading as it is reported; errors in values have no position. -/
structure DocumentError where
  path : Path
  fault : ReadFault
  position : Option TextPosition
deriving DecidableEq

/-- The wording of an error, with its position. -/
def DocumentError.message (e : DocumentError) : String :=
  match e.position with
  | none => e.fault.message
  | some p => e.fault.message ++ s!" at line {p.line} column {p.column}"

/-- The error as it is reported for a text. -/
def ReadError.inText (text : List Char) (e : ReadError) : DocumentError :=
  ⟨e.path, e.fault, some (TextPosition.at text e.offset)⟩

/-- The error as it is reported for a value. -/
def ReadError.inValue (e : ReadError) : DocumentError := ⟨e.path, e.fault, none⟩

/-! ## values -/

/-- Succeeds when an array or object is closed. -/
def Ending.check (path : Path) (isObject : Bool) : Ending → Except ReadError Unit
  | closed _ | cut => .ok ()
  | broken e _ =>
    .error ⟨if isObject then .unknown :: path else path, .malformed e.fault, e.offset⟩
  | keyOnly _ e | tooDeep e => .error ⟨path, .malformed e.fault, e.offset⟩

namespace Node

mutual

/-- The value of a tree that stands at a path. -/
def toJson (path : Path) : Node → Except ReadError Json
  | scalar value _ _ => .ok value.toJson
  | array _ items ending => do
    let values ← itemsToJson path 0 items
    ending.check path false
    return .array values
  | object _ entries ending => do
    let values ← entriesToJson path entries
    ending.check path true
    return .object (values.foldl (fun done (name, value) => Json.insertEntry name value done) [])
  | unread e _ => .error ⟨path, .malformed e.fault, e.offset⟩

/-- The values of the items of an array, counted from `position`. -/
def itemsToJson (path : Path) (position : Nat) : List Node → Except ReadError (List Json)
  | [] => .ok []
  | item :: rest => do
    let value ← item.toJson (.index position :: path)
    let values ← itemsToJson path (position + 1) rest
    return value :: values

/-- The values of the entries of an object, repeated keys included. -/
def entriesToJson (path : Path) : List (Key × Node) → Except ReadError (List (String × Json))
  | [] => .ok []
  | (key, node) :: rest => do
    let value ← node.toJson (.key key.name :: path)
    let values ← entriesToJson path rest
    return (key.name, value) :: values

end

end Node

/-- The number of brackets that may be open at once in a text. -/
def nestingLimit : Nat := 127

namespace Json

/-- The first value in a text. -/
def read (text : String) : Except DocumentError Json :=
  let chars := text.toList
  ((Node.parse nestingLimit (Lexemes.scan chars)).toJson []).mapError (·.inText chars)

end Json

end Exemplar
