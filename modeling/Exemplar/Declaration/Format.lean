import Exemplar.Json.Reader

/-!
# Exemplar.Declaration.Format

How records stand in JSON.  A record is an object whose keys are fields of the record, or an
array of its fields in order from which trailing fields may be missing.  Each field has a name,
a reader and a writer; a field that may be missing is left out by the writer where it holds its
default.

A record is read from the tree of a text or from the tree of a value.  The two differ in how
they report an array that is too long, and in repeated keys, which a value cannot have.
-/

namespace Exemplar

/-- What a tree was made from. -/
inductive Source where
  | text
  | value
deriving DecidableEq

/-- A reader of trees; the path leads to the tree. -/
abbrev NodeReader (α : Type) := Path → Node → Except ReadError α

/-! ## scalars and lists -/

/-- The error for a tree that stands where something else is wanted. -/
def Node.invalidType (path : Path) (node : Node) (wanted : String) : ReadError :=
  match node with
  | .scalar value _ stop => ⟨path, .invalidType (.scalar value) wanted, stop⟩
  | .array start _ _ => ⟨path, .invalidType .sequence wanted, start⟩
  | .object start _ _ => ⟨path, .invalidType .map wanted, start⟩
  | .unread e _ => ⟨path, .malformed e.fault, e.offset⟩

/-- Reads a string. -/
def readText : NodeReader String
  | _, .scalar (.string value) _ _ => .ok value
  | path, node => .error (node.invalidType path "a string")

/-- Reads a truth value. -/
def readBool : NodeReader Bool
  | _, .scalar (.bool value) _ _ => .ok value
  | path, node => .error (node.invalidType path "a boolean")

/-- Reads any value; null counts as none. -/
def readOptional : NodeReader (Option Json)
  | _, .scalar .null _ _ => .ok none
  | path, node => (node.toJson path).map some

/-- Reads the items of an array in order, counted from `position`. -/
def readItems {α : Type} (read : NodeReader α) (path : Path) (position : Nat) :
    List Node → Except ReadError (List α)
  | [] => .ok []
  | item :: rest => do
    let value ← read (.index position :: path) item
    let values ← readItems read path (position + 1) rest
    return value :: values

/-- Reads a list. -/
def readList {α : Type} (read : NodeReader α) : NodeReader (List α)
  | path, .array _ items ending => do
    let values ← readItems read path 0 items
    ending.check path false
    return values
  | path, node => .error (node.invalidType path "a sequence")

/-- Reads the entries of an object in order, repeated keys included. -/
def readEntries {α : Type} (read : NodeReader α) (path : Path) :
    List (Key × Node) → Except ReadError (List (String × α))
  | [] => .ok []
  | (key, node) :: rest => do
    let value ← read (.key key.name :: path) node
    let values ← readEntries read path rest
    return (key.name, value) :: values

/-- Reads a table of values by key; the last value of a repeated key counts. -/
def readTable {α : Type} (read : NodeReader α) : NodeReader (List (String × α))
  | path, .object _ entries ending => do
    let values ← readEntries read path entries
    ending.check path true
    return values.foldl (fun done (name, value) => Json.insertEntry name value done) []
  | path, node => .error (node.invalidType path "a map")

/-! ## words -/

/-- Finds what a word stands for, read up to the given offset. -/
def readWordIn {α : Type} (words : List (String × α)) (path : Path) (name : String)
    (offset : Nat) : Except ReadError α :=
  match Json.entry? words name with
  | some value => .ok value
  | none => .error ⟨path, .unknownVariant name (words.map (·.1)), offset⟩

/-- Succeeds on null. -/
def readNull : NodeReader Unit
  | _, .scalar .null _ _ => .ok ()
  | path, node => .error (node.invalidType path "unit")

/-- Succeeds when an object that holds a word and null is closed. -/
def checkWordEnd (path : Path) (more : List (Key × Node)) (ending : Ending) :
    Except ReadError Unit :=
  match more, ending with
  | (key, _) :: _, _ => .error ⟨path, .malformed .valueExpected, key.separator⟩
  | [], .closed _ | [], .cut => .ok ()
  | [], .broken _ (.finish offset) => .error ⟨path, .malformed .endOfObject, offset⟩
  | [], .broken _ unread => .error ⟨path, .malformed .valueExpected, unread.start⟩
  | [], .keyOnly key _ => .error ⟨path, .malformed .valueExpected, key.separator⟩
  | [], .tooDeep e => .error ⟨path, .malformed e.fault, e.offset⟩

/-- Reads one of several words: a string, or an object that has the word as its only key and
null as the value. -/
def readChoice {α : Type} (words : List (String × α)) (source : Source) : NodeReader α
  | path, .scalar (.string name) _ stop => readWordIn words path name stop
  | path, .object start entries ending =>
    match source, entries, ending with
    | .value, [(key, node)], _ => do
      let value ← readWordIn words path key.name key.stop
      readNull (.key key.name :: path) node
      return value
    | .value, _, _ => .error ⟨path, .invalidValue .map "map with a single key", start⟩
    | .text, [], .closed stop => .error ⟨path, .malformed .keyExpected, stop⟩
    | .text, [], .broken e _ => .error ⟨path, .malformed e.fault, e.offset⟩
    | .text, [], .keyOnly key e => do
      let _ ← readWordIn words path key.name key.stop
      .error ⟨path, .malformed e.fault, e.offset⟩
    | .text, [], .tooDeep e => .error ⟨path, .malformed e.fault, e.offset⟩
    | .text, [], .cut => .error ⟨path, .malformed .valueExpected, start⟩
    | .text, (key, node) :: more, ending => do
      let value ← readWordIn words path key.name key.stop
      readNull (.key key.name :: path) node
      checkWordEnd path more ending
      return value
  | path, node =>
    match source, node with
    | .value, node => .error (node.invalidType path "string or map")
    | .text, .unread _ (.finish offset) => .error ⟨path, .malformed .endOfValue, offset⟩
    | .text, .unread _ (.broken _ true e) => .error ⟨path, .malformed e.fault, e.offset⟩
    | .text, node => .error ⟨path, .malformed .valueExpected, node.start + 1⟩

/-! ## records -/

/-- How a field of a record stands in JSON. -/
structure FieldFormat (α : Type) where
  name : String
  isRequired : Bool
  /-- Reads the field and puts it into a record. -/
  read : Path → Node → α → Except ReadError α
  /-- The value of the field in a record, unless it is left out. -/
  write : α → Option Json

/-- How a record stands in JSON. -/
structure RecordFormat (α : Type) where
  /-- What error messages call the record. -/
  name : String
  /-- The record before any field is read. -/
  blank : α
  fields : List (FieldFormat α)

namespace RecordFormat

variable {α : Type}

/-- The field of a given name. -/
def field? (format : RecordFormat α) (name : String) : Option (FieldFormat α) :=
  format.fields.find? (·.name = name)

/-- The field of a key, unless it is unknown or has been read. -/
def fieldFor (format : RecordFormat α) (path : Path) (seen : List String) (key : Key) :
    Except ReadError (FieldFormat α) :=
  match format.field? key.name with
  | none =>
    .error ⟨.key key.name :: path, .unknownField key.name (format.fields.map (·.name)), key.judged⟩
  | some field =>
    if key.name ∈ seen then .error ⟨path, .duplicateField key.name, key.judged⟩ else .ok field

/-- Reads the entries of an object into a record.  Also says which names it has read. -/
def readFields (format : RecordFormat α) (path : Path) :
    List String → α → List (Key × Node) → Except ReadError (List String × α)
  | seen, record, [] => .ok (seen, record)
  | seen, record, (key, node) :: rest => do
    let field ← format.fieldFor path seen key
    let record ← field.read (.key key.name :: path) node record
    format.readFields path (key.name :: seen) record rest

/-- Succeeds when an object is closed and has all required fields. -/
def checkFields (format : RecordFormat α) (path : Path) (seen : List String) (ending : Ending) :
    Except ReadError Unit := do
  if let .keyOnly key _ := ending then
    let _ ← format.fieldFor path seen key
  ending.check path true
  match format.fields.find? fun field => field.isRequired && !seen.contains field.name with
  | none => return ()
  | some field =>
    let stop := match ending with
      | .closed stop => stop
      | _ => 0
    .error ⟨path, .missingField field.name, stop⟩

/-- Succeeds when nothing follows the last field of a record in an array. -/
def checkEnd (source : Source) (path : Path) (length : Nat) (items : List Node)
    (ending : Ending) : Except ReadError Unit :=
  match source, items, ending with
  | .value, [], _ => .ok ()
  | .value, _ :: _, _ => .error ⟨path, .invalidLength length "fewer elements in array", 0⟩
  | .text, item :: _, _ => .error ⟨path, .malformed .trailingCharacters, item.start + 1⟩
  | .text, [], .broken e unread =>
    match unread with
    | .cons .comma _ _ (.cons .closeArray _ _ _) | .finish _ =>
      .error ⟨path, .malformed e.fault, e.offset⟩
    | _ => .error ⟨path, .malformed .trailingCharacters, e.offset⟩
  | .text, [], ending => ending.check path false

/-- Reads the items of an array into a record, field by field from the given position. -/
def readElements (format : RecordFormat α) (source : Source) (path : Path) (items : List Node)
    (ending : Ending) : Nat → List (FieldFormat α) → List Node → α → Except ReadError α
  | _, [], rest, record => do
    checkEnd source path items.length rest ending
    return record
  | position, field :: fields, item :: rest, record => do
    let record ← field.read (.index position :: path) item record
    format.readElements source path items ending (position + 1) fields rest record
  | position, field :: fields, [], record => do
    ending.check path false
    let stop := match ending with
      | .closed stop => stop
      | _ => 0
    match (field :: fields).findIdx? (·.isRequired) with
    | none => return record
    | some ahead =>
      let wanted := format.name ++ s!" with {format.fields.length} element"
        ++ (if format.fields.length = 1 then "" else "s")
      .error ⟨path, .invalidLength (position + ahead) wanted, stop⟩

/-- Reads a record. -/
def read (format : RecordFormat α) (source : Source) : NodeReader α
  | path, .object _ entries ending => do
    if let .tooDeep e := ending then
      .error ⟨path, .malformed e.fault, e.offset⟩
    let (seen, record) ← format.readFields path [] format.blank entries
    format.checkFields path seen ending
    return record
  | path, .array _ items ending =>
    format.readElements source path items ending 0 format.fields items format.blank
  | path, node => .error (node.invalidType path format.name)

/-- The object of a record. -/
def write (format : RecordFormat α) (record : α) : Json :=
  .object (format.fields.filterMap fun field => (field.write record).map (field.name, ·))

end RecordFormat

end Exemplar
