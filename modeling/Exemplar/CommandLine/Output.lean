import Exemplar.CommandLine.Command
import Exemplar.CommandLine.RunError
import Exemplar.Registry.Builtin
import Exemplar.Sampler.Basic

/-!
# Exemplar.CommandLine.Output

The texts that the commands print.  `sample` prints one result for each root type, the sample, or
with a filter all its outputs; every result begins a new line.  `classes` prints one JSON array.

* `SampleCommand.results` — what is printed for each root type;
* `SampleCommand.text` — the results as one text;
* `ClassesCommand.text` — the list of classes.
-/

namespace Exemplar.CommandLine

/-! ## samples -/

namespace SampleCommand

/-- The rules for types that are not looked into. -/
def registry (command : SampleCommand) (now : ClockReading) : Registry :=
  match command.placeholder with
  | none => .builtin now
  | some placeholder => (Registry.builtin now).withPlaceholder placeholder

/-- The style of the results. -/
def style (command : SampleCommand) : Style := if command.isCompact then .compact else .indented

/-- The sample of a root type; null stands for no value. -/
def sampleOf (command : SampleCommand) (now : ClockReading) (table : ClassTable) (root : Ty) :
    Json :=
  let sampler : Sampler := ⟨table, .full⟩
  (((sampler.sample root).run (command.registry now)).1).getD .null

/-- What is printed for a root type. -/
def resultsOf (command : SampleCommand) (now : ClockReading) (table : ClassTable) (root : Ty) :
    Except RunError (List Json) :=
  let sample := command.sampleOf now table root
  match command.filter with
  | none => .ok [sample]
  | some filter => (Filter.apply filter sample).mapError (.filter root)

/-- The root types. -/
def rootTypes (command : SampleCommand) (table : ClassTable) : Except RunError (List Ty) :=
  command.roots.mapM fun root => (table.readRoot root).mapError fun error => .load (.build error)

/-- What is printed for each root type. -/
def results (command : SampleCommand) (now : ClockReading) (table : ClassTable) :
    Except RunError (List (List Json)) := do
  (← command.rootTypes table).mapM (command.resultsOf now table)

/-- Results as one text. -/
def textOf (style : Style) (results : List (List Json)) : String :=
  "\n".intercalate (results.map fun ofRoot => "\n".intercalate (ofRoot.map (Json.render style)))

/-- The text to print. -/
def text (command : SampleCommand) (now : ClockReading) (table : ClassTable) :
    Except RunError String := do
  return textOf command.style (← command.results now table)

end SampleCommand

/-! ## lists of classes -/

/-- The entry for a field. -/
def fieldEntry (field : FieldInfo Ty) : Json :=
  .object [("name", .string field.name), ("type", .string field.type.text),
    ("static", .bool field.isStatic)]

/-- The entry for a class. -/
def classEntry (info : ClassInfo) : Json :=
  .object [("name", .string info.name), ("kind", .string info.kind.word),
    ("typeParameters", .array (info.typeParameters.map .string)),
    ("supertypes", .array (info.supertypes.map fun type => .string type.text)),
    ("fields", .array (info.fields.map fieldEntry))]

/-- A class belongs to the library. -/
def isLibraryClass (info : ClassInfo) : Bool := info.name.startsWith "java."

/-- The text to print. -/
def ClassesCommand.text (command : ClassesCommand) (table : ClassTable) : String :=
  let shown := table.classes.filter fun info => command.showsLibrary || !isLibraryClass info
  (Json.array (shown.map classEntry)).render .indented

/-- The text that a task prints. -/
def Task.text (task : Task) (now : ClockReading) (table : ClassTable) : Except RunError String :=
  match task with
  | sample command => command.text now table
  | classes command => .ok (command.text table)

/-- The options about classes of a task. -/
def Task.model : Task → ModelOptions
  | sample command => command.model
  | classes command => command.model

end Exemplar.CommandLine
