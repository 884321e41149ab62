import Exemplar.CommandLine.Options

/-!
# Exemplar.CommandLine.Command

The two commands: `sample` prints samples of types, and `classes` lists the classes of documents.
Both read documents from files.
-/

namespace Exemplar.CommandLine

/-- Where the classes come from. -/
structure ModelOptions where
  /-- Paths and patterns of paths. -/
  files : List String
  /-- The part of each file that holds the document. -/
  pointer : Option String

/-- The command `sample`. -/
structure SampleCommand where
  model : ModelOptions
  /-- The types, as they are written. -/
  roots : List String
  filter : Option String
  placeholder : Option String
  isCompact : Bool

/-- The command `classes`. -/
structure ClassesCommand where
  model : ModelOptions
  /-- Library classes are listed, too. -/
  showsLibrary : Bool

/-- What a command prints. -/
inductive Task where
  | sample (command : SampleCommand)
  | classes (command : ClassesCommand)

/-- A command: what it prints, and where to. -/
structure Command where
  task : Task
  /-- The file to write, instead of printing. -/
  out : Option String
  /-- Nothing is done. -/
  isIdle : Bool

/-! ## options -/

/-- The options of both commands. -/
def commonForms : List OptionForm := [
  ⟨.model, "model", some 'm', .many, true⟩,
  ⟨.jsonPointer, "json-pointer", none, .one, false⟩,
  ⟨.out, "out", some 'o', .path, false⟩,
  ⟨.noOp, "no-op", none, .flag, false⟩,
  ⟨.help, "help", some 'h', .help, false⟩]

/-- The options of `sample`. -/
def sampleForms : List OptionForm := commonForms ++ [
  ⟨.root, "root", some 'r', .many, true⟩,
  ⟨.jqExpr, "jq-expr", none, .one, false⟩,
  ⟨.stringPlaceholder, "string-placeholder", none, .one, false⟩,
  ⟨.compact, "compact", none, .flag, false⟩]

/-- The options of `classes`. -/
def classesForms : List OptionForm := commonForms ++ [⟨.all, "all", none, .flag, false⟩]

/-- The options before a command. -/
def topForms : List OptionForm :=
  [⟨.help, "help", some 'h', .help, false⟩, ⟨.version, "version", some 'V', .version, false⟩]

/-! ## reading -/

/-- All values of an option, in order. -/
def valuesOf (given : List (OptionName × List String)) (name : OptionName) : List String :=
  (given.filter (·.1 = name)).flatMap (·.2)

/-- An option is given. -/
def isGiven (given : List (OptionName × List String)) (name : OptionName) : Bool :=
  given.any (·.1 = name)

/-- The classes that options ask for. -/
def modelOptions (given : List (OptionName × List String)) : ModelOptions where
  files := valuesOf given .model
  pointer := (valuesOf given .jsonPointer).head?

/-- The command that prints something, with the options of every command. -/
def commandOf (task : Task) (given : List (OptionName × List String)) : Command where
  task := task
  out := (valuesOf given .out).head?
  isIdle := isGiven given .noOp

/-- Reads the arguments of `sample`. -/
def readSample (arguments : List String) : Except UsageError Command := do
  let given ← readOptions sampleForms arguments
  let task := Task.sample {
    model := modelOptions given
    roots := valuesOf given .root
    filter := (valuesOf given .jqExpr).head?
    placeholder := (valuesOf given .stringPlaceholder).head?
    isCompact := isGiven given .compact }
  return commandOf task given

/-- Reads the arguments of `classes`. -/
def readClasses (arguments : List String) : Except UsageError Command := do
  let given ← readOptions classesForms arguments
  let task := Task.classes { model := modelOptions given, showsLibrary := isGiven given .all }
  return commandOf task given

/-- What the words after `help` ask for: the help text of a command, if there is one. -/
def readHelp : List String → UsageError
  | [] | ["sample"] | ["classes"] | ["help"] => .help
  | _ => .invalidSubcommand

/-- Reads what stands after the two dashes that end the options before a command: a command
may not stand there. -/
def readAfterDivider : List String → UsageError
  | [] => .helpOnMissingSubcommand
  | word :: _ =>
    if word ∈ ["sample", "classes", "help"] then .unknownArgument else .invalidSubcommand

/-- Reads the arguments of the program. -/
def Command.read : List String → Except UsageError Command
  | [] => .error .helpOnMissingSubcommand
  | argument :: rest =>
    match ArgumentForm.of argument with
    | .divider => .error (readAfterDivider rest)
    | .long name attached => do
      let _ ← readLong topForms name attached .start
      .error .unknownArgument
    | .short letters => do
      let _ ← readShort topForms letters .start
      .error .unknownArgument
    | .value "sample" => readSample rest
    | .value "classes" => readClasses rest
    | .value "help" => .error (readHelp rest)
    | .value _ => .error .invalidSubcommand

end Exemplar.CommandLine
