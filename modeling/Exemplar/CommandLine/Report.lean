import Exemplar.CommandLine.Run

/-!
# Exemplar.CommandLine.Report

What a run shows to the outside: what goes to the standard output, what goes to the standard
error, and the exit code.  The exit code is 1 after an error, and 2 if the arguments cannot be
read; then nothing is printed.  A help text that is asked for is printed like any other text.

* `report` — what is shown of the outcome of a run;
* `execute` — runs the program and shows the outcome.
-/

namespace Exemplar.CommandLine

/-! ## texts -/

/-- What the program is called. -/
def programName : String := "exemplar"

/-- The version of the program. -/
def versionText : String := programName ++ " 0.1.0"

/-- How the program is used. -/
def helpText : String := "\n".intercalate [
  "Makes example JSON documents from declarations of classes.",
  "",
  "Usage: " ++ programName ++ " sample --model <FILE>... --root <TYPE>... [OPTIONS]",
  "       " ++ programName ++ " classes --model <FILE>... [OPTIONS]",
  "",
  "Commands:",
  "  sample   print a sample document for each root type",
  "  classes  list the classes of the model with their fields",
  "  help     print this text",
  "",
  "Options of both commands:",
  "  -m, --model <FILE>...             model documents, as paths or quoted patterns",
  "      --json-pointer <POINTER>      the part of each file that is the model",
  "  -o, --out <FILE>                  file to write instead of printing",
  "      --no-op                       do nothing",
  "  -h, --help                        print this text",
  "",
  "Options of sample:",
  "  -r, --root <TYPE>...              types to show",
  "      --jq-expr <FILTER>            filter for each sample",
  "      --string-placeholder <TEXT>   text shown for strings",
  "      --compact                     one line for each result",
  "",
  "Options of classes:",
  "      --all                         library classes, too",
  "",
  "Other options:",
  "  -V, --version                     print the version"]

/-- The wording of an error in the arguments. -/
def UsageError.message : UsageError → String
  | missingRequired => "a required option is missing"
  | unknownArgument => "there is an unexpected argument"
  | invalidSubcommand => "there is no such command"
  | invalidValue => "an option needs a value"
  | tooManyValues => "an option takes no value"
  | argumentConflict => "an option is given more than once"
  | help | helpOnMissingSubcommand => helpText
  | version => versionText

/-! ## reports -/

/-- What a run shows. -/
structure Report where
  /-- The text for the standard output. -/
  output : String
  /-- The text for the standard error. -/
  errors : String
  /-- The exit code. -/
  code : UInt32
deriving DecidableEq

/-- What is shown of the outcome of a run. -/
def report : Except Failure String → Report
  | .ok printed => ⟨printed, "", 0⟩
  | .error (.usage .help) => ⟨helpText ++ "\n", "", 0⟩
  | .error (.usage .version) => ⟨versionText ++ "\n", "", 0⟩
  | .error (.usage .helpOnMissingSubcommand) => ⟨"", helpText ++ "\n", 2⟩
  | .error (.usage error) => ⟨"", "error: " ++ error.message ++ "\n", 2⟩
  | .error (.run error) => ⟨"", "error: " ++ error.message ++ "\n", 1⟩

/-- Runs the program and shows the outcome. -/
def execute {m : Type → Type} [Monad m] (disk : Disk m) (now : ClockReading)
    (arguments : List String) : m Report := do
  return report (← run disk now arguments)

end Exemplar.CommandLine
