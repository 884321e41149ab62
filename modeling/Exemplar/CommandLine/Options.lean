/-!
# Exemplar.CommandLine.Options

Reading the options of a command.  An option is written with two dashes and its name, or with one
dash and its letter; letters without values can share a dash.  A value is attached, `--out=x`,
`-ox` or `-o=x`, or it is the next argument; an option of many values takes all arguments up to
the next one that begins with a dash.  An attached value is the only one.

Nothing else can stand among the options.  Two dashes alone end them, and nothing may follow.

* `readOptions` — the values that are given for each option;
* `UsageError` — why arguments cannot be read; what is noticed first counts.
-/

namespace Exemplar.CommandLine

/-! ## options -/

/-- The options. -/
inductive OptionName where
  | model
  | jsonPointer
  | root
  | jqExpr
  | stringPlaceholder
  | compact
  | all
  | out
  | noOp
  | help
  | version
deriving DecidableEq

/-- What values an option takes. -/
inductive Arity where
  /-- None; the option is given or not. -/
  | flag
  /-- One, and the option is given once. -/
  | one
  /-- One that is not empty, and the option is given once. -/
  | path
  /-- One or more, each time that the option is given. -/
  | many
  /-- None; the option asks for a help text. -/
  | help
  /-- None; the option asks for the version. -/
  | version
deriving DecidableEq

/-- The option takes values. -/
def Arity.takesValues : Arity → Bool
  | one | path | many => true
  | flag | help | version => false

/-- An option of a command. -/
structure OptionForm where
  name : OptionName
  long : String
  short : Option Char
  arity : Arity
  isRequired : Bool
deriving DecidableEq

/-- Why arguments cannot be read, or what is asked for instead. -/
inductive UsageError where
  | missingRequired
  | unknownArgument
  | invalidSubcommand
  | invalidValue
  | tooManyValues
  | argumentConflict
  | help
  | helpOnMissingSubcommand
  | version
deriving DecidableEq

/-! ## reading -/

/-- How far options have been read. -/
structure OptionReading where
  /-- The options that are finished, with their values, in order. -/
  given : List (OptionName × List String)
  /-- The option whose values are being read, with those read so far, in order. -/
  pending : Option (OptionForm × List String)
  /-- The next argument can be a value of the pending option. -/
  isOpen : Bool

namespace OptionReading

/-- No options yet. -/
def start : OptionReading := ⟨[], none, false⟩

/-- Finishes an option with its values. -/
def record (form : OptionForm) (values : List String) (reading : OptionReading) :
    Except UsageError OptionReading :=
  let next := { reading with given := reading.given ++ [(form.name, values)] }
  let isGiven := reading.given.any (·.1 = form.name)
  match form.arity with
  | .help => .error .help
  | .version => .error .version
  | .flag => if isGiven then .error .argumentConflict else .ok next
  | .many => if values.isEmpty then .error .invalidValue else .ok next
  | .one =>
    if values.isEmpty then .error .invalidValue
    else if isGiven then .error .argumentConflict
    else .ok next
  | .path =>
    if values.isEmpty then .error .invalidValue
    else if isGiven then .error .argumentConflict
    else if "" ∈ values then .error .invalidValue
    else .ok next

/-- Finishes the pending option. -/
def settle (reading : OptionReading) : Except UsageError OptionReading :=
  match reading.pending with
  | none => .ok { reading with isOpen := false }
  | some (form, values) => record form values { reading with pending := none, isOpen := false }

/-- Reads an option that takes values, with the value that is attached to it. -/
def begin (form : OptionForm) (attached : Option String) (reading : OptionReading) :
    Except UsageError OptionReading := do
  let reading ← reading.settle
  match attached with
  | some value => record form [value] reading
  | none => return { reading with pending := some (form, []), isOpen := true }

/-- Reads an option that takes no values. -/
def raise (form : OptionForm) (reading : OptionReading) : Except UsageError OptionReading := do
  record form [] (← reading.settle)

/-- Takes a value for the pending option. -/
def take (value : String) (reading : OptionReading) : Except UsageError OptionReading :=
  match reading.isOpen, reading.pending with
  | true, some (form, values) =>
    .ok { reading with
      pending := some (form, values ++ [value])
      isOpen := form.arity = .many }
  | _, _ => .error .unknownArgument

end OptionReading

/-- What an argument is by its form. -/
inductive ArgumentForm where
  /-- Two dashes alone. -/
  | divider
  | long (name : String) (attached : Option String)
  | short (letters : List Char)
  | value (text : String)

/-- The form of an argument. -/
def ArgumentForm.of (argument : String) : ArgumentForm :=
  match argument.toList with
  | ['-', '-'] => divider
  | '-' :: '-' :: rest =>
    match rest.dropWhile (· ≠ '=') with
    | '=' :: attached =>
      long (String.ofList (rest.takeWhile (· ≠ '='))) (some (String.ofList attached))
    | _ => long (String.ofList rest) none
  | '-' :: c :: rest => short (c :: rest)
  | _ => value argument

/-- Reads the option of a long name. -/
def readLong (forms : List OptionForm) (name : String) (attached : Option String)
    (reading : OptionReading) : Except UsageError OptionReading :=
  match forms.find? (·.long = name) with
  | none => .error .unknownArgument
  | some form =>
    if form.arity.takesValues then reading.begin form attached
    else if attached.isSome then .error .tooManyValues
    else reading.raise form

/-- The value that is attached to a letter; an equals sign before it does not belong to it. -/
def attachedTo : List Char → Option String
  | [] => none
  | '=' :: value => some (String.ofList value)
  | value => some (String.ofList value)

/-- Reads the options of letters behind one dash. -/
def readShort (forms : List OptionForm) :
    List Char → OptionReading → Except UsageError OptionReading
  | [], reading => .ok reading
  | letter :: rest, reading =>
    match forms.find? (·.short = some letter) with
    | none => .error .unknownArgument
    | some form =>
      if form.arity.takesValues then reading.begin form (attachedTo rest)
      else do readShort forms rest (← reading.raise form)

/-- Reads arguments. -/
def readArguments (forms : List OptionForm) :
    List String → OptionReading → Except UsageError OptionReading
  | [], reading => reading.settle
  | argument :: rest, reading =>
    match ArgumentForm.of argument with
    | .divider => if rest.isEmpty then reading.settle else .error .unknownArgument
    | .long name attached => do readArguments forms rest (← readLong forms name attached reading)
    | .short letters => do readArguments forms rest (← readShort forms letters reading)
    | .value text => do readArguments forms rest (← reading.take text)

/-- The values that are given for each option.  Every required option has to be given. -/
def readOptions (forms : List OptionForm) (arguments : List String) :
    Except UsageError (List (OptionName × List String)) := do
  let given := (← readArguments forms arguments .start).given
  if forms.all fun form => !form.isRequired || given.any (·.1 = form.name) then return given
  else .error .missingRequired

end Exemplar.CommandLine
