import Exemplar.CommandLine.Report
import Std.Time.Zoned

/-!
# Exemplar.Main

The program: its arguments, the files of the system, the clock, and the streams.
-/

namespace Exemplar

/-! ## files -/

/-- The number of a system error; it may have been stored with its sign turned. -/
def errorNumber (code : UInt32) : Nat :=
  if code.toNat < 2147483648 then code.toNat else 4294967296 - code.toNat

/-- The fault behind a failed operation. -/
def faultOf : IO.Error → FileFault
  | .noFileOrDirectory _ _ _ => .notFound
  | .alreadyExists _ _ _ => .alreadyExists
  | .inappropriateType _ code details =>
    match errorNumber code with
    | 20 => .notDirectory
    | 21 => .isDirectory
    | n => .other (details ++ " (os error " ++ toString n ++ ")")
  | .invalidArgument _ code details =>
    match errorNumber code with
    | 36 => .nameTooLong
    | n => .other (details ++ " (os error " ++ toString n ++ ")")
  | error => .other (toString error)

/-- Runs an operation on a path that may fail. -/
def attempt {α : Type} (path : String) (operation : IO (Except FileFault α)) :
    IO (Except FileFault α) := do
  if '\x00' ∈ path.toList then return .error .nulInName
  try operation
  catch error => return .error (faultOf error)

/-- The operations on the files of the system. -/
def systemDisk : Disk IO where
  readText path := attempt path do
    match String.fromUTF8? (← IO.FS.readBinFile path) with
    | some text => return .ok text
    | none => return .error .notText
  writeText path text := attempt path do
    IO.FS.writeFile path text
    return .ok ()
  makeDirectory path := attempt path do
    IO.FS.createDir path
    return .ok ()
  names path := attempt path do
    let entries ← (← IO.FS.realPath path).readDir
    return .ok (entries.toList.map (·.fileName))
  kind? path := do
    try
      let isDirectory ← (← IO.FS.realPath path).isDir
      return some (if isDirectory then .directory else .file)
    catch _ => return none

/-! ## clock -/

/-- The reading of the local clock. -/
def ClockReading.now : IO ClockReading := do
  let now ← Std.Time.DateTime.now
  return {
    year := now.year.toInt
    month := now.month.val.toNat
    day := now.day.val.toNat
    hour := now.hour.val.toNat
    minute := now.minute.val.toNat
    second := now.second.val.toNat
    offset := now.offset.second.val / 60
    nanosecond := now.nanosecond.val.toNat }

end Exemplar

/-- Runs the program on its arguments. -/
def main (arguments : List String) : IO UInt32 := do
  let now ← Exemplar.ClockReading.now
  let report ← Exemplar.CommandLine.execute Exemplar.systemDisk now arguments
  IO.print report.output
  IO.eprint report.errors
  return report.code
