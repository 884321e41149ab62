import Exemplar.CommandLine.ModelFiles
import Exemplar.CommandLine.Output

/-!
# Exemplar.CommandLine.Run

Running the program on its arguments.  The whole output is made before anything is written, and
it goes to the file that is asked for or else is printed.  An idle command reads and writes no
file.

* `Command.run` — runs a command;
* `run` — reads arguments and runs the command.

Both give the text that is printed.

Left out: the list of all options that an idle command writes to the error channel, and the notes
on files being read that a verbose log would hold.  Neither is part of the output.
-/

namespace Exemplar.CommandLine

/-- Why the program fails. -/
inductive Failure where
  | usage (error : UsageError)
  | run (error : RunError)

section Run

variable {m : Type → Type} [Monad m] (disk : Disk m)

/-- Makes the directories above a file that are missing. -/
def makeParents (path : String) : ExceptT RunError m Unit := do
  match parentPath? path with
  | none => return ()
  | some parent =>
    match ← disk.ensureDirectories parent with
    | .ok () => return ()
    | .error fault => throw (.create parent fault)

/-- Writes a text to a file. -/
def writeFile (path text : String) : ExceptT RunError m Unit := do
  match ← disk.writeText path text with
  | .ok () => return ()
  | .error fault => throw (.write path fault)

/-- Writes a text to a file, and makes the directories above it that are missing. -/
def writeOutput (path text : String) : ExceptT RunError m Unit := do
  makeParents disk path
  writeFile disk path text

/-- Hands out a text: to a file, or else to print. -/
def deliver (out : Option String) (text : String) : ExceptT RunError m String := do
  match out with
  | none => return text ++ "\n"
  | some path =>
    writeOutput disk path text
    return ""

/-- The output of a task. -/
def Task.output (task : Task) (now : ClockReading) : ExceptT RunError m String := do
  let table ← loadTable disk task.model
  liftExcept (task.text now table)

/-- Runs a command; an idle one prints nothing. -/
def Command.run (command : Command) (now : ClockReading) : ExceptT RunError m String := do
  if command.isIdle then return ""
  else deliver disk command.out (← command.task.output disk now)

/-- Reads arguments and runs the command. -/
def run (now : ClockReading) (arguments : List String) : m (Except Failure String) := do
  match Command.read arguments with
  | .error error => return .error (.usage error)
  | .ok command =>
    match ← (command.run disk now).run with
    | .error error => return .error (.run error)
    | .ok printed => return .ok printed

end Run

end Exemplar.CommandLine
