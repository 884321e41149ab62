import Exemplar.CommandLine.Command
import Exemplar.CommandLine.RunError

/-!
# Exemplar.CommandLine.ModelFiles

The class table that a command works on.  Its files are named by paths and by patterns of paths;
an argument with a wildcard, or with an opening brace, is a pattern.  A pattern stands for the
paths that fit it, in order, and there has to be one.

All patterns are looked up before any file is read, and all files are read before their classes
are put together.

* `findFiles` — the paths that arguments stand for;
* `loadTable` — the table of the documents in these files.
-/

namespace Exemplar.CommandLine

section ModelFiles

variable {m : Type → Type} [Monad m] (disk : Disk m)

/-- An argument is a pattern of paths. -/
def isPattern (argument : String) : Bool :=
  argument.toList.any fun c => c = '*' || c = '?' || c = '[' || c = '\x7b'

/-- The paths that fit a pattern. -/
def findMatching (pattern : String) : ExceptT RunError m (List String) := do
  match Glob.PathPattern.compile pattern with
  | .error error => throw (.malformed error)
  | .ok compiled =>
    match ← disk.search compiled with
    | .error error => throw (.unsearchable error)
    | .ok [] => throw (.noMatch pattern)
    | .ok paths => return paths

/-- The paths that an argument stands for. -/
def findFile (argument : String) : ExceptT RunError m (List String) :=
  if isPattern argument then findMatching disk argument else return [argument]

/-- The paths that arguments stand for. -/
def findFiles (arguments : List String) : ExceptT RunError m (List String) := do
  return (← arguments.mapM (findFile disk)).flatten

/-- Reads the document of a file. -/
def readDocument (pointer : Option String) (path : String) : ExceptT RunError m Document := do
  let contents ← disk.readText path
  liftExcept ((Document.ofFile path contents pointer).mapError RunError.load)

/-- The class table that options ask for. -/
def loadTable (options : ModelOptions) : ExceptT RunError m ClassTable := do
  let paths ← findFiles disk options.files
  let documents ← paths.mapM (readDocument disk options.pointer)
  liftExcept ((ClassTable.ofDocuments documents).mapError fun error => RunError.load (.build error))

end ModelFiles

end Exemplar.CommandLine
