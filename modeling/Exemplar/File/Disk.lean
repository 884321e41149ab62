import Exemplar.File.Fault
import Exemplar.File.Path

/-!
# Exemplar.File.Disk

What a program can do with files, as a record of operations in any monad.  A file tree in memory
and the file system both have them.
-/

namespace Exemplar

/-- What a path leads to. -/
inductive FileKind where
  | file
  | directory
deriving DecidableEq

/-- Operations on files, by path. -/
structure Disk (m : Type → Type) where
  /-- The text of a file. -/
  readText : String → m (Except FileFault String)
  /-- Gives a file a text; a file that does not exist is made. -/
  writeText : String → String → m (Except FileFault Unit)
  /-- Makes one directory. -/
  makeDirectory : String → m (Except FileFault Unit)
  /-- The names in a directory, in any order. -/
  names : String → m (Except FileFault (List String))
  /-- What a path leads to, if to anything. -/
  kind? : String → m (Option FileKind)

namespace Disk

variable {m : Type → Type} [Monad m]

/-- A path leads to a directory. -/
def isDirectory (disk : Disk m) (path : String) : m Bool := do
  return (← disk.kind? path) = some .directory

/-- A path leads to a file or a directory. -/
def pathExists (disk : Disk m) (path : String) : m Bool := do return (← disk.kind? path).isSome

/-- Makes one directory, unless it is there. -/
def ensureDirectory (disk : Disk m) (path : String) : m (Except FileFault Unit) := do
  match ← disk.makeDirectory path with
  | .ok () => return .ok ()
  | .error fault => return if ← disk.isDirectory path then .ok () else .error fault

/-- Makes the first directory of a list of ancestors, and those of its ancestors that are
missing. -/
def ensureFirst (disk : Disk m) : List String → m (Except FileFault Unit)
  | [] => return .error .notFound
  | "" :: _ => return .ok ()
  | path :: parents => do
    match ← disk.ensureDirectory path with
    | .error .notFound =>
      match ← disk.ensureFirst parents with
      | .ok () => disk.ensureDirectory path
      | .error fault => return .error fault
    | result => return result

/-- Makes a directory and those above it that are missing. -/
def ensureDirectories (disk : Disk m) (path : String) : m (Except FileFault Unit) :=
  disk.ensureFirst (pathAncestors path)

end Disk

end Exemplar
