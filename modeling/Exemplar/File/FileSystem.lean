import Exemplar.File.Disk
import Exemplar.File.Tree

/-!
# Exemplar.File.FileSystem

A file system in memory: a tree of files, and the directory in it that paths start from.  A path
that begins with a slash starts from the root.  A point stays where it is, two points lead up, and
nothing lies above the root.  Every part before the last has to be a directory, and a slash at the
end asks for one, too.  Names have at most 255 bytes, and paths at most 4095.

* `FileSystem.locate` — the names from the root to what a path leads to;
* `FileSystem.readText`, `write`, `makeDirectory`, `names`, `kind?` — the operations;
* `FileSystem.disk` — the operations with the file system as the state.
-/

namespace Exemplar

/-- A tree of files with the place in it that paths start from. -/
structure FileSystem where
  root : FileTree
  current : List String

namespace FileSystem

/-- The file system with files in the directory that paths start from. -/
def ofFiles (current : List String) (files : List (String × ByteArray)) : FileSystem where
  root := current.foldr (fun name below => .directory [(name, below)]) (FileTree.ofFiles files)
  current := current

/-- The files in the directory that paths start from, and below it. -/
def files (system : FileSystem) : List (String × ByteArray) :=
  match system.root.at? system.current with
  | some tree => tree.files ""
  | none => []

/-! ## places -/

/-- Follows one part of a path from a place, which is given by its names, the last one first. -/
def step (system : FileSystem) (place : List String) (part : String) :
    Except FileFault (List String) :=
  match system.root.at? place.reverse with
  | none => .error .notFound
  | some (.file _) => .error .notDirectory
  | some (.directory entries) =>
    if isIdlePart part then .ok place
    else if part = ".." then .ok place.tail
    else if 255 < part.utf8ByteSize then .error .nameTooLong
    else if entries.any (·.1 = part) then .ok (part :: place)
    else .error .notFound

/-- Follows parts of a path from the place where the path starts. -/
def follow (system : FileSystem) (path : String) (parts : List String) :
    Except FileFault (List String) :=
  if '\x00' ∈ path.toList then .error .nulInName
  else if path = "" then .error .notFound
  else if 4095 < path.utf8ByteSize then .error .nameTooLong
  else
    let start := if path.startsWith "/" then [] else system.current.reverse
    parts.foldlM system.step start

/-- The names from the root to what a path leads to, the last one first. -/
def locate (system : FileSystem) (path : String) : Except FileFault (List String) :=
  system.follow path (pathParts path)

/-- What a path leads to. -/
def find (system : FileSystem) (path : String) : Except FileFault FileTree := do
  let place ← system.locate path
  match system.root.at? place.reverse with
  | some found => return found
  | none => .error .notFound

/-- The directory that the last name of a path belongs to, as its names with the last one first,
and that name; a path that ends in points, or that is the root, has no last name. -/
def locateLast (system : FileSystem) (path : String) :
    Except FileFault (List String × Option String) := do
  let parts := (pathParts path).filter (· ≠ "")
  let place ← system.follow path parts.dropLast
  match system.root.at? place.reverse with
  | some (.directory _) =>
    return (place, parts.getLast?.filter fun name => name ≠ "." && name ≠ "..")
  | some (.file _) => .error .notDirectory
  | none => .error .notFound

/-! ## operations -/

/-- The text of a file. -/
def readText (system : FileSystem) (path : String) : Except FileFault String := do
  match ← system.find path with
  | .directory _ => .error .isDirectory
  | .file content =>
    match String.fromUTF8? content with
    | some text => return text
    | none => .error .notText

/-- The file system with a tree at a place, which is given by its names, the last one first. -/
def put (system : FileSystem) (tree : FileTree) (place : List String) : FileSystem :=
  { system with root := tree.put place.reverse system.root }

/-- The file system after giving a file its bytes. -/
def write (system : FileSystem) (path : String) (content : ByteArray) :
    Except FileFault FileSystem := do
  match ← system.locateLast path with
  | (_, none) => .error .isDirectory
  | (place, some name) =>
    if path.endsWith "/" then .error .isDirectory
    else if 255 < name.utf8ByteSize then .error .nameTooLong
    else
      match system.root.at? (name :: place).reverse with
      | some (.directory _) => .error .isDirectory
      | _ => return system.put (.file content) (name :: place)

/-- The file system after making a directory. -/
def makeDirectory (system : FileSystem) (path : String) : Except FileFault FileSystem := do
  match ← system.locateLast path with
  | (_, none) => .error .alreadyExists
  | (place, some name) =>
    if 255 < name.utf8ByteSize then .error .nameTooLong
    else if (system.root.at? (name :: place).reverse).isSome then .error .alreadyExists
    else return system.put (.directory []) (name :: place)

/-- The names in a directory. -/
def names (system : FileSystem) (path : String) : Except FileFault (List String) := do
  match ← system.find path with
  | .directory entries => return entries.map (·.1)
  | .file _ => .error .notDirectory

/-- What a path leads to, if to anything. -/
def kind? (system : FileSystem) (path : String) : Option FileKind :=
  match system.find path with
  | .ok (.file _) => some .file
  | .ok (.directory _) => some .directory
  | .error _ => none

/-- Changes the file system that is the state, unless the change fails. -/
def change (f : FileSystem → Except FileFault FileSystem) :
    StateM FileSystem (Except FileFault Unit) :=
  modifyGet fun system =>
    match f system with
    | .ok system => (.ok (), system)
    | .error fault => (.error fault, system)

/-- The operations on a file system. -/
def disk : Disk (StateM FileSystem) where
  readText path := return (← get).readText path
  writeText path text := change (·.write path text.toUTF8)
  makeDirectory path := change (·.makeDirectory path)
  names path := return (← get).names path
  kind? path := return (← get).kind? path

end FileSystem

end Exemplar
