import Exemplar.Text.Split

/-!
# Exemplar.File.Path

Paths as texts.  A path is a sequence of parts between slashes; empty parts and single points
add nothing, except for a point at the very beginning.  An empty first part before other parts
is the root of the file system.

* `pathParts` — the parts between the slashes;
* `parentPath?` — the path without its last part that adds something;
* `pathAncestors` — a path, its parent, and so on.
-/

namespace Exemplar

/-- The parts of a path between its slashes. -/
def pathParts (path : String) : List String := (splitAtChar '/' path.toList).map String.ofList

/-- The path with the given parts. -/
def joinParts (parts : List String) : String :=
  if parts = [""] then "/" else "/".intercalate parts

/-- A part that adds nothing to the parts before it. -/
def isIdlePart (part : String) : Bool := part = "" || part = "."

/-- The parts without idle ones at the end; the first part stays. -/
def trimParts : List String → List String
  | [] => []
  | first :: rest => first :: (rest.reverse.dropWhile isIdlePart).reverse

/-- The path without its last part.  The empty path and the root have no parent. -/
def parentPath? (path : String) : Option String :=
  if path = "" then none
  else
    match trimParts (pathParts path) with
    | [""] => none
    | parts => some (joinParts (trimParts parts.dropLast))

/-- A path, its parent, the parent of that, and so on, at most `fuel` of them. -/
def ancestorsUpTo : Nat → String → List String
  | 0, _ => []
  | fuel + 1, path =>
    match parentPath? path with
    | none => [path]
    | some parent => path :: ancestorsUpTo fuel parent

/-- A path, its parent, the parent of that, and so on. -/
def pathAncestors (path : String) : List String := ancestorsUpTo (path.length + 1) path

/-- The path of a name below a path. -/
def joinPath (path name : String) : String :=
  if path = "" ∨ path.endsWith "/" then path ++ name else path ++ "/" ++ name

end Exemplar
