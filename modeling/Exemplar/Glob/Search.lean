import Exemplar.File.Disk
import Exemplar.Glob.Pattern

/-!
# Exemplar.Glob.Search

The paths that fit a pattern.  The pattern is taken apart at the slashes, and each part is
matched against the names in one directory; names come in ascending order, and what lies below a
name comes before the next name.  A part without wildcards is not searched for: it only has to be
there.  A part of two stars fits every directory below, and the directory itself.

A pattern with a slash at its end fits directories only.  A part that begins with a point can
also fit the entries `.` and `..`, which come before all names.

Every step down makes the path longer, and no path has more than 4096 bytes, which bounds the
search.
-/

namespace Exemplar

namespace Glob

/-- A part of a pattern, between slashes. -/
structure Segment where
  text : String
  tokens : List Token

/-- The part has no wildcards. -/
def Segment.isLiteral (s : Segment) : Bool :=
  s.tokens.all fun token => match token with
    | .char _ => true
    | _ => false

/-- The part is two stars. -/
def Segment.isRecursive (s : Segment) : Bool := s.tokens.contains .anyDirectories

/-- The part fits a name. -/
def Segment.fits (s : Segment) (name : String) : Bool := Glob.fits s.tokens name.toList

/-- The part begins with a point. -/
def Segment.startsWithPoint (s : Segment) : Bool := s.tokens.head? = some (.char '.')

/-- A compiled pattern for paths. -/
structure PathPattern where
  /-- The directory in which the search starts. -/
  start : String
  segments : List Segment
  directoriesOnly : Bool

/-- The parts between slashes; a slash at the end begins no part. -/
def terminatedParts (path : String) : List String :=
  let parts := pathParts path
  if parts.getLast? = some "" then parts.dropLast else parts

/-- Compiles the text of a pattern, first as a whole and then part by part. -/
def PathPattern.compile (text : String) : Except PatternError PathPattern := do
  let _ ← Glob.compile text.toList
  let parts := terminatedParts text
  let (start, parts) := match parts with
    | "" :: rest => ("/", rest)
    | parts => (".", parts)
  let segments ← parts.mapM fun part => do
    let tokens ← Glob.compile part.toList
    return (⟨part, tokens⟩ : Segment)
  return ⟨start, segments, text.endsWith "/"⟩

/-- A directory that cannot be searched. -/
structure SearchError where
  path : String
  fault : FileFault
deriving DecidableEq

/-- The wording of an error. -/
def SearchError.message (e : SearchError) : String :=
  "attempting to read `" ++ e.path ++ "` resulted in an error: " ++ e.fault.message

section Search

variable {m : Type → Type} [Monad m] (disk : Disk m) (directoriesOnly : Bool)

/-- The path of a name in the directory of a search; the starting point is left out. -/
def extend (path name : String) : String :=
  if trimParts (pathParts path) = ["."] then name else joinPath path name

/-- The segments from the last of the recursive ones at the beginning. -/
def dropRepeated : List Segment → List Segment
  | first :: second :: rest =>
    if first.isRecursive ∧ second.isRecursive then dropRepeated (second :: rest)
    else first :: second :: rest
  | segments => segments

/-- Runs searches one after the other and puts their results together. -/
def gather {α : Type} (search : α → ExceptT SearchError m (List String)) (items : List α) :
    ExceptT SearchError m (List String) := do
  return (← items.mapM search).flatten

mutual

/-- The paths below a path that fit segments.  The first argument bounds the steps. -/
def below : Nat → List Segment → String → ExceptT SearchError m (List String)
  | 0, _, _ | _, [], _ => return []
  | fuel + 1, segment :: rest, path => do
    let isDirectory ← disk.isDirectory path
    if segment.isLiteral then
      let next := extend path segment.text
      let isSpecial := segment.text = "." ∨ segment.text = ".."
      let isThere ← if isSpecial then pure isDirectory else disk.pathExists next
      if isThere then reached fuel rest next else return []
    else if isDirectory then
      match ← disk.names path with
      | .error fault => throw ⟨path, fault⟩
      | .ok names =>
        let names := names.mergeSort fun a b => a ≤ b
        let specials := if segment.startsWithPoint then ["..", "."].filter segment.fits else []
        let special ← gather (fun name => reached fuel rest (joinPath path name)) specials
        let listed ← gather (fun name => visit fuel (segment :: rest) (extend path name) name) names
        return special ++ listed
    else return []

/-- The paths that fit the segments after one that fits the given path. -/
def reached : Nat → List Segment → String → ExceptT SearchError m (List String)
  | 0, _, _ => return []
  | _ + 1, [], path => do
    if directoriesOnly then return if ← disk.isDirectory path then [path] else []
    return [path]
  | fuel + 1, segments, path => below fuel segments path

/-- The paths at or below a path, with the given name, that fit segments. -/
def visit : Nat → List Segment → String → String → ExceptT SearchError m (List String)
  | 0, _, _, _ => return []
  | fuel + 1, segments, path, name =>
    match dropRepeated segments with
    | [] => return []
    | segment :: rest => do
      if segment.isRecursive then
        let isDirectory ← disk.isDirectory path
        let here ← match rest with
          | [] => pure (if isDirectory then [path] else [])
          | next :: more => if next.fits name then reached fuel more path else pure []
        let deeper ← if isDirectory then below fuel (segment :: rest) path else pure []
        return here ++ deeper
      else if segment.fits name then reached fuel rest path
      else return []

end

end Search

/-- The greatest number of bytes in a path. -/
def longestPath : Nat := 4096

end Glob

/-- The paths that fit a pattern, in order. -/
def Disk.search {m : Type → Type} [Monad m] (disk : Disk m) (pattern : Glob.PathPattern) :
    m (Except Glob.SearchError (List String)) :=
  let fuel := 4 * (Glob.longestPath + pattern.segments.length)
  (Glob.below disk pattern.directoriesOnly fuel pattern.segments pattern.start).run

end Exemplar
