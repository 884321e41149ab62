import Exemplar.Filter.Apply
import Exemplar.Glob.Search
import Exemplar.Loading

/-!
# Exemplar.CommandLine.RunError

Why a command fails after its arguments have been read, and the wording: what was tried comes
before what went wrong.
-/

namespace Exemplar.CommandLine

/-- Why a command fails. -/
inductive RunError where
  /-- A pattern of paths is malformed. -/
  | malformed (error : Glob.PatternError)
  /-- A directory cannot be searched. -/
  | unsearchable (error : Glob.SearchError)
  /-- No path fits a pattern. -/
  | noMatch (pattern : String)
  /-- There is no class table, or no root type. -/
  | load (error : LoadError)
  /-- The filter fails on the sample of a type. -/
  | filter (type : Ty) (error : Filter.FilterError)
  /-- The directory of the output cannot be made. -/
  | create (path : String) (fault : FileFault)
  /-- The output cannot be written. -/
  | write (path : String) (fault : FileFault)

/-- The wording of an error about paths. -/
def unresolved (cause : String) : String := "failed to resolve model file paths: " ++ cause

/-- The wording of an error of a filter on the sample of a type. -/
def unfiltered (type : Ty) (cause : String) : String :=
  "failed to apply jq expression to sample of `" ++ type.text ++ "`: " ++ cause

/-- The wording of an error. -/
def RunError.message : RunError → String
  | malformed error => unresolved error.message
  | unsearchable error => unresolved error.message
  | noMatch pattern => unresolved ("glob pattern matched no files: " ++ pattern)
  | load error => error.fullMessage
  | filter type error => unfiltered type error.fullMessage
  | create path fault => "failed to create " ++ path ++ ": " ++ fault.message
  | write path fault => "failed to write " ++ path ++ ": " ++ fault.message

end Exemplar.CommandLine
