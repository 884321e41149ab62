import Exemplar.Filter.Parser
import Exemplar.Json.Reader

/-!
# Exemplar.Filter.Apply

Applying the text of a filter to a JSON value.  The outputs are written as JSON text and read
back, so an output that is nested too deeply to be read, or that is no JSON number, is an error.
The form of the filter comes first, then its names, then its outputs in order; the first fault
counts.
-/

namespace Exemplar.Filter

/-- Why a filter has no outputs. -/
inductive FilterError where
  | form (fault : FormFault)
  | undefined (names : List Undefined) (text : String)
  | fault (fault : Fault)
  | notJson (text : String) (error : DocumentError)

namespace FilterError

/-- The wording of an error. -/
def message : FilterError → String
  | form f => "jq parse error: " ++ f.message
  | undefined names text => "\n".intercalate (names.map (·.message text))
  | fault f => "jq runtime error: " ++ f.message
  | notJson text _ => "jq produced non-JSON output `" ++ text ++ "`"

/-- The wording of an error with its cause. -/
def fullMessage : FilterError → String
  | notJson text error => (notJson text error).message ++ ": " ++ error.message
  | error => error.message

end FilterError

/-- The JSON value that an output is read back as. -/
def readBack (value : Value) : Except FilterError Json :=
  (Json.read value.text).mapError (.notJson value.text)

/-- The outputs of a term, read back. -/
def Term.outputs (term : Term) (input : Json) : Except FilterError (List Json) :=
  (term.run (.ofJson input)).mapM fun outcome => do
    readBack (← outcome.mapError .fault)

/-- The outputs of a filter. -/
def apply (text : String) (input : Json) : Except FilterError (List Json) := do
  let term ← (Term.parse text).mapError .form
  match term.undefined with
  | [] => term.outputs input
  | names => .error (.undefined names text)

end Exemplar.Filter
