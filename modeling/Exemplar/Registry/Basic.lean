import Exemplar.Json.Basic
import Exemplar.Text.Blank

/-!
# Exemplar.Registry.Basic

Types whose sample is known without looking into them.  A registry has one rule for each name, in
the order in which the names came; a rule is a value, or a counter that gives a fresh number for
each look-up.  Type arguments do not matter for a look-up.

* `rawName` — the text of a type without its arguments;
* `Registry.register` — a rule for a name, in the place of an earlier one;
* `Registry.lookup` — the value for a type; counters advance.

Left out: rules that compute a value in any other way, such as from the time of the look-up, from
a file, or from a number that several names share.  A counter is the only rule here with a state,
and its state is its own.
-/

namespace Exemplar

/-- How a registry makes a value: always the same one, or the next number. -/
inductive Rule where
  | fixed (value : Json)
  | counter (next : Int)

/-- The text before the first `<`, without blanks at its end; a text without `<` loses the blanks
on both sides. -/
def rawName (text : String) : String :=
  let s := text.toList
  if '<' ∈ s then String.ofList (trimEnd (s.takeWhile (· ≠ '<'))) else String.ofList (trim s)

/-- Rules by name, in order. -/
structure Registry where
  rules : List (String × Rule)

namespace Registry

/-- No rules. -/
def empty : Registry := ⟨[]⟩

instance : EmptyCollection Registry := ⟨empty⟩

/-- Gives a name a rule. -/
def register (registry : Registry) (name : String) (rule : Rule) : Registry :=
  ⟨Json.insertEntry name rule registry.rules⟩

/-- Gives each name of a list the same value. -/
def registerAll (registry : Registry) (names : List String) (value : Json) : Registry :=
  names.foldl (fun registry name => registry.register name (.fixed value)) registry

/-- The rule of a name. -/
def rule? (registry : Registry) (name : String) : Option Rule := Json.entry? registry.rules name

/-- There is a rule for a name. -/
def contains (registry : Registry) (name : String) : Bool := (registry.rule? name).isSome

/-- The number of rules. -/
def size (registry : Registry) : Nat := registry.rules.length

/-- There are no rules. -/
def isEmpty (registry : Registry) : Bool := registry.rules.isEmpty

/-- The value for the type of a text, if there is a rule for it. -/
def lookup (text : String) : StateM Registry (Option Json) := do
  match (← get).rule? (rawName text) with
  | none => return none
  | some (.fixed value) => return some value
  | some (.counter next) =>
    modify (·.register (rawName text) (.counter (next + 1)))
    return some (.ofInt next)

end Registry

end Exemplar
