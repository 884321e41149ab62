import Exemplar.Proofs.Json.Entries
import Exemplar.Proofs.Sampler.Values
import Exemplar.Registry.Builtin

/-!
# Exemplar.Proofs.Registry.Rules

What holds of all rules of a registry.  A property of rules is kept when a
rule that has it is given to a name, so it holds of the built-in registry if
it holds of the few values that are given there, and it is kept by look-ups if
counters keep it as they advance.

* `all_builtin` — the built-in rules;
* `fst_run_lookup` — an answer is the value of a rule;
* `lookup_yields` — the answers of a registry;
* `lookup_yields_fixed` — the answers of one without counters.
-/

namespace Exemplar

namespace Rule

/-- The value that a rule gives. -/
def value : Rule → Json
  | fixed value => value
  | counter next => .ofInt next

/-- What the rule is once it has given a value. -/
def next : Rule → Rule
  | fixed value => fixed value
  | counter next => counter (next + 1)

end Rule

namespace Registry

/-- All rules have a property. -/
def All (Q : Rule → Prop) (registry : Registry) : Prop :=
  ∀ name rule, registry.rule? name = some rule → Q rule

/-! ## giving names rules -/

/-- A name that is registered has its new rule, and the others keep theirs. -/
theorem rule?_register (registry : Registry) (name other : String) (rule : Rule) :
    (registry.register name rule).rule? other =
      if name = other then some rule else registry.rule? other :=
  Json.entry?_insertEntry registry.rules name other rule

/-- A name keeps the rule that it has. -/
theorem register_of_rule? {registry : Registry} {name : String} {rule : Rule}
    (h : registry.rule? name = some rule) : registry.register name rule = registry :=
  congrArg Registry.mk (Json.insertEntry_of_entry? h)

/-- All names of a list have the same new rule. -/
theorem rule?_registerAll (registry : Registry) (names : List String) (value : Json)
    (other : String) : (registry.registerAll names value).rule? other =
      if other ∈ names then some (.fixed value) else registry.rule? other := by
  rw [Registry.registerAll]
  induction names generalizing registry with
  | nil => rfl
  | cons name rest ih =>
      rw [List.foldl_cons, ih, rule?_register]
      by_cases hrest : other ∈ rest
      · rw [if_pos hrest, if_pos (List.mem_cons_of_mem name hrest)]
      · by_cases hname : name = other <;> simp [hrest, hname, Ne.symm]

section

variable {Q : Rule → Prop} {registry : Registry}

theorem all_empty : empty.All Q := fun _ _ h => by contradiction

/-- Registering a rule with a property keeps it for all rules. -/
theorem All.register (h : registry.All Q) {name : String} {rule : Rule} (hrule : Q rule) :
    (registry.register name rule).All Q := by
  intro other found hfound
  rw [rule?_register] at hfound
  split at hfound
  · cases hfound
    exact hrule
  · exact h other found hfound

theorem All.registerAll (h : registry.All Q) {value : Json} (hvalue : Q (.fixed value))
    (names : List String) : (registry.registerAll names value).All Q := by
  rw [Registry.registerAll]
  induction names generalizing registry with
  | nil => exact h
  | cons name rest ih => exact ih (h.register hvalue)

/-! ## built-in rules -/

/-- So does the placeholder for texts. -/
theorem All.withPlaceholder (h : registry.All Q) {placeholder : String}
    (htext : Q (.fixed (.string placeholder))) : (registry.withPlaceholder placeholder).All Q :=
  h.registerAll htext textTypes

/-- The built-in rules are a few values: zero twice, false, texts, the year,
and the empty trees. -/
theorem all_builtin (hzero : Q (.fixed .zero)) (hdouble : Q (.fixed .doubleZero))
    (htruth : Q (.fixed (.bool false))) (htext : ∀ text, Q (.fixed (.string text)))
    (harray : Q (.fixed (.array []))) (hobject : Q (.fixed (.object []))) {now : ClockReading}
    (hyear : Q (.fixed (.ofInt now.year))) : (builtin now).All Q := by
  have hscalars : empty.withScalars.All Q := by
    unfold withScalars
    iterate 3 refine All.registerAll ?_ (htext _) _
    refine All.withPlaceholder ?_ (htext _)
    exact ((all_empty.registerAll hzero _).registerAll hdouble _).registerAll htruth _
  have htimes : (empty.withScalars.withTimes now).All Q := by
    unfold withTimes
    refine All.registerAll (All.registerAll ?_ hyear _) (htext _) _
    iterate 4 refine All.registerAll ?_ (htext _) _
    exact hscalars
  exact (htimes.registerAll harray _).registerAll hobject _

/-- The types with a built-in rule. -/
def builtinTypes : List String :=
  integerTypes ++ fractionTypes ++ truthTypes ++ textTypes ++
    ["java.util.UUID", "java.util.Locale", "java.util.Currency"] ++ dateTimeTypes ++ dateTypes ++
    timeTypes ++ instantTypes ++ ["java.time.Year", "java.time.Duration"] ++ arrayTreeTypes ++
    objectTreeTypes

/-- A name that is not built in has no built-in rule. -/
theorem rule?_builtin_of_not_mem (now : ClockReading) {name : String} (h : name ∉ builtinTypes) :
    (builtin now).rule? name = none := by
  simp only [builtinTypes, List.mem_append, List.mem_cons, not_or] at h
  simp [builtin, withTrees, withTimes, withScalars, withPlaceholder, rule?_registerAll, h]
  rfl

/-! ## answers -/

/-- Without a rule a look-up finds nothing and changes nothing. -/
theorem run_lookup_of_eq_none {text : String} (h : registry.rule? (rawName text) = none) :
    (lookup text).run registry = (none, registry) := by
  have hget : (get : StateM Registry Registry).run registry = pure (registry, registry) := rfl
  rw [lookup, StateT.run_bind, hget, pure_bind, h]
  rfl

/-- A rule gives its value, and is then the next one. -/
theorem run_lookup_of_eq_some {text : String} {rule : Rule}
    (h : registry.rule? (rawName text) = some rule) :
    (lookup text).run registry = (some rule.value, registry.register (rawName text) rule.next) := by
  have hget : (get : StateM Registry Registry).run registry = pure (registry, registry) := rfl
  rw [lookup, StateT.run_bind, hget, pure_bind, h]
  cases rule with
  | fixed value =>
      rw [Rule.next, register_of_rule? h]
      rfl
  | counter next => rfl

/-- The answer for a text is the value of the rule of its raw name. -/
theorem fst_run_lookup (registry : Registry) (text : String) :
    ((lookup text).run registry).1 = (registry.rule? (rawName text)).map Rule.value := by
  cases hrule : registry.rule? (rawName text) with
  | none => rw [run_lookup_of_eq_none hrule]; rfl
  | some rule => rw [run_lookup_of_eq_some hrule]; rfl

/-- The answers of a registry are its values, and the numbers of counters. -/
theorem lookup_yields {Q' : Json → Prop} (hvalue : ∀ value, Q (.fixed value) → Q' value)
    (hcounter : ∀ next, Q (.counter next) → Q (.counter (next + 1)) ∧ Q' (.ofInt next))
    (text : String) : Sampler.Yields (All Q) Q' (lookup text) := by
  have hnext : ∀ rule, Q rule → Q rule.next ∧ Q' rule.value := by
    intro rule hQ
    cases rule with
    | fixed value => exact ⟨hQ, hvalue value hQ⟩
    | counter next => exact hcounter next hQ
  intro r hr
  cases hrule : r.rule? (rawName text) with
  | none =>
      rw [run_lookup_of_eq_none hrule]
      exact ⟨hr, fun value h => by contradiction⟩
  | some rule =>
      obtain ⟨hQ, hQ'⟩ := hnext rule (hr _ _ hrule)
      rw [run_lookup_of_eq_some hrule]
      refine ⟨hr.register hQ, fun value h => ?_⟩
      cases h
      exact hQ'

/-- The rule is a fixed value that has a property. -/
def IsFixedWith (Q : Json → Prop) (rule : Rule) : Prop := ∃ value, rule = .fixed value ∧ Q value

/-- Without counters the answers are the values. -/
theorem lookup_yields_fixed {Q : Json → Prop} (text : String) :
    Sampler.Yields (All (IsFixedWith Q)) Q (lookup text) := by
  refine lookup_yields ?_ ?_ text
  · rintro _ ⟨value, ⟨⟩, hvalue⟩
    exact hvalue
  · rintro next ⟨value, heq, _⟩
    contradiction

end

end Registry

end Exemplar
