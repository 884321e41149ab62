import Exemplar.Proofs.Sampler.Fixed
import Exemplar.Proofs.TypeTerm.Grammar
import Mathlib.Data.Finset.Dedup
import Mathlib.Data.Finset.Card

/-!
# Exemplar.Proofs.Registry.History

What a registry answers after any history of changes.  A change gives rules to
names: to one name, or to all types of texts at once.  A class is asked for by
its name, whatever arguments are written on it; it has the last rule that its
name was given, and without one the rule that it had at the start.

* `Change`, `Registry.changed` — histories;
* `rule?_changed` — the last rule for a name counts;
* `names_changed` — a name has a rule if it had one or was given one;
* `Ty.rawName_text_of_isQualifiedName` — arguments do not matter;
* `lookup_changed` — the answers, and the number of rules.
-/

namespace Exemplar

/-! ## changes -/

/-- A change of a registry. -/
inductive Registry.Change where
  | register (name : String) (rule : Rule)
  | placeholder (text : String)

namespace Registry

namespace Change

/-- Makes the change. -/
def apply (registry : Registry) : Change → Registry
  | register name rule => registry.register name rule
  | placeholder text => registry.withPlaceholder text

/-- The names that are given a rule. -/
def names : Change → List String
  | register name _ => [name]
  | placeholder _ => textTypes

/-- The rule that a name is given. -/
def ruleFor? (other : String) : Change → Option Rule
  | register name rule => if name = other then some rule else none
  | placeholder text => if other ∈ textTypes then some (.fixed (.string text)) else none

/-- After a change a name has the rule of the change, or else its old one. -/
theorem rule?_apply (registry : Registry) (change : Change) (name : String) :
    (change.apply registry).rule? name = (change.ruleFor? name).or (registry.rule? name) := by
  cases change with
  | register other rule =>
      rw [apply, rule?_register, ruleFor?]
      split <;> rfl
  | placeholder text =>
      rw [apply, withPlaceholder, rule?_registerAll, ruleFor?]
      split <;> rfl

end Change

/-- Makes changes one after the other. -/
def changed (registry : Registry) (changes : List Change) : Registry :=
  changes.foldl Change.apply registry

/-- The last rule that changes give to a name. -/
def lastRule? (changes : List Change) (name : String) : Option Rule :=
  changes.reverse.findSome? (·.ruleFor? name)

section

variable {start : Registry}

/-- **The last rule counts**, and without one the rule at the start. -/
theorem rule?_changed (start : Registry) (changes : List Change) (name : String) :
    (start.changed changes).rule? name = (lastRule? changes name).or (start.rule? name) := by
  induction changes generalizing start with
  | nil => rfl
  | cons change rest ih =>
      have hlast : lastRule? (change :: rest) name =
          (lastRule? rest name).or (change.ruleFor? name) := by
        simp [lastRule?, List.findSome?_append]
      have hstep : start.changed (change :: rest) = (change.apply start).changed rest := rfl
      rw [hstep, ih, Change.rule?_apply, hlast, Option.or_assoc]

/-! ## names -/

/-- The names with a rule, in order. -/
def names (registry : Registry) : List String := registry.rules.map (·.1)

/-- Registering adds the name. -/
theorem mem_names_register {name other : String} {rule : Rule} :
    other ∈ (start.register name rule).names ↔ other = name ∨ other ∈ start.names := by
  by_cases hname : name ∈ start.names
  · have hsame : (start.register name rule).names = start.names :=
      Json.map_fst_insertEntry_of_mem hname
    rw [hsame]
    refine ⟨.inr, ?_⟩
    rintro (rfl | h)
    · exact hname
    · exact h
  · have hnew : (start.register name rule).names = start.names ++ [name] := by
      rw [names, register, Json.insertEntry_of_not_mem hname, List.map_append]
      rfl
    rw [hnew, List.mem_append, List.mem_singleton, or_comm]

theorem mem_names_registerAll {names' : List String} {value : Json} {other : String} :
    other ∈ (start.registerAll names' value).names ↔ other ∈ names' ∨ other ∈ start.names := by
  rw [registerAll]
  induction names' generalizing start with
  | nil => simp
  | cons name rest ih =>
      rw [List.foldl_cons, ih, mem_names_register, List.mem_cons, ← or_assoc]
      simp only [or_comm]

/-- Registering repeats no name. -/
theorem nodup_names_register (h : start.names.Nodup) (name : String) (rule : Rule) :
    (start.register name rule).names.Nodup := Json.nodup_insertEntry h

theorem nodup_names_registerAll (h : start.names.Nodup) (names' : List String) (value : Json) :
    (start.registerAll names' value).names.Nodup := by
  rw [registerAll]
  induction names' generalizing start with
  | nil => exact h
  | cons name rest ih => exact ih (nodup_names_register h name _)

/-- The built-in names are different. -/
theorem nodup_names_builtin (now : ClockReading) : (builtin now).names.Nodup := by
  unfold builtin withTrees withTimes withScalars withPlaceholder
  iterate 15 refine nodup_names_registerAll ?_ _ _
  exact List.nodup_nil

namespace Change

/-- A change adds its own names. -/
theorem mem_names_apply {change : Change} {name : String} :
    name ∈ (change.apply start).names ↔ name ∈ change.names ∨ name ∈ start.names := by
  cases change with
  | register other rule => simp only [apply, mem_names_register, names, List.mem_singleton]
  | placeholder text => exact mem_names_registerAll

/-- A change repeats no name. -/
theorem nodup_names_apply (h : start.names.Nodup) (change : Change) :
    (change.apply start).names.Nodup := by
  cases change with
  | register name rule => exact nodup_names_register h name rule
  | placeholder text => exact nodup_names_registerAll h _ _

end Change

/-- A name has a rule if it had one or was given one. -/
theorem mem_names_changed {changes : List Change} {name : String} :
    name ∈ (start.changed changes).names ↔
      name ∈ start.names ∨ name ∈ changes.flatMap Change.names := by
  rw [changed]
  induction changes generalizing start with
  | nil => simp
  | cons change rest ih =>
      rw [List.foldl_cons, ih, Change.mem_names_apply, List.flatMap_cons, List.mem_append,
        or_assoc, or_left_comm]

/-- A history repeats no name. -/
theorem nodup_names_changed (h : start.names.Nodup) (changes : List Change) :
    (start.changed changes).names.Nodup := by
  rw [changed]
  induction changes generalizing start with
  | nil => exact h
  | cons change rest ih => exact ih (change.nodup_names_apply h)

/-- The number of rules is the number of different names. -/
theorem size_changed (h : start.names.Nodup) (changes : List Change) :
    (start.changed changes).size =
      (start.names ++ changes.flatMap Change.names).toFinset.card := by
  have hsize : (start.changed changes).size = (start.changed changes).names.length :=
    (List.length_map _).symm
  rw [hsize, ← List.toFinset_card_of_nodup (nodup_names_changed h changes)]
  congr 1
  ext name
  rw [List.mem_toFinset, List.mem_toFinset, mem_names_changed, List.mem_append]

end

end Registry

/-! ## raw names -/

section

variable {s : List Char}

theorem skipBlanks_of_forall (h : ∀ c ∈ s, isBlank c = false) : skipBlanks s = s := by
  cases s with
  | nil => rfl
  | cons c s => exact skipBlanks_cons_of_not_isBlank (h c List.mem_cons_self) s

theorem trimEnd_of_forall (h : ∀ c ∈ s, isBlank c = false) : trimEnd s = s := by
  rw [trimEnd, skipBlanks_of_forall fun c hc => h c (List.mem_reverse.mp hc), List.reverse_reverse]

end

/-- A class is asked for by its name, whatever its arguments. -/
theorem Ty.rawName_text_of_isQualifiedName {name : String} (h : isQualifiedName name = true)
    (args : List Ty) : rawName (named name args).text = name := by
  have hpart := (TypeTerm.qualifiedName_toList.mpr h).isNamePart
  have hblank : ∀ c ∈ name.toList, isBlank c = false :=
    fun c hc => TypeTerm.isBlank_of_isNamePart (hpart c hc)
  have hopening : '<' ∉ name.toList := fun hmem => absurd (hpart '<' hmem) (by decide)
  cases args with
  | nil =>
      rw [text_named_nil, ← String.toList_inj, toList_rawName_of_not_mem hopening, trim,
        skipBlanks_of_forall hblank, trimEnd_of_forall hblank]
  | cons arg args =>
      rw [rawName_text_named name (List.cons_ne_nil arg args), ← nameChars,
        nameChars_of_not_mem hopening, trimEnd_of_forall hblank, String.ofList_toList]

/-! ## answers -/

namespace Registry

/-- A placeholder changes the answers for texts, and no others. -/
theorem fst_run_lookup_withPlaceholder (registry : Registry) (placeholder text : String) :
    ((lookup text).run (registry.withPlaceholder placeholder)).1 =
      if rawName text ∈ textTypes then some (.string placeholder)
      else ((lookup text).run registry).1 := by
  rw [fst_run_lookup, fst_run_lookup, withPlaceholder, rule?_registerAll]
  split <;> rfl

/-- **A class has the last rule that its name was given.**  After any history
of changes the answer for a class, with or without arguments on its name, is
the value of the last rule for the name, or else of the rule at the start, or
else there is none.  A placeholder changes the answers for the types of texts
and no others, and there are as many rules as different names. -/
theorem lookup_changed (start : Registry) (changes : List Change) :
    (∀ name args, isQualifiedName name = true →
      let answer := ((lastRule? changes name).or (start.rule? name)).map Rule.value
      ((lookup (Ty.named name args).text).run (start.changed changes)).1 = answer ∧
        ((lookup name).run (start.changed changes)).1 = answer) ∧
    (∀ placeholder text,
      ((lookup text).run ((start.changed changes).withPlaceholder placeholder)).1 =
        if rawName text ∈ textTypes then some (.string placeholder)
        else ((lookup text).run (start.changed changes)).1) ∧
    (start.names.Nodup → (start.changed changes).size =
      (start.names ++ changes.flatMap Change.names).toFinset.card) := by
  refine ⟨fun name args hname => ?_, fst_run_lookup_withPlaceholder _,
    fun hstart => size_changed hstart changes⟩
  have hbare := Ty.rawName_text_of_isQualifiedName hname []
  rw [Ty.text_named_nil] at hbare
  rw [fst_run_lookup, fst_run_lookup, Ty.rawName_text_of_isQualifiedName hname args, hbare,
    rule?_changed]
  exact ⟨rfl, rfl⟩

/-- A counter after a value, and a placeholder between them. -/
theorem lookup_changed_price :
    let now := ClockReading.evening
    let changes : List Change := [.register "shop.Price" (.fixed (.string "0.00")),
      .placeholder "text", .register "shop.Price" (.counter 7)]
    let price : Ty := .named "shop.Price" [.array (.named "java.util.List" [.wildcard])]
    let registry := (builtin now).changed changes
    isQualifiedName "shop.Price" = true ∧ isQualifiedName "java.lang.String" = true ∧
      (builtin now).names.Nodup ∧
      ((lookup price.text).run registry).1 = some (.ofInt 7) ∧
      ((lookup "java.lang.String").run registry).1 = some (.string "text") ∧
      registry.size =
        ((builtin now).names ++ (["shop.Price"] ++ textTypes ++ ["shop.Price"])).toFinset.card := by
  intro now changes price registry
  have hnames := nodup_names_builtin now
  obtain ⟨hanswers, _, hsize⟩ := lookup_changed (builtin now) changes
  refine ⟨by decide, by decide, hnames, ?_, ?_, hsize hnames⟩
  · exact (hanswers "shop.Price" _ (by decide)).1
  · exact (hanswers "java.lang.String" [] (by decide)).2

end Registry

end Exemplar
