import Exemplar.Proofs.Registry.RawName
import Exemplar.Proofs.Sampler.Layer
import Exemplar.Proofs.Sampler.Plan

/-!
# Exemplar.Proofs.Sampler.Fixed

Runs with a registry of fixed values.  Such a registry has the same answer for
a type at every moment, and no run changes it.  So the places that a run looks
into can be told in advance (`Along`), and two runs can be compared place by
place: equal answers, related plans and equal samples of the related parts
give equal samples (`run_sampleAt_of_rel`).
-/

namespace Exemplar

/-! ## answers -/

/-- A rule that is a value. -/
def Rule.isFixed : Rule → Bool
  | fixed _ => true
  | counter _ => false

namespace Registry

/-- All rules are fixed values. -/
def IsFixed (registry : Registry) : Prop :=
  ∀ name next, registry.rule? name ≠ some (.counter next)

/-- The value of the rule for a type, where there can be one. -/
def answer? (registry : Registry) (ty : Ty) : Option Json :=
  if Sampler.isRuled ty then
    match registry.rule? (rawName ty.text) with
    | some (.fixed value) => some value
    | _ => none
  else none

theorem isFixed_of_forall {registry : Registry}
    (h : ∀ entry ∈ registry.rules, entry.2.isFixed = true) : registry.IsFixed := by
  intro name next hrule
  rw [rule?, Json.entry?, Option.map_eq_some_iff] at hrule
  obtain ⟨entry, hfind, hcounter⟩ := hrule
  have hfixed := h entry (List.mem_of_find?_eq_some hfind)
  rw [hcounter] at hfixed
  contradiction

/-- Without a rule for its name, a type has no answer. -/
theorem answer?_eq_none_of_rule? {registry : Registry} {ty : Ty}
    (h : registry.rule? (rawName ty.text) = none) : registry.answer? ty = none := by
  rw [answer?, h, ite_self]

/-- A type that no rule applies to has no answer. -/
theorem answer?_eq_none_of_isRuled (registry : Registry) {ty : Ty}
    (h : Sampler.isRuled ty = false) : registry.answer? ty = none := by
  rw [answer?, h, if_neg Bool.false_ne_true]

/-- Types with one raw name have one answer, if either both can have a rule or
neither can. -/
theorem answer?_congr (registry : Registry) {ty ty' : Ty}
    (hruled : Sampler.isRuled ty = Sampler.isRuled ty')
    (hraw : rawName ty.text = rawName ty'.text) : registry.answer? ty = registry.answer? ty' := by
  rw [answer?, answer?, hruled, hraw]

/-- With fixed rules, a look-up changes nothing. -/
theorem run_lookup {registry : Registry} (h : registry.IsFixed) (text : String) :
    (lookup text).run registry = (match registry.rule? (rawName text) with
      | some (.fixed value) => some value
      | _ => none, registry) := by
  cases hrule : registry.rule? (rawName text) with
  | none => rw [run_lookup_of_eq_none hrule]
  | some rule =>
      rw [run_lookup_of_eq_some hrule]
      cases rule with
      | fixed value => rw [Rule.next, register_of_rule? hrule, Rule.value]
      | counter next => exact absurd hrule (h (rawName text) next)

end Registry

namespace Ty

theorem rawName_text_param (n : String) : rawName (param n).text = rawName n := by
  rw [text, show (param n).chars = n.toList from rfl, String.ofList_toList]

/-- The arguments of a class do not matter for its raw name, only whether
there are any. -/
theorem rawName_text_named (name : String) {args : List Ty} (h : args ≠ []) :
    rawName (named name args).text =
      String.ofList (trimEnd (name.toList.takeWhile (· ≠ '<'))) := by
  have hmem : '<' ∈ (named name args).text.toList := by
    obtain ⟨arg, rest, rfl⟩ := List.exists_cons_of_ne_nil h
    simp [text, chars_named_cons]
  rw [← String.toList_inj, toList_rawName_of_mem hmem, nameChars_text, String.toList_ofList]
  rfl

/-- The raw name of a class type does not depend on which arguments there are. -/
theorem rawName_text_named_congr (name : String) {args args' : List Ty}
    (h : args.length = args'.length) :
    rawName (named name args).text = rawName (named name args').text := by
  cases args with
  | nil => rw [List.eq_nil_of_length_eq_zero h.symm]
  | cons arg args =>
      have hne : args' ≠ [] := by
        rintro rfl
        contradiction
      rw [rawName_text_named name (List.cons_ne_nil arg args), rawName_text_named name hne]

end Ty

namespace Sampler

/-- With fixed rules, the answer comes first and the sample otherwise. -/
theorem run_withRule {registry : Registry} (h : registry.IsFixed) (ty : Ty) (sample : Sampling) :
    (withRule ty sample).run registry = match registry.answer? ty with
      | some value => (some value, registry)
      | none => sample.run registry := by
  rw [withRule, Registry.answer?]
  by_cases hruled : isRuled ty = true
  · rw [if_pos hruled, if_pos hruled, orElse, StateT.run_bind, Registry.run_lookup h]
    cases registry.rule? (rawName ty.text) with
    | none => rfl
    | some rule =>
        cases rule with
        | fixed value | counter next => rfl
  · rw [if_neg hruled, if_neg hruled]

/-! ## runs -/

section

variable {registry : Registry}

/-- A fixed registry stays as it is. -/
theorem run_sampleAt_snd (s : Sampler) (h : registry.IsFixed) (left : Nat) (ty : Ty)
    (env : Environment Ty) : ((s.sampleAt left ty env).run registry).2 = registry := by
  induction left generalizing ty env with
  | zero => rfl
  | succ left ih =>
      rw [sampleAt_succ, run_withRule h]
      cases registry.answer? ty with
      | some value => rfl
      | none =>
          refine Plan.run_keeps (P := (· = registry)) _ _ (fun part _ r hr => ?_) registry rfl
          rw [hr]
          exact ih part _

/-- A type with an answer shows the answer. -/
theorem run_sampleAt_of_answer? (s : Sampler) (h : registry.IsFixed) {ty : Ty} {value : Json}
    (hanswer : registry.answer? ty = some value) (left : Nat) (env : Environment Ty) :
    (s.sampleAt (left + 1) ty env).run registry = (some value, registry) := by
  rw [sampleAt_succ, run_withRule h, hanswer]

/-- **One step of a run**: without an answer, the plan is run. -/
theorem run_sampleAt_of_plan {s : Sampler} (h : registry.IsFixed) {ty : Ty}
    (hanswer : registry.answer? ty = none) {env : Environment Ty} {plan : Plan}
    (hplan : s.plan env ty = plan) (left : Nat) :
    (s.sampleAt (left + 1) ty env).run registry =
      (plan.run (fun part => s.sampleAt left part (s.environmentFor part env))
        (decide (left + 1 = maxDepth))).run registry := by
  rw [sampleAt_succ, run_withRule h, hanswer, hplan]

section

variable {s : Sampler} {ty : Ty} {env : Environment Ty} {left : Nat} {item : Ty}
  {value : Option Json}

theorem run_sampleAt_of_value (h : registry.IsFixed) (hanswer : registry.answer? ty = none)
    (hplan : s.plan env ty = .value value) :
    (s.sampleAt (left + 1) ty env).run registry = (value, registry) := by
  rw [run_sampleAt_of_plan h hanswer hplan]
  rfl

/-- A plan for a list shows its item. -/
theorem run_sampleAt_of_list (h : registry.IsFixed) (hanswer : registry.answer? ty = none)
    (hplan : s.plan env ty = .list item)
    (hitem : (s.sampleAt left item (s.environmentFor item env)).run registry = (value, registry)) :
    (s.sampleAt (left + 1) ty env).run registry = (some (listOf value), registry) := by
  rw [run_sampleAt_of_plan h hanswer hplan, Plan.run, StateT.run_bind, hitem]
  rfl

/-- A plan for a map shows its value. -/
theorem run_sampleAt_of_map (h : registry.IsFixed) (hanswer : registry.answer? ty = none)
    (hplan : s.plan env ty = .map item)
    (hitem : (s.sampleAt left item (s.environmentFor item env)).run registry = (value, registry)) :
    (s.sampleAt (left + 1) ty env).run registry =
      (some (.object [(mapKey, value.getD .null)]), registry) := by
  rw [run_sampleAt_of_plan h hanswer hplan, Plan.run, StateT.run_bind, hitem]
  rfl

/-- A class with one field is an object with one entry. -/
theorem run_sampleAt_of_field (h : registry.IsFixed) (hanswer : registry.answer? ty = none)
    {field : FieldInfo Ty} (hplan : s.plan env ty = .object [field])
    (hstatic : field.isStatic = false) (hinitial : field.initialValue? = none) {found : Json}
    (hfield : (s.sampleAt left field.type (s.environmentFor field.type env)).run registry =
      (some found, registry)) :
    (s.sampleAt (left + 1) ty env).run registry =
      (some (.object [(field.key, found)]), registry) := by
  rw [run_sampleAt_of_plan h hanswer hplan, Plan.run, sampleObject, sampleFields, hstatic,
    sampleField_eq, hinitial]
  simp only [List.isEmpty_cons, Bool.false_eq_true, false_and, if_false, StateT.run_bind, hfield]
  rfl

end

/-- A parameter has the sample of what it is bound to. -/
theorem run_sampleAt_param (s : Sampler) (h : registry.IsFixed) {n : String}
    (hanswer : registry.answer? (.param n) = none) {env : Environment Ty} {found : Ty}
    (hfound : env.resolve n = some found) (left : Nat) :
    (s.sampleAt (left + 1) (.param n) (s.environmentFor (.param n) env)).run registry =
      (s.sampleAt left found (s.environmentFor found env)).run registry := by
  have hplan : s.plan (s.environmentFor (.param n) env) (.param n) = .bound found := by
    rw [environmentFor_param, plan, hfound]
  rw [run_sampleAt_of_plan h hanswer hplan, Plan.run, environmentFor_param]

/-- **Two runs, one step**: samples are equal when the answers for the types
are, or when the plans are related and the samples of related parts are
equal. -/
theorem run_sampleAt_of_rel {s s' : Sampler} {R : Ty → Ty → Prop} {left left' : Nat}
    {ty ty' : Ty} {env env' : Environment Ty} (h : registry.IsFixed)
    (hroot : left + 1 = maxDepth ↔ left' + 1 = maxDepth)
    (hanswer : registry.answer? ty = registry.answer? ty')
    (hplan : registry.answer? ty = none → Plan.Rel R (s.plan env ty) (s'.plan env' ty'))
    (hparts : registry.answer? ty = none → ∀ part ∈ (s.plan env ty).parts,
      ∀ part' ∈ (s'.plan env' ty').parts, R part part' →
        (s.sampleAt left part (s.environmentFor part env)).run registry =
          (s'.sampleAt left' part' (s'.environmentFor part' env')).run registry) :
    (s.sampleAt (left + 1) ty env).run registry =
      (s'.sampleAt (left' + 1) ty' env').run registry := by
  rw [sampleAt_succ, sampleAt_succ, run_withRule h, run_withRule h, ← hanswer,
    decide_eq_decide.mpr hroot]
  cases hnone : registry.answer? ty with
  | some value => rfl
  | none =>
      refine Plan.run_rel (P := (· = registry)) (hplan hnone) _ (fun part _ r hr => ?_)
        (fun part hpart part' hpart' hrel r hr => ?_) registry rfl
      · rw [hr]
        exact run_sampleAt_snd s h left part _
      · rw [hr]
        exact hparts hnone part hpart part' hpart' hrel

/-! ## places -/

/-- A property of all places that a run looks into: the depth that is left
there, the type and the environment outside of it.  Nothing is looked into
behind the answer of a rule. -/
def Along (s : Sampler) (registry : Registry) (Q : Nat → Ty → Environment Ty → Prop) :
    Nat → Ty → Environment Ty → Prop
  | 0, ty, outer => Q 0 ty outer
  | left + 1, ty, outer => Q (left + 1) ty outer ∧ (registry.answer? ty = none →
      ∀ part ∈ (s.plan (s.environmentFor ty outer) ty).parts,
        s.Along registry Q left part (s.environmentFor ty outer))

section

variable {s : Sampler} {Q : Nat → Ty → Environment Ty → Prop} {left : Nat} {ty : Ty}
  {outer : Environment Ty}

theorem Along.here (h : s.Along registry Q left ty outer) : Q left ty outer := by
  cases left with
  | zero => exact h
  | succ left => exact h.1

/-- What holds along a run holds along its parts. -/
theorem Along.part (h : s.Along registry Q (left + 1) ty outer)
    (hanswer : registry.answer? ty = none) {part : Ty}
    (hpart : part ∈ (s.plan (s.environmentFor ty outer) ty).parts) :
    s.Along registry Q left part (s.environmentFor ty outer) :=
  h.2 hanswer part hpart

/-- Behind an answer there is nothing more to show. -/
theorem Along.of_answer? (h : Q (left + 1) ty outer) {value : Json}
    (hanswer : registry.answer? ty = some value) : s.Along registry Q (left + 1) ty outer :=
  ⟨h, fun hnone => by rw [hanswer] at hnone; contradiction⟩

/-- Otherwise it is shown for the parts of the plan. -/
theorem Along.of_plan (h : Q (left + 1) ty outer) {plan : Plan}
    (hplan : s.plan (s.environmentFor ty outer) ty = plan)
    (hparts : ∀ part ∈ plan.parts, s.Along registry Q left part (s.environmentFor ty outer)) :
    s.Along registry Q (left + 1) ty outer :=
  ⟨h, fun _ => hplan ▸ hparts⟩

/-- At a parameter only what it is bound to is looked into. -/
theorem Along.of_param {n : String} (h : Q (left + 1) (.param n) outer) {found : Ty}
    (hfound : outer.resolve n = some found) (hbound : s.Along registry Q left found outer) :
    s.Along registry Q (left + 1) (.param n) outer := by
  have hplan : s.plan (s.environmentFor (.param n) outer) (.param n) = .bound found := by
    rw [environmentFor_param, plan, hfound]
  refine .of_plan h hplan fun part hpart => ?_
  rw [List.mem_singleton.mp hpart, environmentFor_param]
  exact hbound

end

/-- Nowhere does a run use up its depth. -/
def Shallow (s : Sampler) (registry : Registry) (left : Nat) (ty : Ty)
    (outer : Environment Ty) : Prop :=
  s.Along registry (fun left _ _ => left ≠ 0) left ty outer

end

end Sampler

end Exemplar
