import Exemplar.Proofs.Json.Shape
import Exemplar.Proofs.Registry.Rules
import Exemplar.Proofs.Sampler.Closed
import Exemplar.Proofs.Sampler.Fixed

/-!
# Exemplar.Proofs.Sampler.Shape

What the values of rules do to a sample.  They are seen where a rule answers,
and nowhere else: which rule answers, which parts are looked into and which
parts have no value, does not depend on them.  So registries with rules for
the same names give samples of one shape.

* `Plan.run_sameShape` — one step: parts of one shape are put together to
  values of one shape;
* `sampleAt_sameShape` — all samples, with fixed rules.
-/

namespace Exemplar

/-! ## registries with the same names -/

namespace Registry

/-- The registries have rules for the same names. -/
def SameNames (registry registry' : Registry) : Prop :=
  ∀ name, registry.contains name = registry'.contains name

/-- The values of the two registries for one name. -/
def ForOneName (registry registry' : Registry) (a b : Json) : Prop :=
  ∃ name, registry.rule? name = some (.fixed a) ∧ registry'.rule? name = some (.fixed b)

section

variable {registry registry' : Registry}

/-- The same names are added, whatever the values. -/
theorem SameNames.registerAll (h : registry.SameNames registry') (names : List String)
    (value value' : Json) :
    (registry.registerAll names value).SameNames (registry'.registerAll names value') := by
  unfold Registry.registerAll
  induction names generalizing registry registry' with
  | nil => exact h
  | cons name rest ih =>
      refine ih fun other => ?_
      simp only [contains, rule?_register]
      by_cases hname : name = other
      · simp [hname]
      · rw [if_neg hname, if_neg hname]
        exact h other

/-- Registries of fixed rules for the same names answer for the same types. -/
theorem rel_answer? (hfixed : registry.IsFixed) (hfixed' : registry'.IsFixed)
    (h : registry.SameNames registry') (ty : Ty) :
    Option.Rel (ForOneName registry registry') (registry.answer? ty) (registry'.answer? ty) := by
  have hname := h (rawName ty.text)
  rw [contains, contains] at hname
  rw [answer?, answer?]
  split
  · cases hrule : registry.rule? (rawName ty.text) with
    | none =>
        rw [hrule] at hname
        have hrule' : registry'.rule? (rawName ty.text) = none :=
          Option.isNone_iff_eq_none.mp (Option.isSome_eq_false_iff.mp hname.symm)
        rw [hrule']
        exact .none
    | some rule =>
        rw [hrule] at hname
        obtain ⟨rule', hrule'⟩ := Option.isSome_iff_exists.mp hname.symm
        cases rule with
        | counter next => exact absurd hrule (hfixed _ next)
        | fixed value =>
            cases rule' with
            | counter next => exact absurd hrule' (hfixed' _ next)
            | fixed value' =>
                rw [hrule']
                exact .some ⟨_, hrule, hrule'⟩
  · exact .none

end

end Registry

/-! ## one step -/

namespace Sampler

/-- From registries that they leave as they are, the computations give values
of one shape, or both give none. -/
structure Matches (R : Json → Json → Prop) (r r' : Registry) (sampling sampling' : Sampling) :
    Prop where
  keeps : (sampling.run r).2 = r
  keeps' : (sampling'.run r').2 = r'
  shape : Option.Rel (Json.SameShape R) (sampling.run r).1 (sampling'.run r').1

section

variable {R : Json → Json → Prop} {r r' : Registry} {step step' : Ty → Sampling}

/-- The entries for fields, put into objects of one shape. -/
theorem sampleFields_sameShape {fields : List (FieldInfo Ty)}
    (hstep : ∀ ty ∈ sampledTypes fields, Matches R r r' (step ty) (step' ty)) :
    ∀ {entries entries' : List (String × Json)}, Json.SameShapeEntries R entries entries' →
      Option.Rel (Json.SameShapeEntries R) ((sampleFields step fields entries).run r).1
        ((sampleFields step' fields entries').run r').1 := by
  induction fields with
  | nil => exact fun h => .some h
  | cons field rest ih =>
      intro entries entries' hentries
      cases hs : field.isStatic with
      | true =>
          rw [run_sampleFields_of_isStatic hs, run_sampleFields_of_isStatic hs]
          exact .none
      | false =>
          cases hv : field.initialValue? with
          | some value =>
              rw [sampledTypes_of_eq_some hs hv] at hstep
              rw [run_sampleFields_of_eq_some hs hv, run_sampleFields_of_eq_some hs hv]
              exact ih hstep (hentries.insertEntry field.key (.refl value))
          | none =>
              rw [sampledTypes_of_eq_none hs hv] at hstep
              obtain ⟨⟨hkeeps, hkeeps', hshape⟩, hstep⟩ := List.forall_mem_cons.mp hstep
              rw [run_sampleFields_of_eq_none hs hv, run_sampleFields_of_eq_none hs hv, hkeeps,
                hkeeps']
              -- either both have a value for the field or neither has
              generalize ((step field.type).run r).1 = found at hshape ⊢
              generalize ((step' field.type).run r').1 = found' at hshape ⊢
              cases hshape with
              | none => exact ih hstep hentries
              | some hvalue => exact ih hstep (hentries.insertEntry field.key hvalue)

/-- Objects have the same shape, if their parts have. -/
theorem sampleObject_sameShape {fields : List (FieldInfo Ty)}
    (hstep : ∀ ty ∈ sampledTypes fields, Matches R r r' (step ty) (step' ty)) (isRoot : Bool) :
    Option.Rel (Json.SameShape R) ((sampleObject step isRoot fields).run r).1
      ((sampleObject step' isRoot fields).run r').1 := by
  rw [sampleObject, sampleObject]
  split
  · exact .none
  · have hfields := sampleFields_sameShape hstep .nil
    show Option.Rel _ (((sampleFields step fields []).run r).1.map Json.object)
      (((sampleFields step' fields []).run r').1.map Json.object)
    generalize ((sampleFields step fields []).run r).1 = found at hfields ⊢
    generalize ((sampleFields step' fields []).run r').1 = found' at hfields ⊢
    cases hfields with
    | none => exact .none
    | some hentries => exact .some (.object hentries)

end

end Sampler

/-- **One step**: parts of one shape are put together to values of one shape. -/
theorem Plan.run_sameShape {R : Json → Json → Prop} {r r' : Registry}
    {step step' : Ty → Sampling} {plan : Plan}
    (hstep : ∀ ty ∈ plan.parts, Sampler.Matches R r r' (step ty) (step' ty)) (isRoot : Bool) :
    Option.Rel (Json.SameShape R) ((plan.run step isRoot).run r).1
      ((plan.run step' isRoot).run r').1 := by
  cases plan with
  | value found => exact Json.rel_sameShape_refl found
  | list item =>
      have hitem := (hstep item (List.mem_singleton_self item)).shape
      exact .some (.array (.toList hitem))
  | optional inner =>
      have hinner := (hstep inner (List.mem_singleton_self inner)).shape
      exact .some (.getD_null hinner)
  | map item =>
      have hitem := (hstep item (List.mem_singleton_self item)).shape
      exact .some (.object (.cons (.getD_null hitem) .nil))
  | bound ty => exact (hstep ty (List.mem_singleton_self ty)).shape
  | object fields => exact Sampler.sampleObject_sameShape hstep isRoot

namespace Sampler

/-! ## samples -/

/-- **Rules are seen where they answer**: with two registries of fixed rules
for the same names, a type has no sample with either, or samples of one shape,
which differ at most where both have the values of one rule. -/
theorem sampleAt_sameShape (s : Sampler) {registry registry' : Registry}
    (hfixed : registry.IsFixed) (hfixed' : registry'.IsFixed)
    (hnames : registry.SameNames registry') (left : Nat) (ty : Ty) (env : Environment Ty) :
    Option.Rel (Json.SameShape (Registry.ForOneName registry registry'))
      ((s.sampleAt left ty env).run registry).1 ((s.sampleAt left ty env).run registry').1 := by
  induction left generalizing ty env with
  | zero => exact .none
  | succ left ih =>
      rw [sampleAt_succ, run_withRule hfixed, run_withRule hfixed']
      have hanswer := Registry.rel_answer? hfixed hfixed' hnames ty
      generalize registry.answer? ty = answer at hanswer ⊢
      generalize registry'.answer? ty = answer' at hanswer ⊢
      cases hanswer with
      | none =>
          refine Plan.run_sameShape (fun part _ => ?_) _
          exact ⟨run_sampleAt_snd s hfixed _ _ _, run_sampleAt_snd s hfixed' _ _ _, ih part _⟩
      | some hvalue => exact .some (.leaf hvalue)

/-! ### two placeholders -/

/-- All built-in rules are fixed, whatever texts show. -/
theorem isFixed_withPlaceholder (now : ClockReading) (placeholder : String) :
    ((Registry.builtin now).withPlaceholder placeholder).IsFixed := by
  have hbuiltin : (Registry.builtin now).All fun rule => rule.isFixed = true :=
    Registry.all_builtin (Q := fun rule => rule.isFixed = true) rfl rfl rfl (fun _ => rfl) rfl rfl
      rfl
  intro name next hrule
  exact Bool.false_ne_true (hbuiltin.withPlaceholder rfl name _ hrule)

/-- The sampler of the page alone. -/
abbrev pageSampler : Sampler := ⟨pageTable, .full⟩

/-- A page is an object of its item and the next page. -/
theorem run_sampleAt_page {registry : Registry} (h : registry.IsFixed)
    (hrule : registry.rule? "Page" = none) {left : Nat} {args : List Ty} {env : Environment Ty}
    {first next : Option Json}
    (hfirst : (pageSampler.sampleAt left (.param "T")
      (pageSampler.environmentFor (.param "T") env)).run registry = (first, registry))
    (hnext : (pageSampler.sampleAt left (.named "Page" [.named "Page" [.param "T"]])
      (pageSampler.environmentFor (.named "Page" [.named "Page" [.param "T"]]) env)).run registry =
        (next, registry)) :
    (pageSampler.sampleAt (left + 1) (.named "Page" args) env).run registry =
      (some (.object ((first.map fun value => ("first", value)).toList ++
        (next.map fun value => ("next", value)).toList)), registry) := by
  have hplan : pageSampler.plan env (.named "Page" args) =
      .object [⟨"first", .param "T", none, [], false⟩,
        ⟨"next", .named "Page" [.named "Page" [.param "T"]], none, [], false⟩] := by
    have hcontainer : pageTable.containerOf? "Page" 1 = none := by
      simp [ClassTable.containerOf?, ClassTable.libraryOrigin]
    rw [plan_of_object rfl (firstConstant?_eq_none _ (by decide)) hcontainer,
      ClassTable.allFields_of_supertypes_eq_nil rfl]
  have hname : rawName (Ty.named "Page" args).text = "Page" := by
    cases args with
    | nil => decide +kernel
    | cons arg args =>
        rw [Ty.rawName_text_named _ (List.cons_ne_nil arg args)]
        decide +kernel
  have hanswer : registry.answer? (.named "Page" args) = none :=
    Registry.answer?_eq_none_of_rule? (hname.symm ▸ hrule)
  rw [run_sampleAt_of_plan h hanswer hplan, Plan.run, sampleObject]
  simp only [List.isEmpty_cons, Bool.false_eq_true, false_and, if_false, StateT.run_bind]
  rw [run_sampleFields_of_eq_none rfl rfl, hfirst, run_sampleFields_of_eq_none rfl rfl, hnext]
  cases first <;> cases next <;> rfl

/-- A page of texts shows its first text, and no other at this depth. -/
theorem run_sampleAt_page_text (text : String) :
    let registry := (Registry.builtin .evening).withPlaceholder text
    let page : Ty := .named "Page" [.named "java.lang.String" []]
    (pageSampler.sampleAt 3 page (pageSampler.environmentFor page .empty)).run registry =
      (some (.object [("first", .string text), ("next", .object [("next", .object [])])]),
        registry) := by
  intro registry page
  have hfixed : registry.IsFixed := isFixed_withPlaceholder .evening text
  have hrule : registry.rule? "Page" = none := rfl
  have hanswer : registry.answer? (.named "java.lang.String" []) = some (.string text) := rfl
  have hitem : registry.answer? (.param "T") = none := rfl
  have htext : (pageSampler.environmentFor page .empty).resolve "T" =
      some (.named "java.lang.String" []) := rfl
  have hnested : (pageSampler.environmentFor (.named "Page" [.named "Page" [.param "T"]])
      (pageSampler.environmentFor page .empty)).resolve "T" =
      some (.named "Page" [.param "T"]) := rfl
  refine @run_sampleAt_page _ hfixed hrule 2 _ _ (some (.string text))
    (some (.object [("next", .object [])])) ?_ ?_
  · rw [run_sampleAt_param pageSampler hfixed hitem htext]
    exact run_sampleAt_of_answer? _ hfixed hanswer 0 _
  · refine @run_sampleAt_page _ hfixed hrule 1 _ _ none (some (.object [])) ?_ ?_
    · rw [run_sampleAt_param pageSampler hfixed hitem hnested]
      rfl
    · exact @run_sampleAt_page _ hfixed hrule 0 _ _ none none rfl rfl

/-- A page of texts differs in the texts alone. -/
theorem sampleAt_page_of_texts :
    ClassTable.build [pageDecl] = .ok pageTable ∧
    let s : Sampler := ⟨pageTable, .full⟩
    let now := ClockReading.evening
    let registry := (Registry.builtin now).withPlaceholder "a"
    let registry' := (Registry.builtin now).withPlaceholder "b"
    let page : Ty := .named "Page" [.named "java.lang.String" []]
    let inside := s.environmentFor page .empty
    let shown (text : String) : Json :=
      .object [("first", .string text), ("next", .object [("next", .object [])])]
    registry.IsFixed ∧ registry'.IsFixed ∧ registry.SameNames registry' ∧
      ((s.sampleAt 3 page inside).run registry).1 = some (shown "a") ∧
      ((s.sampleAt 3 page inside).run registry').1 = some (shown "b") ∧
      Option.Rel (Json.SameShape (registry.ForOneName registry'))
        ((s.sampleAt 3 page inside).run registry).1
        ((s.sampleAt 3 page inside).run registry').1 := by
  refine ⟨build_pageDecl, ?_⟩
  intro s now registry registry' page inside shown
  have hfixed : registry.IsFixed := isFixed_withPlaceholder now "a"
  have hfixed' : registry'.IsFixed := isFixed_withPlaceholder now "b"
  have hnames : registry.SameNames registry' :=
    Registry.SameNames.registerAll (fun _ => rfl) Registry.textTypes _ _
  exact ⟨hfixed, hfixed', hnames, congrArg Prod.fst (run_sampleAt_page_text "a"),
    congrArg Prod.fst (run_sampleAt_page_text "b"),
    s.sampleAt_sameShape hfixed hfixed' hnames 3 page inside⟩

end Sampler

end Exemplar
