import Exemplar.Proofs.ClassTable.Rename
import Exemplar.Proofs.Sampler.Container
import Exemplar.Proofs.Sampler.Fixed

/-!
# Exemplar.Proofs.Sampler.Rename

Samples do not depend on the names of type parameters, as long as no name is
mixed up with another.  A renaming is put on the table, the types and the
environments of a run.  It goes through every step at which the new names find
what the names themselves find: the bare arguments of a class and a parameter
in the environment outside, and the parameters of an inherited field in the
substitutions below its class (`Sampler.Unmixed`).

* `environmentFor_rename` — the layer of a class;
* `plan_rename` — what is done at a type;
* `run_sampleAt_rename` — the samples of two runs.
-/

namespace Exemplar

/-! ## environments -/

namespace Environment

/-- Gives the names of an environment, and the parameters of its types, new names. -/
def rename (u : String → String) (env : Environment Ty) : Environment Ty :=
  ⟨env.frames.map fun frame => (u frame.1, frame.2.map (Ty.rename u))⟩

/-- The new name of a parameter stands for what the parameter itself stands for. -/
def Unmixed (u : String → String) (env : Environment Ty) (n : String) : Prop :=
  (env.rename u).resolve (u n) = (env.resolve n).map (Ty.rename u)

/-- Renaming goes through to the bindings that are pushed. -/
theorem rename_foldl_push (u : String → String) (frames : List (String × Option Ty))
    (env : Environment Ty) :
    (frames.foldl (fun inner frame => inner.push frame.1 frame.2) env).rename u =
      (frames.map fun frame => (u frame.1, frame.2.map (Ty.rename u))).foldl
        (fun inner frame => inner.push frame.1 frame.2) (env.rename u) := by
  induction frames generalizing env with
  | nil => rfl
  | cons frame frames ih => rw [List.foldl_cons, ih, List.map_cons, List.foldl_cons]; rfl

end Environment

@[simp] theorem Ty.isWildcard_rename (u : String → String) (ty : Ty) :
    (ty.rename u).isWildcard = ty.isWildcard := by
  cases ty with
  | primitive | array | named | param | wildcard | bounded => rfl

namespace Sampler

/-- Gives the type parameters of all classes new names. -/
def rename (u : String → String) (s : Sampler) : Sampler := ⟨s.table.rename u, s.visibility⟩

/-- The type parameters whose names a class token for a type shows: all of a
type, unless it is a nested class, of which only the names of classes are shown. -/
def printedParams (s : Sampler) (ty : Ty) : List String :=
  match s.table.classOf? ty with
  | none => ty.params
  | some info => if (s.table.enclosingClasses info).isEmpty then ty.params else []

/-- A class token shows no parameter that gets a new name. -/
def TokenUnmixed (s : Sampler) (u : String → String) (ty : Ty) (outer : Environment Ty) : Prop :=
  ∀ target, s.tokenTarget? ty = some target →
    ∀ n ∈ s.printedParams ((concrete outer target).getD target), u n = n

/-- At a type, no name is mixed up with another by a renaming. -/
structure Unmixed (s : Sampler) (u : String → String) (ty : Ty) (outer : Environment Ty) :
    Prop where
  param : ∀ n, ty = .param n → outer.Unmixed u n
  /-- The parameters that are arguments of a class stand outside for what they are. -/
  argument : ∀ info, s.table.classOf? ty = some info →
    ty.arguments.length = info.typeParameters.length →
      ∀ n, .param n ∈ ty.arguments → outer.Unmixed u n
  /-- No parameter of a field is replaced by the argument for another one. -/
  field : ∀ info, s.table.classOf? ty = some info → ∀ ancestor ∈ s.table.ancestors info,
    ∀ field ∈ ancestor.info.fields, ancestor.path.foldl (fun ty σ => ty.subst σ) field.type ∈
      (s.plan (s.environmentFor ty outer) ty).fieldTypes → field.type.UnmixedAlong u ancestor.path
  token : s.TokenUnmixed u ty outer

section

variable {s : Sampler} {u : String → String} {env : Environment Ty} {ty : Ty}

/-! ## layers -/

/-- Renaming goes through to what an argument stands for. -/
theorem concrete_rename (h : ∀ n, ty = .param n → env.Unmixed u n) :
    concrete (env.rename u) (ty.rename u) = (concrete env ty).map (Ty.rename u) := by
  cases ty with
  | param n => rw [Ty.rename_param, concrete, concrete, h n rfl]
  | primitive | array | named | wildcard | bounded => rfl

/-- Renaming goes through to the bindings of a class. -/
theorem argumentsIn_rename {info : ClassInfo} {args : List Ty}
    (h : args.length = info.typeParameters.length → ∀ n, .param n ∈ args → env.Unmixed u n) :
    argumentsIn (info.rename u) (args.map (Ty.rename u)) (env.rename u) =
      (argumentsIn info args env).map fun frame => (u frame.1, frame.2.map (Ty.rename u)) := by
  rw [argumentsIn, argumentsIn, ClassInfo.givenArguments_rename, ClassInfo.givenArguments]
  by_cases hlength : args.length = info.typeParameters.length
  · rw [if_pos hlength, Option.map_some, ClassInfo.rename]
    simp only [List.map_map]
    have hargs : args.map (concrete (env.rename u) ∘ Ty.rename u) =
        (args.map (concrete env)).map (Option.map (Ty.rename u)) := by
      rw [List.map_map]
      exact List.map_congr_left fun arg harg =>
        concrete_rename fun n hn => h hlength n (hn ▸ harg)
    rw [hargs, List.zip_map]
    rfl
  · rw [if_neg hlength, Option.map_none, ClassInfo.rename]
    simp only [List.map_map]
    rfl

/-- **The layer of a class** is renamed with the class, if its bare arguments
are not mixed up. -/
theorem environmentFor_rename (h : s.Unmixed u ty env) :
    (s.rename u).environmentFor (ty.rename u) (env.rename u) =
      (s.environmentFor ty env).rename u := by
  have hclass := ClassTable.classOf?_rename (ClassTable.find?_rename u s.table) ty
  rw [environmentFor_eq_foldl, environmentFor_eq_foldl, rename, hclass]
  cases hinfo : s.table.classOf? ty with
  | none => rfl
  | some info =>
      have hargs : (ty.rename u).arguments = ty.arguments.map (Ty.rename u) := by
        cases ty with
        | named name args => rw [Ty.rename_named, Ty.arguments, Ty.arguments]
        | primitive | array | param | wildcard | bounded => rfl
      simp only [Option.map_some]
      rw [hargs, argumentsIn_rename (h.argument info hinfo), Environment.rename_foldl_push]

/-! ## class tokens -/

/-- Class tokens show the same name, if they show no parameter with a new one. -/
theorem binaryName_rename (h : ∀ n ∈ s.printedParams ty, u n = n) :
    (s.rename u).binaryName (ty.rename u) = s.binaryName ty := by
  have hfind := ClassTable.find?_rename u s.table
  have hclass := ClassTable.classOf?_rename hfind ty
  rw [printedParams] at h
  unfold binaryName
  rw [rename, hclass]
  cases hinfo : s.table.classOf? ty with
  | none =>
      rw [hinfo] at h
      exact congrArg Ty.text (Ty.rename_eq_self h)
  | some info =>
      have hlength : (s.table.rename u).classes.length = s.table.classes.length := List.length_map _
      rw [hinfo] at h
      simp only [Option.map_some, ClassTable.enclosingClasses_rename hfind hlength,
        ← List.map_reverse]
      cases hclasses : (s.table.enclosingClasses info).reverse with
      | nil =>
          rw [List.reverse_eq_nil_iff] at hclasses
          simp only [hclasses, List.isEmpty_nil, if_true] at h
          exact congrArg Ty.text (Ty.rename_eq_self h)
      | cons outermost middle =>
          have hnames : ∀ inner : List ClassInfo,
              (inner.map (ClassInfo.rename u)).map (fun inner => "$" ++ inner.simpleName) =
                inner.map fun inner => "$" ++ inner.simpleName := fun inner => by
            rw [List.map_map]
            rfl
          rw [List.map_cons]
          simp only [List.map_append, hnames]
          rfl

/-- So they are the same samples. -/
theorem sampleToken_rename {name : String} {target : Ty} {info : ClassInfo}
    (hinfo : s.table.find? name = some info)
    (hcont : s.table.containerOf? name info.typeParameters.length = some .classToken)
    (h : s.Unmixed u (.named name [target]) env) :
    s.sampleToken (s.environmentFor (.named name [target]) env) target =
      (s.rename u).sampleToken ((s.environmentFor (.named name [target]) env).rename u)
        (target.rename u) := by
  have hone := ClassTable.arity_of_containerOf?_classToken hcont
  have hinfo' : (s.rename u).table.find? name = some (info.rename u) := by
    rw [rename, ClassTable.find?_rename, hinfo, Option.map_some]
  have hone' : (info.rename u).typeParameters.length = 1 := (List.length_map _).trans hone
  have hbare : ∀ n, target = .param n → env.Unmixed u n := fun n hn =>
    h.argument info hinfo hone.symm n (hn ▸ List.mem_singleton_self _)
  -- what the token is for is looked up outside, where it is not mixed up
  have htarget : concrete ((s.environmentFor (.named name [target]) env).rename u)
      (target.rename u) = (concrete env target).map (Ty.rename u) := by
    rw [← environmentFor_rename h, Ty.rename_named, List.map_singleton,
      concrete_environmentFor_singleton hinfo' hone', concrete_rename hbare]
  rw [sampleToken_eq_ite, sampleToken_eq_ite, concrete_environmentFor_singleton hinfo hone, htarget,
    Option.getD_map, Ty.isWildcard_rename]
  by_cases hwildcard : target.isWildcard = true
  · rw [if_pos hwildcard, if_pos hwildcard]
  · rw [if_neg hwildcard, if_neg hwildcard, binaryName_rename]
    refine h.token target ?_
    simp [tokenTarget?, hinfo, hcont, hwildcard]

/-! ## plans -/

/-- Containers have the same plan up to the renaming. -/
theorem planContainer_rename {container : Container} {args : List Ty} {inner : Environment Ty}
    (htoken : ∀ target, args = [target] → container = .classToken →
      s.sampleToken inner target = (s.rename u).sampleToken (inner.rename u) (target.rename u)) :
    Plan.Rel (fun part part' => part' = part.rename u) (s.planContainer inner container args)
      ((s.rename u).planContainer (inner.rename u) container (args.map (Ty.rename u))) := by
  -- the families differ in the number of arguments that they take
  obtain _ | ⟨arg, _ | ⟨arg', _ | ⟨arg'', rest⟩⟩⟩ := args
  · cases container with
    | sequence | optional | classToken | map => exact .value _
  · cases container with
    | sequence => exact .list rfl
    | optional => exact .optional rfl
    | classToken =>
        rw [planContainer, htoken arg rfl rfl]
        exact .value _
    | map => exact .value _
  · cases container with
    | map => exact .map rfl
    | sequence | optional | classToken => exact .value _
  · cases container with
    | sequence | optional | classToken | map => exact .value _

/-- All fields of a class, with other names along the paths that they come by. -/
theorem forall₂_allFields_rename {R : Ty → Ty → Prop} {table : ClassTable} {info : ClassInfo}
    (h : ∀ ancestor ∈ table.ancestors info, ∀ field ∈ ancestor.info.fields,
      R (ancestor.path.foldl (fun ty σ => ty.subst σ) field.type)
        ((ancestor.path.map (Substitution.rename u)).foldl (fun ty σ => ty.subst σ)
          (field.type.rename u))) :
    List.Forall₂ (FieldInfo.Rel R) (table.allFields info)
      ((table.rename u).allFields (info.rename u)) := by
  rw [ClassTable.allFields, ClassTable.allFields,
    ClassTable.ancestors_rename (ClassTable.find?_rename u table)]
  generalize table.ancestors info = ancestors at h
  induction ancestors with
  | nil => exact .nil
  | cons ancestor rest ih =>
      rw [List.map_cons, List.flatMap_cons, List.flatMap_cons]
      refine List.rel_append ?_ (ih fun ancestor hmem => h ancestor (List.mem_cons_of_mem _ hmem))
      rw [ClassTable.Ancestor.fields, ClassTable.Ancestor.fields, ClassTable.Ancestor.rename,
        ClassInfo.rename, List.forall₂_map_left_iff, List.forall₂_map_right_iff,
        List.forall₂_map_right_iff, List.forall₂_same]
      exact fun field hfield => ⟨rfl, rfl, rfl, h ancestor List.mem_cons_self field hfield⟩

/-- What is done at a class is renamed with the class. -/
theorem plan_named_rename {name : String} {args : List Ty}
    (h : s.Unmixed u (.named name args) env) :
    Plan.Rel (fun part part' =>
        part ∈ (s.plan (s.environmentFor (.named name args) env) (.named name args)).parts →
          part' = part.rename u)
      (s.plan (s.environmentFor (.named name args) env) (.named name args))
      ((s.rename u).plan ((s.environmentFor (.named name args) env).rename u)
        (.named name (args.map (Ty.rename u)))) := by
  have hfind := ClassTable.find?_rename u s.table
  have hfind' := hfind name
  cases hinfo : s.table.find? name with
  | none =>
      rw [hinfo] at hfind'
      rw [plan_of_unknown hinfo, plan_of_unknown hfind']
      exact .value _
  | some info =>
      rw [hinfo, Option.map_some] at hfind'
      have hconst' : (s.rename u).firstConstant? (info.rename u) = s.firstConstant? info := rfl
      have hcont' : (s.rename u).table.containerOf? name (info.rename u).typeParameters.length =
          s.table.containerOf? name info.typeParameters.length := by
        rw [rename, ClassTable.containerOf?_rename hfind, ClassInfo.rename, List.length_map]
      cases hconst : s.firstConstant? info with
      | some constant =>
          rw [hconst] at hconst'
          rw [plan_of_constant hinfo hconst, plan_of_constant hfind' hconst']
          exact .value _
      | none =>
          rw [hconst] at hconst'
          cases hcont : s.table.containerOf? name info.typeParameters.length with
          | some container =>
              rw [hcont] at hcont'
              rw [plan_of_container hinfo hconst hcont, plan_of_container hfind' hconst' hcont']
              have hrel := @planContainer_rename s u container args
                (s.environmentFor (.named name args) env) <| by
                  rintro target rfl rfl
                  exact sampleToken_rename hinfo hcont h
              refine hrel.imp ?_
              exact fun _ _ heq _ => heq
          | none =>
              rw [hcont] at hcont'
              have hplan := plan_of_object hinfo hconst hcont
                (s.environmentFor (.named name args) env) args
              rw [hplan, plan_of_object hfind' hconst' hcont']
              refine .object (forall₂_allFields_rename fun ancestor hmem field hfield hpart => ?_)
              have hunmixed := h.field info hinfo ancestor hmem field hfield (hplan ▸ hpart)
              exact (Ty.rename_foldl_subst hunmixed).symm

/-- **One step** is renamed with the type, if no name is mixed up. -/
theorem plan_rename (h : s.Unmixed u ty env) :
    Plan.Rel (fun part part' => part ∈ (s.plan (s.environmentFor ty env) ty).parts →
        part' = part.rename u)
      (s.plan (s.environmentFor ty env) ty)
      ((s.rename u).plan ((s.environmentFor ty env).rename u) (ty.rename u)) := by
  cases ty with
  | primitive | wildcard | bounded => exact .value none
  | array item =>
      rw [Ty.rename, plan, plan, Ty.component_rename]
      exact .list fun _ => rfl
  | param n =>
      rw [environmentFor_param, Ty.rename_param, plan, plan, h.param n rfl]
      cases env.resolve n with
      | none => exact .object .nil
      | some found => exact .bound fun _ => rfl
  | named name args =>
      rw [Ty.rename_named]
      exact plan_named_rename h

/-! ## samples -/

variable {registry : Registry}

/-- Types have the same answers, if no rule is for a parameter with a new name. -/
theorem answer?_rename (hrule : ∀ n, u n ≠ n →
      registry.rule? (rawName n) = none ∧ registry.rule? (rawName (u n)) = none) (ty : Ty) :
    registry.answer? ty = registry.answer? (ty.rename u) := by
  cases ty with
  | named name args =>
      rw [Ty.rename_named]
      exact Registry.answer?_congr registry rfl
        (Ty.rawName_text_named_congr name (List.length_map _).symm)
  | param n =>
      rw [Ty.rename_param]
      by_cases hn : u n = n
      · rw [hn]
      · rw [Registry.answer?_eq_none_of_rule? (by rw [Ty.rawName_text_param, (hrule n hn).1]),
          Registry.answer?_eq_none_of_rule? (by rw [Ty.rawName_text_param, (hrule n hn).2])]
  | array item | bounded item =>
      rw [Ty.rename, Registry.answer?_eq_none_of_isRuled registry rfl,
        Registry.answer?_eq_none_of_isRuled registry rfl]
  | primitive | wildcard => rfl

/-- No name is mixed up at a class without supertypes, if none is in its bare
arguments. -/
theorem unmixed_of_supertypes_eq_nil {name : String} {args : List Ty} {info : ClassInfo}
    (hinfo : s.table.find? name = some info) (hsup : info.supertypes = [])
    (hargs : ∀ n, .param n ∈ args → env.Unmixed u n)
    (htoken : s.tokenTarget? (.named name args) = none) :
    s.Unmixed u (.named name args) env := by
  refine ⟨fun _ heq => by contradiction, fun _ _ _ => hargs, ?_, fun target htarget => ?_⟩
  · intro found hfound ancestor hancestor field _ _
    rw [show s.table.classOf? (.named name args) = some info from hinfo,
      Option.some.injEq] at hfound
    rw [← hfound, ClassTable.ancestors_of_supertypes_eq_nil hsup] at hancestor
    rw [List.mem_singleton.mp hancestor]
    trivial
  · rw [htoken] at htarget
    contradiction

theorem unmixed_param {n : String} (h : env.Unmixed u n) : s.Unmixed u (.param n) env := by
  refine ⟨fun m heq => ?_, fun _ hinfo => by contradiction, fun _ hinfo => by contradiction,
    fun _ htarget => by contradiction⟩
  cases heq
  exact h

/-- Wherever a run looks into a type, no name is mixed up. -/
def UnmixedRun (s : Sampler) (registry : Registry) (u : String → String) (left : Nat) (ty : Ty)
    (outer : Environment Ty) : Prop :=
  s.Along registry (fun left ty outer => left ≠ 0 → registry.answer? ty = none →
    s.Unmixed u ty outer) left ty outer

/-- **A renamed run** has the same sample, if no name is mixed up on the way and
no rule is named like a parameter with another name. -/
theorem run_sampleAt_rename (hfixed : registry.IsFixed) (hrule : ∀ n, u n ≠ n →
      registry.rule? (rawName n) = none ∧ registry.rule? (rawName (u n)) = none) {left : Nat}
    (h : s.UnmixedRun registry u left ty env) :
    (s.sampleAt left ty (s.environmentFor ty env)).run registry =
      ((s.rename u).sampleAt left (ty.rename u)
        ((s.rename u).environmentFor (ty.rename u) (env.rename u))).run registry := by
  induction left generalizing ty env with
  | zero => rfl
  | succ left ih =>
      have hanswer := answer?_rename hrule ty
      cases hnone : registry.answer? ty with
      | some value =>
          rw [run_sampleAt_of_answer? s hfixed hnone,
            run_sampleAt_of_answer? (s.rename u) hfixed (hanswer ▸ hnone)]
      | none =>
          have hhere := h.here (Nat.succ_ne_zero left) hnone
          rw [environmentFor_rename hhere]
          refine run_sampleAt_of_rel hfixed Iff.rfl hanswer (fun _ => plan_rename hhere)
            fun _ part hpart part' _ hrel => ?_
          rw [hrel hpart]
          exact ih (h.part hnone hpart)

/-- The sample of a closed type is that in the renamed table. -/
theorem run_sample_rename (hfixed : registry.IsFixed)
    (hrule : ∀ n, u n ≠ n →
      registry.rule? (rawName n) = none ∧ registry.rule? (rawName (u n)) = none)
    (hclosed : ty.Closed) (h : s.UnmixedRun registry u maxDepth ty .empty) :
    (s.sample ty).run registry = ((s.rename u).sample ty).run registry := by
  have hrun := run_sampleAt_rename hfixed hrule h
  rw [Ty.rename_of_closed hclosed] at hrun
  exact hrun

end

end Sampler

end Exemplar
