import Exemplar.Proofs.ClassTable.Scope
import Exemplar.Proofs.Sampler.Container
import Exemplar.Proofs.Sampler.Fixed
import Exemplar.Proofs.Sampler.Image

/-!
# Exemplar.Proofs.Sampler.Substitution

Looking up a type parameter against putting its argument in its place.

A field of a class with closed arguments can be sampled in two ways: in the
environment of the class, or with the arguments written in the place of the
parameters and nothing around.  The two runs look into the same places, only
that the first one goes through each parameter, and at each place the types
are images of each other.

The runs part where the layer of a class gives another meaning to a name that
is mentioned by what goes through it, at an array of a parameter that is an
array, and at a class token that prints a parameter.  `Transparent` says that
a place is none of these, and `run_sampleAt_of_image` compares the runs.
-/

namespace Exemplar

/-! ## transparent places -/

namespace Sampler

/-- At a type, the given parameters can as well have their arguments in their
place, as far as the environment outside tells. -/
structure Transparent (s : Sampler) (parameters : List String) (ty : Ty)
    (outer : Environment Ty) : Prop where
  /-- What a container holds means inside what it means outside. -/
  item : ∀ item, (s.plan (s.environmentFor ty outer) ty).item? = some item →
    outer.Preserves (s.environmentFor ty outer) item
  /-- So does what the parameters in the type of a field stand for. -/
  field : ∀ part ∈ (s.plan (s.environmentFor ty outer) ty).fieldTypes, ∀ n ∈ part.params,
    ∀ found, (s.environmentFor ty outer).resolve n = some found →
      outer.Preserves (s.environmentFor ty outer) found
  /-- The items of an array are not arrays by their argument. -/
  array : ∀ item, ty = .array item → ∀ n ∈ parameters, item.component = .param n →
    ∀ found, outer.resolve n = some found → found.component = found
  /-- A class token does not print a parameter, and the argument for one is no wildcard. -/
  token : ∀ target, s.tokenTarget? ty = some target → ∀ printed,
    concrete outer target = some printed → (∀ n ∈ printed.params, n ∉ parameters) ∧
      ∀ n ∈ parameters, target = .param n → printed.isWildcard = false

/-! ### places without conditions -/

/-- Parameters are transparent. -/
theorem transparent_param (s : Sampler) (parameters : List String) (n : String)
    (outer : Environment Ty) : s.Transparent parameters (.param n) outer := by
  have hplan : ∃ ty, s.plan (s.environmentFor (.param n) outer) (.param n) = .bound ty ∨
      s.plan (s.environmentFor (.param n) outer) (.param n) = .object [] := by
    rw [environmentFor_param, plan]
    cases outer.resolve n with
    | none => exact ⟨.param n, .inr rfl⟩
    | some found => exact ⟨found, .inl rfl⟩
  obtain ⟨ty, hplan | hplan⟩ := hplan
  all_goals
    constructor
    · simp [hplan, Plan.item?]
    · simp [hplan, Plan.fieldTypes, sampledTypes]
    · simp
    · simp [tokenTarget?]

/-- Classes that nothing is known of are transparent. -/
theorem transparent_unknown {s : Sampler} {name : String} (h : s.table.find? name = none)
    (parameters : List String) (args : List Ty) (outer : Environment Ty) :
    s.Transparent parameters (.named name args) outer := by
  have hplan := plan_of_unknown h (s.environmentFor (.named name args) outer) args
  constructor
  · simp [hplan, Plan.item?]
  · simp [hplan, Plan.fieldTypes]
  · simp
  · intro target htarget
    unfold tokenTarget? at htarget
    split at htarget
    · simp_all
    · contradiction

section

variable {s : Sampler} {σ : Substitution} {env env' : Environment Ty}

/-! ## images of a type -/

/-- Arguments with their parameters replaced are images. -/
theorem forall₂_image_substList {args : List Ty} {name : String}
    (h : ∀ m ∈ (Ty.named name args).params, Fills σ env m) :
    List.Forall₂ (Image σ env env') args (Ty.substList σ args) := by
  rw [Ty.substList_eq_map, List.forall₂_map_right_iff, List.forall₂_same]
  exact fun arg harg => .inl ⟨rfl, fun m hm => h m (Ty.mem_params_named.mpr ⟨arg, harg, hm⟩)⟩

/-- The images of a class with arguments. -/
theorem exists_args_of_image {name : String} {args : List Ty} {ty' : Ty}
    (h : Image σ env env' (.named name args) ty') :
    ∃ args', ty' = .named name args' ∧ List.Forall₂ (Image σ env env') args args' := by
  obtain ⟨rfl, hfills⟩ | ⟨rfl, halike⟩ := h
  · exact ⟨Ty.substList σ args, rfl, forall₂_image_substList hfills⟩
  · refine ⟨args, rfl, List.forall₂_same.mpr fun arg harg => .inr ⟨rfl, fun m hm => ?_⟩⟩
    exact halike m (Ty.mem_params_named.mpr ⟨arg, harg, hm⟩)

/-- Replacing parameters goes through to the item type, unless one stands for an
array. -/
theorem component_subst {item : Ty}
    (h : ∀ n found, item.component = .param n → σ.find? n = some found →
      found.component = found) : (item.subst σ).component = item.component.subst σ := by
  induction item using Ty.induct with
  | array item ih => exact ih h
  | param n =>
      rw [show (Ty.param n).component = .param n from rfl]
      cases hfound : σ.find? n with
      | none =>
          rw [Ty.subst, hfound]
          rfl
      | some found =>
          rw [Ty.subst_param_of_find? hfound]
          exact h n found rfl hfound
  | primitive | named | wildcard | bounded => rfl

/-- The images of an array, unless its items are arrays by their argument. -/
theorem exists_item_of_image {item ty' : Ty} (h : Image σ env env' (.array item) ty')
    (harray : ∀ n found, item.component = .param n → env.resolve n = some found →
      n ∈ σ.map Prod.fst → found.component = found) :
    ∃ item', ty' = .array item' ∧ Image σ env env' item.component item'.component := by
  obtain ⟨rfl, hfills⟩ | ⟨rfl, halike⟩ := h
  · refine ⟨item.subst σ, rfl, .inl ⟨component_subst fun n found hitem hfound => ?_, ?_⟩⟩
    · have hn : n ∈ (Ty.array item).params := by
        rw [Ty.params, ← Ty.params_component, hitem]
        exact List.mem_singleton_self n
      obtain ⟨found', hfound', hresolve⟩ := hfills n hn
      rw [hfound, Option.some.injEq] at hfound'
      rw [← hfound'] at hresolve
      exact harray n found hitem hresolve (List.mem_map_of_mem (Substitution.mem_of_find? hfound))
    · rw [Ty.params_component]
      exact hfills
  · refine ⟨item, rfl, .inr ⟨rfl, ?_⟩⟩
    rw [Ty.params_component]
    exact halike

/-! ## answers -/

/-- Images have one answer, if none is a parameter with its argument in its place. -/
theorem answer?_of_image {registry : Registry} {ty ty' : Ty} (h : Image σ env env' ty ty')
    (hparam : ∀ n, ty = .param n → ty' = ty) : registry.answer? ty = registry.answer? ty' := by
  cases ty with
  | named name args =>
      obtain ⟨args', rfl, hargs⟩ := exists_args_of_image h
      exact Registry.answer?_congr registry rfl
        (Ty.rawName_text_named_congr name hargs.length_eq)
  | param n => rw [hparam n rfl]
  | primitive | wildcard =>
      obtain ⟨rfl, _⟩ | ⟨rfl, _⟩ := h
      · rw [Ty.subst]
      · rfl
  | array item | bounded item =>
      obtain ⟨rfl, _⟩ | ⟨rfl, _⟩ := h
      · rw [Registry.answer?_eq_none_of_isRuled registry rfl,
          Registry.answer?_eq_none_of_isRuled registry rfl]
      · rfl

end

/-! ## class tokens -/

section

variable {s : Sampler} {σ : Substitution} {env env' inner inner' : Environment Ty}

/-- Class tokens for images print the same, if what the first one prints has
none of the replaced parameters and is no wildcard in the place of one. -/
theorem sampleToken_of_image (hclosed : ∀ m found, σ.find? m = some found → found.Closed)
    {target target' : Ty} (h : Image σ env env' target target')
    (hprinted : target.isWildcard = false → ∀ printed, concrete env target = some printed →
      (∀ n ∈ printed.params, n ∉ σ.map Prod.fst) ∧
        ∀ n ∈ σ.map Prod.fst, target = .param n → printed.isWildcard = false) :
    s.sampleToken env target = s.sampleToken env' target' := by
  cases target with
  | param n =>
      obtain ⟨rfl, hfills⟩ | ⟨rfl, halike⟩ := h
      · obtain ⟨found, hfound, hn⟩ := hfills n (List.mem_singleton_self n)
        have hmem : n ∈ σ.map Prod.fst := List.mem_map_of_mem (Substitution.mem_of_find? hfound)
        have hwildcard := (hprinted rfl found hn).2 n hmem rfl
        rw [Ty.subst_param_of_find? hfound, sampleToken_eq_ite, sampleToken_eq_ite, hwildcard,
          concrete_of_closed (hclosed n found hfound),
          show concrete env (.param n) = some found from hn]
        rfl
      · refine sampleToken_congr ?_
        have hrel := (halike n (List.mem_singleton_self n)).rel
        cases hn : env.resolve n with
        | none =>
            rw [hn] at hrel
            rw [concrete, concrete, hn, eq_none_of_rel_none hrel]
        | some found =>
            rw [hn] at hrel
            obtain ⟨found', hn', himage⟩ := exists_of_rel_some hrel
            rw [concrete, concrete, hn, hn', himage.eq_of_find? fun m hm =>
              Substitution.find?_eq_none_iff.mpr ((hprinted rfl found hn).1 m hm)]
  | primitive | array | named =>
      rw [h.eq_of_find? fun m hm =>
        Substitution.find?_eq_none_iff.mpr ((hprinted rfl _ rfl).1 m hm)]
      exact sampleToken_congr rfl
  | wildcard | bounded =>
      obtain ⟨rfl, _⟩ | ⟨rfl, _⟩ := h
      · rfl
      · rfl

/-! ## plans -/

/-- Containers of images hold images. -/
theorem planContainer_rel {container : Container} {args args' : List Ty}
    (hargs : List.Forall₂ (Image σ env env') args args')
    (hitem : ∀ item item', (s.planContainer inner container args).item? = some item →
      Image σ env env' item item' → Image σ inner inner' item item')
    (htoken : ∀ target target', args = [target] → args' = [target'] → container = .classToken →
      s.sampleToken inner target = s.sampleToken inner' target') :
    Plan.Rel (Image σ inner inner') (s.planContainer inner container args)
      (s.planContainer inner' container args') := by
  -- the families differ in the number of arguments that they take
  obtain _ | ⟨h₁, _ | ⟨h₂, _ | ⟨h₃, hrest⟩⟩⟩ := hargs
  · cases container with
    | sequence | optional | classToken | map => exact .value _
  · cases container with
    | sequence => exact .list (hitem _ _ rfl h₁)
    | optional => exact .optional (hitem _ _ rfl h₁)
    | classToken =>
        rw [planContainer, planContainer, htoken _ _ rfl rfl rfl]
        exact .value _
    | map => exact .value _
  · cases container with
    | map => exact .map (hitem _ _ rfl h₂)
    | sequence | optional | classToken => exact .value _
  · cases container with
    | sequence | optional | classToken | map => exact .value _

/-- Class tokens of images are the same. -/
theorem sampleToken_of_transparent
    (hclosed : ∀ m found, σ.find? m = some found → found.Closed) {info : ClassInfo} {name : String}
    {target target' : Ty} (hinfo : s.table.find? name = some info)
    (hcont : s.table.containerOf? name info.typeParameters.length = some .classToken)
    (himage : Image σ env env' target target')
    (h : s.Transparent (σ.map Prod.fst) (.named name [target]) env) :
    s.sampleToken (s.environmentFor (.named name [target]) env) target =
      s.sampleToken (s.environmentFor (.named name [target']) env') target' := by
  have hone := ClassTable.arity_of_containerOf?_classToken hcont
  calc s.sampleToken (s.environmentFor (.named name [target]) env) target
      = s.sampleToken env target :=
        sampleToken_congr (concrete_environmentFor_singleton hinfo hone)
    _ = s.sampleToken env' target' := by
        refine sampleToken_of_image hclosed himage fun hwildcard => h.token target ?_
        simp [tokenTarget?, hinfo, hcont, hwildcard]
    _ = s.sampleToken (s.environmentFor (.named name [target']) env') target' :=
        (sampleToken_congr (concrete_environmentFor_singleton hinfo hone)).symm

/-- Inside a class, its own parameters stay alike. -/
theorem alike_of_transparent (hclosed : ∀ m found, σ.find? m = some found → found.Closed)
    {info : ClassInfo} {name : String} {args args' : List Ty}
    (hinfo : s.table.find? name = some info) (hargs : List.Forall₂ (Image σ env env') args args')
    (h : s.Transparent (σ.map Prod.fst) (.named name args) env) {part : Ty}
    (hpart : part ∈
      (s.plan (s.environmentFor (.named name args) env) (.named name args)).fieldTypes)
    {m : String} (hm : m ∈ part.params) (hmem : m ∈ info.typeParameters) :
    Alike σ (s.environmentFor (.named name args) env) (s.environmentFor (.named name args') env')
      m := by
  refine .of_rel ?_
  have hrel := rel_environmentFor hclosed hinfo hargs hmem
  cases hfound : (s.environmentFor (.named name args) env).resolve m with
  | none =>
      rw [hfound] at hrel
      rw [eq_none_of_rel_none hrel]
      exact .none
  | some found =>
      rw [hfound] at hrel
      obtain ⟨found', hfound', himage⟩ := exists_of_rel_some hrel
      rw [hfound']
      exact .some (himage.inside hclosed (layered_environmentFor hclosed hargs)
        (h.field part hpart m hm found hfound))

/-- Images of a class are sampled by images, at a transparent place. -/
theorem plan_named_rel (hclosed : ∀ m found, σ.find? m = some found → found.Closed)
    (hown : ∀ info ∈ s.table.classes, info.OwnScope) {name : String} {args args' : List Ty}
    (hargs : List.Forall₂ (Image σ env env') args args')
    (h : s.Transparent (σ.map Prod.fst) (.named name args) env)
    (hinner : inner = s.environmentFor (.named name args) env)
    (hinner' : inner' = s.environmentFor (.named name args') env') :
    Plan.Rel (fun part part' => part ∈ (s.plan inner (.named name args)).parts →
        Image σ inner inner' part part')
      (s.plan inner (.named name args)) (s.plan inner' (.named name args')) := by
  subst hinner hinner'
  cases hinfo : s.table.find? name with
  | none =>
      rw [plan_of_unknown hinfo, plan_of_unknown hinfo]
      exact .value _
  | some info =>
      cases hconst : s.firstConstant? info with
      | some constant =>
          rw [plan_of_constant hinfo hconst, plan_of_constant hinfo hconst]
          exact .value _
      | none =>
          cases hcont : s.table.containerOf? name info.typeParameters.length with
          | some container =>
              have hplan := plan_of_container hinfo hconst hcont
              have hrel : Plan.Rel (Image σ (s.environmentFor (.named name args) env)
                  (s.environmentFor (.named name args') env'))
                  (s.plan (s.environmentFor (.named name args) env) (.named name args))
                  (s.plan (s.environmentFor (.named name args') env') (.named name args')) := by
                rw [hplan, hplan]
                refine planContainer_rel hargs (fun item item' hitem himage => ?_) ?_
                · rw [← hplan] at hitem
                  exact himage.inside hclosed (layered_environmentFor hclosed hargs)
                    (h.item item hitem)
                · rintro target target' rfl rfl rfl
                  obtain _ | ⟨himage, _⟩ := hargs
                  exact sampleToken_of_transparent hclosed hinfo hcont himage h
              refine hrel.imp ?_
              exact fun _ _ himage _ => himage
          | none =>
              have hplan := plan_of_object hinfo hconst hcont
              rw [hplan, hplan]
              refine .object (List.forall₂_same.mpr fun field hfield => ⟨rfl, rfl, rfl, ?_⟩)
              refine fun hpart => .inr ⟨rfl, fun m hm => ?_⟩
              refine alike_of_transparent hclosed hinfo hargs h ?_ hm ?_
              · rw [hplan]
                exact hpart
              · exact ClassTable.params_allFields hown (ClassTable.mem_of_find? hinfo) hfield m hm

/-- A parameter that is its own image stands for images. -/
theorem alike_of_image_param (hclosed : ∀ m found, σ.find? m = some found → found.Closed)
    {n : String} (h : Image σ env env' (.param n) (.param n)) : Alike σ env env' n := by
  obtain ⟨hsubst, hfills⟩ | ⟨_, halike⟩ := h
  · -- nothing closed is a parameter
    obtain ⟨found, hfound, _⟩ := hfills n (List.mem_singleton_self n)
    rw [Ty.subst_param_of_find? hfound] at hsubst
    exact absurd (hsubst ▸ List.mem_singleton_self n) ((hclosed n found hfound).not_mem n)
  · exact halike n (List.mem_singleton_self n)

/-- Images are sampled by images, at a transparent place. -/
theorem plan_rel (hclosed : ∀ m found, σ.find? m = some found → found.Closed)
    (hown : ∀ info ∈ s.table.classes, info.OwnScope) {ty ty' : Ty}
    (himage : Image σ env env' ty ty') (hparam : ∀ n, ty = .param n → ty' = ty)
    (h : s.Transparent (σ.map Prod.fst) ty env) :
    Plan.Rel (fun part part' => part ∈ (s.plan (s.environmentFor ty env) ty).parts →
        Image σ (s.environmentFor ty env) (s.environmentFor ty' env') part part')
      (s.plan (s.environmentFor ty env) ty) (s.plan (s.environmentFor ty' env') ty') := by
  cases ty with
  | named name args =>
      obtain ⟨args', rfl, hargs⟩ := exists_args_of_image himage
      exact plan_named_rel hclosed hown hargs h rfl rfl
  | array item =>
      obtain ⟨item', rfl, hitem⟩ := exists_item_of_image himage fun n found hcomp hfound hn =>
        h.array item rfl n hn hcomp found hfound
      exact .list fun _ => hitem
  | param n =>
      rw [hparam n rfl] at himage ⊢
      have hrel := (alike_of_image_param hclosed himage).rel
      rw [environmentFor_param, environmentFor_param, plan, plan]
      cases hfound : env.resolve n with
      | none =>
          rw [hfound] at hrel
          rw [eq_none_of_rel_none hrel]
          exact .object .nil
      | some found =>
          rw [hfound] at hrel
          obtain ⟨found', hfound', hbound⟩ := exists_of_rel_some hrel
          rw [hfound']
          exact .bound fun _ => hbound
  | primitive | wildcard | bounded =>
      obtain ⟨rfl, _⟩ | ⟨rfl, _⟩ := himage
      · exact .value none
      · exact .value none

/-! ## samples -/

variable {registry : Registry}

/-- **Images** have the same sample, if every place that the first run looks
into is transparent and neither run uses up its depth.  The depths need not be
equal, as the first run goes through the parameters that were replaced. -/
theorem run_sampleAt_of_image (hclosed : ∀ m found, σ.find? m = some found → found.Closed)
    (hown : ∀ info ∈ s.table.classes, info.OwnScope) (hfixed : registry.IsFixed)
    (hrule : ∀ n ∈ σ.map Prod.fst, registry.rule? (rawName n) = none) {left left' : Nat}
    {ty ty' : Ty} (himage : Image σ env env' ty ty') (hleft : left < maxDepth)
    (hleft' : left' < maxDepth) (hrun : s.Shallow registry left ty env)
    (hrun' : s.Shallow registry left' ty' env')
    (h : s.Along registry (fun _ => s.Transparent (σ.map Prod.fst)) left ty env) :
    (s.sampleAt left ty (s.environmentFor ty env)).run registry =
      (s.sampleAt left' ty' (s.environmentFor ty' env')).run registry := by
  induction left generalizing left' ty ty' env env' with
  | zero => exact absurd rfl hrun.here
  | succ left ih =>
      by_cases hparam : ∀ n, ty = .param n → ty' = ty
      · obtain ⟨left', rfl⟩ := Nat.exists_eq_succ_of_ne_zero hrun'.here
        have hanswer : registry.answer? ty = registry.answer? ty' :=
          answer?_of_image himage hparam
        refine run_sampleAt_of_rel hfixed ⟨fun _ => ?_, fun _ => ?_⟩ hanswer
          (fun _ => plan_rel hclosed hown himage hparam h.here)
          fun hnone part hpart part' hpart' hpart_image => ?_
        · omega
        · omega
        · exact ih (hpart_image hpart) (by omega) (by omega) (hrun.part hnone hpart)
            (hrun'.part (hanswer ▸ hnone) hpart') (h.part hnone hpart)
      · -- the second run has the argument in the place of the parameter
        simp only [not_forall] at hparam
        obtain ⟨n, rfl, hne⟩ := hparam
        obtain ⟨hsubst, hfills⟩ | ⟨heq, _⟩ := himage
        · obtain ⟨found, hfound, hn⟩ := hfills n (List.mem_singleton_self n)
          rw [Ty.subst_param_of_find? hfound] at hsubst
          subst hsubst
          have hmem : n ∈ σ.map Prod.fst := List.mem_map_of_mem (Substitution.mem_of_find? hfound)
          have hnone : registry.answer? (.param n) = none :=
            Registry.answer?_eq_none_of_rule? (by rw [Ty.rawName_text_param, hrule n hmem])
          have hplan : s.plan (s.environmentFor (.param n) env) (.param n) = .bound ty' := by
            rw [environmentFor_param, plan, hn]
          have hpart : ty' ∈ (s.plan (s.environmentFor (.param n) env) (.param n)).parts := by
            rw [hplan]
            exact List.mem_singleton_self ty'
          rw [run_sampleAt_param s hfixed hnone hn]
          exact ih (.of_closed (hclosed n ty' hfound)) (by omega) hleft' (hrun.part hnone hpart)
            hrun' (h.part hnone hpart)
        · exact absurd heq hne

end

end Sampler

end Exemplar
