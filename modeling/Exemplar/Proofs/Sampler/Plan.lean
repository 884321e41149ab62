import Exemplar.Sampler.Basic
import Mathlib.Data.List.Forall2

/-!
# Exemplar.Proofs.Sampler.Plan

One step of sampling, apart from the recursion.  What is done at a type, once
no rule of the registry answers for it, is a `Plan`: a value, or the parts of
the type that are sampled next and how their samples are put together.

* `sampleAt_succ` — a sample is its plan, run with the samples of the parts;
* `Plan.run_rel` — related plans give equal samples, if the samples of the
  related parts that are looked into are equal;
* `Plan.run_congr` — a plan reads the samples of its parts only;
* `Plan.run_keeps` — what the parts keep of the registry, the plan keeps.

Proofs about two runs, or about all values of a run, are inductions on the
depth whose step is one of these lemmas.
-/

namespace Exemplar

/-! ## plans -/

/-- What is done at a type. -/
inductive Plan where
  | value (value : Option Json)
  | list (item : Ty)
  | optional (inner : Ty)
  | map (value : Ty)
  | bound (ty : Ty)
  | object (fields : List (FieldInfo Ty))

/-- The initializer of a field, unless it is null. -/
def FieldInfo.initialValue? (field : FieldInfo Ty) : Option Json :=
  match field.initializer with
  | none | some .null => none
  | some value => some value

/-- The types of the fields that are looked into: those before a static field
that have no value of their own. -/
def sampledTypes : List (FieldInfo Ty) → List Ty
  | [] => []
  | field :: rest =>
      if field.isStatic then []
      else if field.initialValue?.isSome then sampledTypes rest
      else field.type :: sampledTypes rest

namespace Plan

/-- The types that are looked into. -/
def parts : Plan → List Ty
  | value _ => []
  | list ty | optional ty | map ty | bound ty => [ty]
  | object fields => sampledTypes fields

/-- The type of what a container holds. -/
def item? : Plan → Option Ty
  | list ty | optional ty | map ty => some ty
  | value _ | bound _ | object _ => none

/-- The types of the fields that are looked into. -/
def fieldTypes : Plan → List Ty
  | object fields => sampledTypes fields
  | value _ | list _ | optional _ | map _ | bound _ => []

/-- Puts the samples of the parts together. -/
def run (step : Ty → Sampling) (isRoot : Bool) : Plan → Sampling
  | value v => return v
  | list item => return some (Sampler.listOf (← step item))
  | optional inner => return some ((← step inner).getD .null)
  | map v => return some (.object [(mapKey, (← step v).getD .null)])
  | bound ty => step ty
  | object fields => Sampler.sampleObject step isRoot fields

end Plan

namespace Sampler

/-- What is done at a container. -/
def planContainer (s : Sampler) (env : Environment Ty) : Container → List Ty → Plan
  | .sequence, [item] => .list item
  | .sequence, _ => .value (some (.array []))
  | .optional, [inner] => .optional inner
  | .optional, _ => .value (some .null)
  | .classToken, [target] => .value (s.sampleToken env target)
  | .classToken, _ => .value none
  | .map, [_, value] => .map value
  | .map, _ => .value (some (.object []))

/-- What is done at a class. -/
def planClass (s : Sampler) (env : Environment Ty) (name : String) (args : List Ty) : Plan :=
  match s.table.find? name with
  | none => .value (some (.object []))
  | some info =>
    match s.firstConstant? info with
    | some constant => .value (some (.string constant))
    | none =>
      match s.table.containerOf? name info.typeParameters.length with
      | some container => s.planContainer env container args
      | none => .object (s.table.allFields info)

/-- What is done at a type in an environment. -/
def plan (s : Sampler) (env : Environment Ty) : Ty → Plan
  | .primitive _ | .wildcard | .bounded _ => .value none
  | .array item => .list item.component
  | .named name args => s.planClass env name args
  | .param name =>
    match env.resolve name with
    | some bound => .bound bound
    | none => .object []

/-- The types that the registry is asked about. -/
def isRuled : Ty → Bool
  | .primitive _ | .named _ _ | .param _ => true
  | .array _ | .wildcard | .bounded _ => false

/-- The value of a rule where there can be one, or else the given sample. -/
def withRule (ty : Ty) (sample : Sampling) : Sampling :=
  if isRuled ty then orElse ty sample else sample

/-! ### classes -/

section

variable {s : Sampler} {name : String} {info : ClassInfo}

theorem firstConstant?_eq_none (s : Sampler) (h : info.kind ≠ .enumeration) :
    s.firstConstant? info = none := by
  simp [firstConstant?, ClassInfo.constants, h]

/-- A class that nothing is known of is an empty object. -/
theorem plan_of_unknown (h : s.table.find? name = none) (env : Environment Ty) (args : List Ty) :
    s.plan env (.named name args) = .value (some (.object [])) := by
  simp only [plan, planClass, h]

/-- An enumeration is its first constant. -/
theorem plan_of_constant (h : s.table.find? name = some info) {constant : String}
    (hconst : s.firstConstant? info = some constant) (env : Environment Ty) (args : List Ty) :
    s.plan env (.named name args) = .value (some (.string constant)) := by
  simp only [plan, planClass, h, hconst]

/-- A library class is sampled as a container. -/
theorem plan_of_container (h : s.table.find? name = some info)
    (hconst : s.firstConstant? info = none) {container : Container}
    (hcont : s.table.containerOf? name info.typeParameters.length = some container)
    (env : Environment Ty) (args : List Ty) :
    s.plan env (.named name args) = s.planContainer env container args := by
  simp only [plan, planClass, h, hconst, hcont]

/-- Any other class is an object of its fields. -/
theorem plan_of_object (h : s.table.find? name = some info)
    (hconst : s.firstConstant? info = none)
    (hcont : s.table.containerOf? name info.typeParameters.length = none)
    (env : Environment Ty) (args : List Ty) :
    s.plan env (.named name args) = .object (s.table.allFields info) := by
  simp only [plan, planClass, h, hconst, hcont]

end

/-! ### runs -/

/-- Running the plan of a container samples the container. -/
theorem run_planContainer (s : Sampler) (step : Ty → Sampling) (isRoot : Bool)
    (env : Environment Ty) (container : Container) (args : List Ty) :
    (s.planContainer env container args).run step isRoot =
      s.sampleContainer step env container args := by
  -- only the number of arguments matters, and none of the families takes more than two
  cases container <;> obtain _ | ⟨a, _ | ⟨b, _ | ⟨c, rest⟩⟩⟩ := args <;> rfl

/-- Running the plan of a class samples the class. -/
theorem run_planClass (s : Sampler) (step : Ty → Sampling) (isRoot : Bool)
    (env : Environment Ty) (name : String) (args : List Ty) :
    (s.planClass env name args).run step isRoot =
      s.sampleClass step isRoot env name args := by
  unfold planClass sampleClass
  cases s.table.find? name with
  | none => rfl
  | some info =>
      simp only
      cases s.firstConstant? info with
      | some constant => rfl
      | none =>
          simp only
          cases s.table.containerOf? name info.typeParameters.length with
          | none => rfl
          | some container => exact run_planContainer s step isRoot env container args

theorem orElse_absent (ty : Ty) : orElse ty (pure none) = Registry.lookup ty.text := by
  unfold orElse
  refine Eq.trans ?_ (bind_pure (Registry.lookup ty.text))
  congr 1
  funext found
  cases found with
  | none | some value => rfl

/-- **One step**: a sample is its plan, run with the samples of the parts, if
no rule answers first. -/
theorem sampleAt_succ (s : Sampler) (left : Nat) (ty : Ty) (env : Environment Ty) :
    s.sampleAt (left + 1) ty env = withRule ty ((s.plan env ty).run
      (fun part => s.sampleAt left part (s.environmentFor part env))
      (decide (left + 1 = maxDepth))) := by
  cases ty with
  | primitive name => exact (orElse_absent (.primitive name)).symm
  | array item => rfl
  | named name args => rw [plan, run_planClass]; rfl
  | param name =>
      rw [sampleAt, plan, sampleParameter]
      cases env.resolve name with
      | none | some bound => rfl
  | wildcard => rfl
  | bounded bound => rfl

end Sampler

/-! ## related plans -/

/-- Fields that differ in their types only, and there by a relation. -/
structure FieldInfo.Rel (R : Ty → Ty → Prop) (field field' : FieldInfo Ty) : Prop where
  key : field.key = field'.key
  isStatic : field.isStatic = field'.isStatic
  initializer : field.initializer = field'.initializer
  type : R field.type field'.type

/-- Plans of one form, whose types are related. -/
inductive Plan.Rel (R : Ty → Ty → Prop) : Plan → Plan → Prop where
  | value (value : Option Json) : Rel R (.value value) (.value value)
  | list {item item' : Ty} : R item item' → Rel R (.list item) (.list item')
  | optional {inner inner' : Ty} : R inner inner' → Rel R (.optional inner) (.optional inner')
  | map {value value' : Ty} : R value value' → Rel R (.map value) (.map value')
  | bound {ty ty' : Ty} : R ty ty' → Rel R (.bound ty) (.bound ty')
  | object {fields fields' : List (FieldInfo Ty)} :
      List.Forall₂ (FieldInfo.Rel R) fields fields' → Rel R (.object fields) (.object fields')

namespace FieldInfo

theorem Rel.initialValue? {R : Ty → Ty → Prop} {field field' : FieldInfo Ty}
    (h : Rel R field field') : field.initialValue? = field'.initialValue? := by
  rw [FieldInfo.initialValue?, FieldInfo.initialValue?, h.initializer]

end FieldInfo

/-- A field shows its initializer, or else a sample of its type. -/
theorem Sampler.sampleField_eq (step : Ty → Sampling) (field : FieldInfo Ty) :
    sampleField step field = match field.initialValue? with
      | some value => return some value
      | none => step field.type := by
  unfold sampleField FieldInfo.initialValue?
  split <;> simp_all

section

variable {step : Ty → Sampling} {field : FieldInfo Ty} {rest : List (FieldInfo Ty)}

/-- A static field ends the object. -/
theorem Sampler.run_sampleFields_of_isStatic (hs : field.isStatic = true)
    (entries : List (String × Json)) (r : Registry) :
    (sampleFields step (field :: rest) entries).run r = (none, r) := by
  rw [sampleFields, if_pos hs]
  rfl

/-- A field with a value of its own has that value. -/
theorem Sampler.run_sampleFields_of_eq_some (hs : field.isStatic = false) {value : Json}
    (hv : field.initialValue? = some value) (entries : List (String × Json)) (r : Registry) :
    (sampleFields step (field :: rest) entries).run r =
      (sampleFields step rest (Json.insertEntry field.key value entries)).run r := by
  rw [sampleFields, sampleField_eq, hs, hv]
  rfl

/-- Another field has the sample of its type, or is left out. -/
theorem Sampler.run_sampleFields_of_eq_none (hs : field.isStatic = false)
    (hv : field.initialValue? = none) (entries : List (String × Json)) (r : Registry) :
    (sampleFields step (field :: rest) entries).run r =
      (sampleFields step rest (match ((step field.type).run r).1 with
        | none => entries
        | some value => Json.insertEntry field.key value entries)).run
          ((step field.type).run r).2 := by
  rw [sampleFields, sampleField_eq, hs, hv, if_neg Bool.false_ne_true, StateT.run_bind]
  cases hrun : (step field.type).run r with
  | mk found r₁ => cases found <;> rfl

theorem sampledTypes_of_eq_some (hs : field.isStatic = false) {value : Json}
    (hv : field.initialValue? = some value) : sampledTypes (field :: rest) = sampledTypes rest := by
  rw [sampledTypes, hs, hv]
  rfl

theorem sampledTypes_of_eq_none (hs : field.isStatic = false) (hv : field.initialValue? = none) :
    sampledTypes (field :: rest) = field.type :: sampledTypes rest := by
  rw [sampledTypes, hs, hv]
  rfl

end

/-! ## parts -/

/-- Only types of fields are sampled. -/
theorem exists_field_of_mem_sampledTypes {fields : List (FieldInfo Ty)} {ty : Ty}
    (h : ty ∈ sampledTypes fields) : ∃ field ∈ fields, field.type = ty := by
  induction fields with
  | nil => simp [sampledTypes] at h
  | cons field rest ih =>
      rw [sampledTypes] at h
      split at h
      · contradiction
      · split at h
        · obtain ⟨found, hmem, rfl⟩ := ih h
          exact ⟨found, List.mem_cons_of_mem field hmem, rfl⟩
        · obtain rfl | h := List.mem_cons.mp h
          · exact ⟨field, List.mem_cons_self, rfl⟩
          · obtain ⟨found, hmem, rfl⟩ := ih h
            exact ⟨found, List.mem_cons_of_mem field hmem, rfl⟩

namespace Sampler

/-- A container is looked into through its arguments. -/
theorem mem_args_of_mem_parts {s : Sampler} {env : Environment Ty} {container : Container}
    {args : List Ty} {part : Ty} (h : part ∈ (s.planContainer env container args).parts) :
    part ∈ args := by
  unfold planContainer at h
  split at h <;> simp_all [Plan.parts]

/-- A class is looked into through its arguments or through its fields. -/
theorem mem_parts_planClass {s : Sampler} {env : Environment Ty} {name : String}
    {args : List Ty} {part : Ty} (h : part ∈ (s.planClass env name args).parts) :
    part ∈ args ∨ ∃ info, s.table.find? name = some info ∧
      ∃ field ∈ s.table.allFields info, field.type = part := by
  unfold planClass at h
  cases hinfo : s.table.find? name with
  | none => simp [hinfo, Plan.parts] at h
  | some info =>
      cases hconst : s.firstConstant? info with
      | some constant => simp [hinfo, hconst, Plan.parts] at h
      | none =>
          cases hcont : s.table.containerOf? name info.typeParameters.length with
          | none =>
              simp only [hinfo, hconst, hcont, Plan.parts] at h
              exact .inr ⟨info, rfl, exists_field_of_mem_sampledTypes h⟩
          | some container =>
              simp only [hinfo, hconst, hcont] at h
              exact .inl (mem_args_of_mem_parts h)

/-- **What is looked into**: the component of an array, what a parameter stands
for, and the arguments or the fields of a class. -/
theorem mem_parts_plan {s : Sampler} {env : Environment Ty} {ty part : Ty}
    (h : part ∈ (s.plan env ty).parts) :
    (∃ item, ty = .array item ∧ part = item.component) ∨
      (∃ n, ty = .param n ∧ env.resolve n = some part) ∨
      ∃ name args, ty = .named name args ∧ (part ∈ args ∨ ∃ info, s.table.find? name = some info ∧
        ∃ field ∈ s.table.allFields info, field.type = part) := by
  cases ty with
  | primitive | wildcard | bounded => contradiction
  | array item => exact .inl ⟨item, rfl, List.mem_singleton.mp h⟩
  | param n =>
      cases hfound : env.resolve n with
      | none => simp [plan, hfound, Plan.parts, sampledTypes] at h
      | some bound =>
          simp only [plan, hfound, Plan.parts, List.mem_singleton] at h
          exact .inr (.inl ⟨n, rfl, h ▸ hfound⟩)
  | named name args => exact .inr (.inr ⟨name, args, rfl, mem_parts_planClass h⟩)

end Sampler

/-! ## what a plan keeps -/

section

variable {P : Registry → Prop} {step step' : Ty → Sampling}

/-- What each step keeps of the registry, all fields keep. -/
theorem Sampler.sampleFields_keeps (fields : List (FieldInfo Ty))
    (hkeep : ∀ ty ∈ sampledTypes fields, ∀ r, P r → P ((step ty).run r).2) :
    ∀ entries r, P r → P ((sampleFields step fields entries).run r).2 := by
  induction fields with
  | nil => exact fun _ _ hr => hr
  | cons field rest ih =>
      intro entries r hr
      cases hs : field.isStatic with
      | true =>
          rw [run_sampleFields_of_isStatic hs]
          exact hr
      | false =>
          cases hv : field.initialValue? with
          | some value =>
              rw [sampledTypes_of_eq_some hs hv] at hkeep
              rw [run_sampleFields_of_eq_some hs hv]
              exact ih hkeep _ r hr
          | none =>
              rw [sampledTypes_of_eq_none hs hv] at hkeep
              obtain ⟨hfield, hkeep⟩ := List.forall_mem_cons.mp hkeep
              rw [run_sampleFields_of_eq_none hs hv]
              exact ih hkeep _ _ (hfield r hr)

/-- What the samples of the parts keep of the registry, the plan keeps. -/
theorem Plan.run_keeps (plan : Plan) (isRoot : Bool)
    (hkeep : ∀ ty ∈ plan.parts, ∀ r, P r → P ((step ty).run r).2) :
    ∀ r, P r → P ((plan.run step isRoot).run r).2 := by
  intro r hr
  cases plan with
  | value v => exact hr
  | list ty | optional ty | map ty | bound ty =>
      exact hkeep ty (List.mem_singleton_self ty) r hr
  | object fields =>
      rw [run, Sampler.sampleObject]
      split
      · exact hr
      · exact Sampler.sampleFields_keeps fields hkeep [] r hr

end

/-! ## equal samples -/

section

variable {P : Registry → Prop} {R : Ty → Ty → Prop} {step step' : Ty → Sampling}

/-- Related fields have the same samples, if related types do. -/
theorem Sampler.sampleFields_rel {fields fields' : List (FieldInfo Ty)}
    (h : List.Forall₂ (FieldInfo.Rel R) fields fields')
    (hkeep : ∀ ty ∈ sampledTypes fields, ∀ r, P r → P ((step ty).run r).2)
    (hsame : ∀ ty ∈ sampledTypes fields, ∀ ty' ∈ sampledTypes fields', R ty ty' →
      ∀ r, P r → (step ty).run r = (step' ty').run r) :
    ∀ entries r, P r → (sampleFields step fields entries).run r =
      (sampleFields step' fields' entries).run r := by
  induction h with
  | nil => exact fun _ _ _ => rfl
  | @cons field field' rest rest' hfield hrest ih =>
      intro entries r hr
      have hs' := hfield.isStatic
      have hv' := hfield.initialValue?
      cases hs : field.isStatic with
      | true =>
          rw [run_sampleFields_of_isStatic hs, run_sampleFields_of_isStatic (hs'.symm.trans hs)]
      | false =>
          rw [hs] at hs'
          cases hv : field.initialValue? with
          | some value =>
              rw [hv] at hv'
              rw [sampledTypes_of_eq_some hs hv] at hkeep hsame
              rw [sampledTypes_of_eq_some hs'.symm hv'.symm] at hsame
              rw [run_sampleFields_of_eq_some hs hv,
                run_sampleFields_of_eq_some hs'.symm hv'.symm, ← hfield.key]
              exact ih hkeep hsame _ r hr
          | none =>
              rw [hv] at hv'
              rw [sampledTypes_of_eq_none hs hv] at hkeep hsame
              rw [sampledTypes_of_eq_none hs'.symm hv'.symm] at hsame
              have heq := hsame field.type List.mem_cons_self field'.type List.mem_cons_self
                hfield.type r hr
              rw [run_sampleFields_of_eq_none hs hv,
                run_sampleFields_of_eq_none hs'.symm hv'.symm, ← hfield.key, ← heq]
              exact ih (fun ty hty => hkeep ty (List.mem_cons_of_mem _ hty))
                (fun ty hty ty' hty' => hsame ty (List.mem_cons_of_mem _ hty) ty'
                  (List.mem_cons_of_mem _ hty')) _ _ (hkeep field.type List.mem_cons_self r hr)

/-- **Related plans** give equal samples, if the samples of the related parts
that are looked into are equal. -/
theorem Plan.run_rel {plan plan' : Plan} (h : Plan.Rel R plan plan') (isRoot : Bool)
    (hkeep : ∀ ty ∈ plan.parts, ∀ r, P r → P ((step ty).run r).2)
    (hsame : ∀ ty ∈ plan.parts, ∀ ty' ∈ plan'.parts, R ty ty' →
      ∀ r, P r → (step ty).run r = (step' ty').run r) :
    ∀ r, P r → (plan.run step isRoot).run r = (plan'.run step' isRoot).run r := by
  intro r hr
  cases h with
  | value v => rfl
  | @list ty ty' hty | @optional ty ty' hty | @map ty ty' hty | @bound ty ty' hty =>
      have heq := hsame ty (List.mem_singleton_self ty) ty' (List.mem_singleton_self ty') hty r hr
      simp only [run, StateT.run_bind, heq]
  | @object fields fields' hfields =>
      have hempty : fields.isEmpty = fields'.isEmpty := by
        cases hfields <;> rfl
      rw [run, run, Sampler.sampleObject, Sampler.sampleObject, hempty]
      split
      · rfl
      · simp only [StateT.run_bind, Sampler.sampleFields_rel hfields hkeep hsame [] r hr]

end

theorem Plan.Rel.imp {R R' : Ty → Ty → Prop} (hR : ∀ ty ty', R ty ty' → R' ty ty')
    {plan plan' : Plan} (h : Plan.Rel R plan plan') : Plan.Rel R' plan plan' := by
  cases h with
  | value v => exact .value v
  | list h => exact .list (hR _ _ h)
  | optional h => exact .optional (hR _ _ h)
  | map h => exact .map (hR _ _ h)
  | bound h => exact .bound (hR _ _ h)
  | object h => exact .object (h.imp fun _ _ hf =>
      ⟨hf.key, hf.isStatic, hf.initializer, hR _ _ hf.type⟩)

theorem Plan.rel_refl {R : Ty → Ty → Prop} (hR : ∀ ty, R ty ty) (plan : Plan) :
    Plan.Rel R plan plan := by
  cases plan with
  | value v => exact .value v
  | list ty => exact .list (hR ty)
  | optional ty => exact .optional (hR ty)
  | map ty => exact .map (hR ty)
  | bound ty => exact .bound (hR ty)
  | object fields =>
      exact .object (List.forall₂_same.mpr fun field _ => ⟨rfl, rfl, rfl, hR field.type⟩)

/-- A plan reads the samples of its parts and of nothing else. -/
theorem Plan.run_congr {plan : Plan} {step step' : Ty → Sampling} (isRoot : Bool)
    (h : ∀ ty ∈ plan.parts, step ty = step' ty) :
    plan.run step isRoot = plan.run step' isRoot := by
  funext r
  refine run_rel (P := fun _ => True) (rel_refl (fun _ => rfl) plan) isRoot
    (fun _ _ _ _ => trivial) ?_ r trivial
  rintro ty hty _ _ rfl r _
  rw [h ty hty]

end Exemplar
