import Exemplar.Proofs.Ty.Params
import Exemplar.Sampler.Basic

/-!
# Exemplar.Proofs.Sampler.Layer

What names stand for inside a class.  The environment inside a type has one
layer more than the one outside, if the type is a declared class: every type
parameter of the class is the argument written for it, as that argument is
outside, and every other name is what it is outside.

* `ClassInfo.argument?` — the argument that is written for a parameter;
* `resolve_environmentFor` — what a name stands for inside a class.
-/

namespace Exemplar

/-! ## frames -/

namespace Environment

variable {α : Type}

/-- The newest binding of a name counts. -/
theorem resolve_push (env : Environment α) (n m : String) (value : Option α) :
    (env.push n value).resolve m = if n = m then value else env.resolve m := by
  by_cases h : n = m
  · rw [if_pos h, h, resolve_push_self]
  · rw [if_neg h, resolve_push_of_ne env value h]

/-- Of several frames the last one with a name says what the name stands for. -/
theorem resolve_foldl_push (frames : List (String × Option α)) (env : Environment α)
    (n : String) :
    (frames.foldl (fun inner frame => inner.push frame.1 frame.2) env).resolve n =
      ((frames.reverse.find? (·.1 = n)).map (·.2)).getD (env.resolve n) := by
  induction frames generalizing env with
  | nil => rfl
  | cons frame frames ih =>
      rw [List.foldl_cons, ih, List.reverse_cons, List.find?_append, resolve_push]
      cases List.find? (·.1 = n) frames.reverse with
      | some found => rfl
      | none => by_cases h : frame.1 = n <;> simp [h]

end Environment

/-! ## written arguments -/

namespace ClassInfo

/-- The argument that is written for a parameter of a class, if there is one
for each parameter; the last one counts. -/
def argument? (info : ClassInfo) (args : List Ty) (n : String) : Option Ty :=
  (info.givenArguments args).bind fun args => Substitution.find? (info.typeParameters.zip args) n

/-- With as many arguments as parameters, each parameter has its argument. -/
theorem argument?_of_length_eq {info : ClassInfo} {args : List Ty}
    (h : args.length = info.typeParameters.length) (n : String) :
    info.argument? args n = Substitution.find? (info.typeParameters.zip args) n := by
  rw [argument?, givenArguments, if_pos h, Option.bind_some]

/-- With any other number, no parameter has one. -/
theorem argument?_of_length_ne {info : ClassInfo} {args : List Ty}
    (h : args.length ≠ info.typeParameters.length) (n : String) :
    info.argument? args n = none := by
  rw [argument?, givenArguments, if_neg h, Option.bind_none]

/-- An argument belongs to a parameter, and is one of those written. -/
theorem mem_of_argument? {info : ClassInfo} {args : List Ty} {n : String} {arg : Ty}
    (h : info.argument? args n = some arg) : n ∈ info.typeParameters ∧ arg ∈ args := by
  by_cases hl : args.length = info.typeParameters.length
  · rw [argument?_of_length_eq hl] at h
    exact List.of_mem_zip (Substitution.mem_of_find? h)
  · rw [argument?_of_length_ne hl] at h
    contradiction

/-- With an argument for each parameter, every parameter has its argument. -/
theorem exists_argument? {info : ClassInfo} {args : List Ty} {n : String}
    (h : args.length = info.typeParameters.length) (hn : n ∈ info.typeParameters) :
    ∃ arg, info.argument? args n = some arg := by
  rw [argument?_of_length_eq h, ← Option.ne_none_iff_exists', Ne, Substitution.find?_eq_none_iff,
    List.map_fst_zip (Nat.le_of_eq h.symm)]
  exact fun hnot => hnot hn

end ClassInfo

/-! ## layers -/

namespace Sampler

theorem environmentFor_eq_foldl (s : Sampler) (ty : Ty) (env : Environment Ty) :
    s.environmentFor ty env = match s.table.classOf? ty with
      | none => env
      | some info => (argumentsIn info ty.arguments env).foldl
          (fun inner frame => inner.push frame.1 frame.2) env := rfl

/-- There is no layer for a type that is no declared class. -/
theorem environmentFor_of_classOf?_eq_none {s : Sampler} {ty : Ty}
    (h : s.table.classOf? ty = none) (env : Environment Ty) : s.environmentFor ty env = env := by
  rw [environmentFor_eq_foldl, h]

theorem environmentFor_param (s : Sampler) (n : String) (env : Environment Ty) :
    s.environmentFor (.param n) env = env := rfl

/-- The last argument in a layer for a name that is a type parameter. -/
theorem find?_argumentsIn (info : ClassInfo) (args : List Ty) (env : Environment Ty)
    {n : String} (h : n ∈ info.typeParameters) :
    ((argumentsIn info args env).reverse.find? (·.1 = n)).map (·.2) =
      some ((info.argument? args n).bind (concrete env)) := by
  unfold argumentsIn
  by_cases hl : args.length = info.typeParameters.length
  · have hg : info.givenArguments args = some args := by rw [ClassInfo.givenArguments, if_pos hl]
    obtain ⟨arg, harg⟩ := ClassInfo.exists_argument? hl h
    rw [ClassInfo.argument?_of_length_eq hl, Substitution.find?, Option.map_eq_some_iff] at harg
    obtain ⟨pair, hfind, rfl⟩ := harg
    rw [hg, ClassInfo.argument?_of_length_eq hl, Substitution.find?]
    simp only [List.zip_map_right, ← List.map_reverse, List.find?_map]
    rw [show ((fun x : String × Option Ty => decide (x.1 = n)) ∘ Prod.map id (concrete env)) =
      fun x : String × Ty => decide (x.1 = n) from rfl, hfind]
    rfl
  · have hg : info.givenArguments args = none := by rw [ClassInfo.givenArguments, if_neg hl]
    rw [hg, ClassInfo.argument?_of_length_ne hl]
    simp only [← List.map_reverse, List.find?_map]
    cases hfind : List.find? ((fun x : String × Option Ty => decide (x.1 = n)) ∘ (·, none))
        info.typeParameters.reverse with
    | some m => rfl
    | none =>
        have hnot := List.find?_eq_none.mp hfind n (List.mem_reverse.mpr h)
        simp at hnot

/-- **Inside a class** a type parameter of the class is its argument as that
is outside, and any other name is what it is outside. -/
theorem resolve_environmentFor {s : Sampler} {ty : Ty} {info : ClassInfo}
    (h : s.table.classOf? ty = some info) (env : Environment Ty) (n : String) :
    (s.environmentFor ty env).resolve n =
      if n ∈ info.typeParameters then (info.argument? ty.arguments n).bind (concrete env)
      else env.resolve n := by
  rw [environmentFor_eq_foldl, h]
  simp only
  rw [Environment.resolve_foldl_push]
  by_cases hn : n ∈ info.typeParameters
  · rw [if_pos hn, find?_argumentsIn info ty.arguments env hn, Option.getD_some]
  · rw [if_neg hn, List.find?_eq_none.mpr, Option.map_none, Option.getD_none]
    intro frame hframe
    have hname : frame.1 ∈ info.typeParameters := by
      rw [List.mem_reverse, argumentsIn] at hframe
      split at hframe
      · exact (List.of_mem_zip hframe).1
      · obtain ⟨m, hm, rfl⟩ := List.mem_map.mp hframe
        exact hm
    simp only [decide_eq_true_eq]
    exact fun heq => hn (heq ▸ hname)

/-- Inside a class, its parameters stand for its arguments. -/
theorem resolve_environmentFor_of_mem {s : Sampler} {ty : Ty} {info : ClassInfo}
    (h : s.table.classOf? ty = some info) (env : Environment Ty) {n : String}
    (hn : n ∈ info.typeParameters) :
    (s.environmentFor ty env).resolve n =
      (info.argument? ty.arguments n).bind (concrete env) := by
  rw [resolve_environmentFor h, if_pos hn]

/-- Inside a class, all other names stand for what they stood for. -/
theorem resolve_environmentFor_of_not_mem {s : Sampler} {ty : Ty} {info : ClassInfo}
    (h : s.table.classOf? ty = some info) (env : Environment Ty) {n : String}
    (hn : n ∉ info.typeParameters) :
    (s.environmentFor ty env).resolve n = env.resolve n := by
  rw [resolve_environmentFor h, if_neg hn]

/-- An argument that is no parameter is itself outside of the class that it is
given to. -/
theorem concrete_of_ne_param {ty : Ty} (h : ∀ n, ty ≠ .param n) (env : Environment Ty) :
    concrete env ty = some ty := by
  cases ty with
  | param n => exact absurd rfl (h n)
  | primitive | array | named | wildcard | bounded => rfl

/-- So is a closed type. -/
theorem concrete_of_closed {ty : Ty} (h : ty.Closed) (env : Environment Ty) :
    concrete env ty = some ty := by
  refine concrete_of_ne_param (fun n heq => ?_) env
  rw [heq] at h
  exact h.not_mem n (List.mem_singleton_self n)

/-! ## class tokens -/

/-- The name of a class that is nested in no other one is its text. -/
theorem binaryName_of_enclosing_eq_none {s : Sampler} {ty : Ty} {info : ClassInfo}
    (h : s.table.classOf? ty = some info) (hnone : info.enclosing = none) :
    s.binaryName ty = ty.text := by
  have hclasses : s.table.enclosingClasses info = [] := by
    rw [ClassTable.enclosingClasses]
    cases s.table.classes.length with
    | zero => rfl
    | succ fuel => rw [ClassTable.enclosingUpTo, ClassTable.enclosing?, hnone, Option.bind_none]
  unfold binaryName
  rw [h]
  simp [hclasses]

/-- A class token reads of the environment only what its type stands for. -/
theorem sampleToken_congr {s : Sampler} {env env' : Environment Ty} {target : Ty}
    (h : concrete env target = concrete env' target) :
    s.sampleToken env target = s.sampleToken env' target := by
  unfold sampleToken
  split
  · rfl
  · rfl
  · rw [h]

end Sampler

end Exemplar
