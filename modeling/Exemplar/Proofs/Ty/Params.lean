import Exemplar.Ty.Basic

/-!
# Exemplar.Proofs.Ty.Params

The type parameters that occur in a type.  A type without any is closed: it
means the same wherever it stands.  Substitution reads a type only through
its parameters, and brings in only the parameters of what it puts in their
place.

* `Ty.params` — the parameters, in the order in which they are written;
* `mem_params_subst` — where the parameters of a substituted type come from;
* `subst_of_closed` — a closed type is left alone.
-/

namespace Exemplar

namespace Ty

/-- Induction on a type, with one hypothesis for every argument of a class. -/
theorem induct {motive : Ty → Prop} (primitive : ∀ name, motive (.primitive name))
    (array : ∀ item, motive item → motive (.array item))
    (named : ∀ name args, (∀ arg ∈ args, motive arg) → motive (.named name args))
    (param : ∀ name, motive (.param name)) (wildcard : motive .wildcard)
    (bounded : ∀ bound, motive bound → motive (.bounded bound)) : ∀ ty, motive ty
  | .primitive name => primitive name
  | .array item => array item (induct primitive array named param wildcard bounded item)
  | .named name args =>
      named name args fun arg _ => induct primitive array named param wildcard bounded arg
  | .param name => param name
  | .wildcard => wildcard
  | .bounded bound => bounded bound (induct primitive array named param wildcard bounded bound)

/-! ## occurrences -/

mutual

/-- The type parameters in a type. -/
def params : Ty → List String
  | .primitive _ | .wildcard => []
  | .array item => item.params
  | .named _ args => paramsList args
  | .param name => [name]
  | .bounded bound => bound.params

/-- The type parameters in a list of types. -/
def paramsList : List Ty → List String
  | [] => []
  | arg :: args => arg.params ++ paramsList args

end

/-- A type in which no type parameter occurs. -/
def Closed (ty : Ty) : Prop := ty.params = []

instance (ty : Ty) : Decidable ty.Closed := inferInstanceAs (Decidable (ty.params = []))

/-- The parameters in arguments are those in one of them. -/
theorem mem_paramsList {n : String} {args : List Ty} :
    n ∈ paramsList args ↔ ∃ arg ∈ args, n ∈ arg.params := by
  induction args with
  | nil => simp [paramsList]
  | cons arg args ih => simp [paramsList, ih]

/-- The parameters in a class type are those in its arguments. -/
theorem mem_params_named {n name : String} {args : List Ty} :
    n ∈ (Ty.named name args).params ↔ ∃ arg ∈ args, n ∈ arg.params := by
  rw [params, mem_paramsList]

theorem closed_iff {ty : Ty} : ty.Closed ↔ ∀ n, n ∉ ty.params := by
  rw [Closed, List.eq_nil_iff_forall_not_mem]

/-- A closed type has no parameter in it. -/
theorem Closed.not_mem {ty : Ty} (h : ty.Closed) (n : String) : n ∉ ty.params :=
  closed_iff.mp h n

/-- The component under the array suffixes has the parameters of the array. -/
@[simp] theorem params_component (ty : Ty) : ty.component.params = ty.params := by
  induction ty using induct with
  | array item ih => rw [component, ih, params]
  | primitive | named | param | wildcard | bounded => rfl

/-! ## substitution -/

/-- A parameter of a substituted type was there before and has no type to
stand for, or comes with the type that stands for another parameter. -/
theorem mem_params_subst {σ : Substitution} {ty : Ty} {n : String}
    (h : n ∈ (ty.subst σ).params) :
    (n ∈ ty.params ∧ σ.find? n = none) ∨
      ∃ m ∈ ty.params, ∃ b, σ.find? m = some b ∧ n ∈ b.params := by
  induction ty using induct with
  | primitive | wildcard => simp [subst, params] at h
  | array item ih => simpa only [params] using ih (by simpa only [subst, params] using h)
  | bounded bound ih => simpa only [params] using ih (by simpa only [subst, params] using h)
  | named name args ih =>
      rw [subst, substList_eq_map, mem_params_named] at h
      obtain ⟨_, hmem, hn⟩ := h
      obtain ⟨arg, harg, rfl⟩ := List.mem_map.mp hmem
      simp only [mem_params_named]
      obtain ⟨ho, hf⟩ | ⟨m, hm, b, hb⟩ := ih arg harg hn
      · exact .inl ⟨⟨arg, harg, ho⟩, hf⟩
      · exact .inr ⟨m, ⟨arg, harg, hm⟩, b, hb⟩
  | param m =>
      rw [subst] at h
      cases hf : σ.find? m with
      | none =>
          rw [hf, Option.getD_none, params, List.mem_singleton] at h
          subst h
          exact .inl ⟨List.mem_singleton_self n, hf⟩
      | some b =>
          rw [hf, Option.getD_some] at h
          exact .inr ⟨m, List.mem_singleton_self m, b, hf, h⟩

/-- A parameter that has no type to stand for is left in its place. -/
theorem mem_params_subst_of_find? {σ : Substitution} {ty : Ty} {n : String} (hn : n ∈ ty.params)
    (hfind : σ.find? n = none) : n ∈ (ty.subst σ).params := by
  induction ty using induct with
  | primitive | wildcard => contradiction
  | array item ih => exact ih hn
  | bounded bound ih => exact ih hn
  | named name args ih =>
      obtain ⟨arg, harg, hn⟩ := mem_params_named.mp hn
      rw [subst, substList_eq_map]
      exact mem_params_named.mpr ⟨_, List.mem_map_of_mem harg, ih arg harg hn⟩
  | param m =>
      rw [List.mem_singleton.mp hn] at hfind ⊢
      rw [subst, hfind]
      exact List.mem_singleton_self m

/-- Two substitutions that agree on the parameters of a type do the same. -/
theorem subst_congr {σ τ : Substitution} {ty : Ty}
    (h : ∀ n ∈ ty.params, σ.find? n = τ.find? n) : ty.subst σ = ty.subst τ := by
  induction ty using induct with
  | primitive | wildcard => rfl
  | array item ih => rw [subst, subst, ih h]
  | bounded bound ih => rw [subst, subst, ih h]
  | named name args ih =>
      rw [subst, subst, substList_eq_map, substList_eq_map, named.injEq]
      refine ⟨rfl, List.map_congr_left fun arg harg => ih arg harg fun n hn => ?_⟩
      exact h n (mem_params_named.mpr ⟨arg, harg, hn⟩)
  | param m => rw [subst, subst, h m (List.mem_singleton_self m)]

/-- Without replacements a type stays as it is. -/
theorem subst_nil (ty : Ty) : ty.subst [] = ty := by
  induction ty using induct with
  | primitive | wildcard | param => rfl
  | array item ih => rw [subst, ih]
  | bounded bound ih => rw [subst, ih]
  | named name args ih =>
      rw [subst, substList_eq_map, List.map_congr_left ih, List.map_id']

/-- **Closed types** are left alone by every substitution. -/
theorem subst_of_closed {ty : Ty} (h : ty.Closed) (σ : Substitution) : ty.subst σ = ty := by
  have hsame : ty.subst σ = ty.subst [] := subst_congr fun n hn => absurd hn (h.not_mem n)
  rw [hsame, subst_nil]

end Ty

/-! ## lookup in a substitution -/

namespace Substitution

/-- The type that stands for a parameter is that of one of the pairs. -/
theorem mem_of_find? {σ : Substitution} {n : String} {ty : Ty} (h : σ.find? n = some ty) :
    (n, ty) ∈ σ := by
  rw [find?, Option.map_eq_some_iff] at h
  obtain ⟨⟨m, t⟩, hf, rfl⟩ := h
  have hm : m = n := by simpa using List.find?_some hf
  subst hm
  exact List.mem_reverse.mp (List.mem_of_find?_eq_some hf)

/-- There is no type for a parameter exactly when no pair has its name. -/
theorem find?_eq_none_iff {σ : Substitution} {n : String} :
    σ.find? n = none ↔ n ∉ σ.map Prod.fst := by
  rw [find?, Option.map_eq_none_iff, List.find?_eq_none]
  simp only [List.mem_reverse, List.mem_map, decide_eq_true_eq]
  grind

end Substitution

end Exemplar
