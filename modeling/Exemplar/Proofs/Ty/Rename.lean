import Exemplar.Proofs.Ty.Params

/-!
# Exemplar.Proofs.Ty.Rename

Other names for type parameters.  A renaming is any function on names, not
always an injective one.  It goes through a substitution at every name for
which it commutes with the look-up, that is where no pair is found by the new
name that is not found by the old one (`Substitution.Unmixed`).

* `Ty.rename` — new names for the parameters in a type;
* `rename_subst` — a renaming goes through a substitution;
* `rename_foldl_subst` — and through a path of substitutions.
-/

namespace Exemplar

namespace Ty

mutual

/-- Gives the parameters in a type new names. -/
def rename (u : String → String) : Ty → Ty
  | primitive name => primitive name
  | array item => array (item.rename u)
  | named name args => named name (renameList u args)
  | param name => param (u name)
  | wildcard => wildcard
  | bounded bound => bounded (bound.rename u)

/-- Gives the parameters in each type of a list new names. -/
def renameList (u : String → String) : List Ty → List Ty
  | [] => []
  | arg :: args => arg.rename u :: renameList u args

end

variable {u : String → String}

theorem renameList_eq_map (u : String → String) (args : List Ty) :
    renameList u args = args.map (rename u) := by
  induction args with
  | nil => rfl
  | cons arg args ih => rw [renameList, ih, List.map_cons]

@[simp] theorem rename_named (u : String → String) (name : String) (args : List Ty) :
    (named name args).rename u = named name (args.map (rename u)) := by
  rw [rename, renameList_eq_map]

@[simp] theorem rename_param (u : String → String) (n : String) :
    (param n).rename u = param (u n) := by rw [rename]

/-- A type in which no parameter gets another name is left alone. -/
theorem rename_eq_self {ty : Ty} (h : ∀ n ∈ ty.params, u n = n) : ty.rename u = ty := by
  induction ty using induct with
  | primitive | wildcard => rfl
  | array item ih => rw [rename, ih h]
  | bounded bound ih => rw [rename, ih h]
  | named name args ih =>
      have hargs : args.map (rename u) = args.map id := List.map_congr_left fun arg harg =>
        ih arg harg fun n hn => h n (mem_params_named.mpr ⟨arg, harg, hn⟩)
      rw [rename_named, hargs, List.map_id]
  | param n => rw [rename_param, h n (List.mem_singleton_self n)]

/-- Renaming parameters leaves closed types alone. -/
theorem rename_of_closed {ty : Ty} (h : ty.Closed) (u : String → String) : ty.rename u = ty :=
  rename_eq_self fun n hn => absurd hn (h.not_mem n)

@[simp] theorem rename_id (ty : Ty) : ty.rename id = ty := rename_eq_self fun _ _ => rfl

/-- Renaming goes through to the item type of an array. -/
@[simp] theorem component_rename (u : String → String) (ty : Ty) :
    (ty.rename u).component = ty.component.rename u := by
  induction ty using induct with
  | array item ih => rw [rename, component, ih, component]
  | primitive | named | param | wildcard | bounded => rfl

end Ty

/-! ## substitutions -/

namespace Substitution

/-- Gives the parameters of a substitution, and those of its types, new names. -/
def rename (u : String → String) (σ : Substitution) : Substitution :=
  σ.map fun pair => (u pair.1, pair.2.rename u)

@[simp] theorem rename_id (σ : Substitution) : σ.rename id = σ := by
  rw [rename, funext Ty.rename_id]
  exact List.map_id σ

/-- The new name of a parameter finds what the parameter itself finds. -/
def Unmixed (u : String → String) (σ : Substitution) (n : String) : Prop :=
  (σ.rename u).find? (u n) = (σ.find? n).map (Ty.rename u)

/-- Renaming pairs of parameters and arguments is renaming both. -/
theorem rename_zip (u : String → String) (names : List String) (args : List Ty) :
    rename u (names.zip args) = (names.map u).zip (args.map (Ty.rename u)) := by
  rw [rename, List.zip_map]
  rfl

end Substitution

namespace Ty

variable {u : String → String}

/-- **Renaming after substituting** is substituting after renaming, if the new
names of the parameters find what the parameters themselves find. -/
theorem rename_subst {σ : Substitution} {ty : Ty} (h : ∀ n ∈ ty.params, σ.Unmixed u n) :
    (ty.subst σ).rename u = (ty.rename u).subst (σ.rename u) := by
  induction ty using induct with
  | primitive | wildcard => rfl
  | array item ih => rw [subst, rename, ih h, rename, subst]
  | bounded bound ih => rw [subst, rename, ih h, rename, subst]
  | named name args ih =>
      rw [subst, substList_eq_map, rename_named, rename_named, subst, substList_eq_map,
        List.map_map, List.map_map]
      refine congrArg (named name) (List.map_congr_left fun arg harg => ?_)
      exact ih arg harg fun n hn => h n (mem_params_named.mpr ⟨arg, harg, hn⟩)
  | param n =>
      rw [subst, rename_param, subst, h n (List.mem_singleton_self n)]
      cases σ.find? n with
      | none | some found => rfl

/-- On the way along a path of substitutions, the new names of the parameters
find what the parameters themselves find. -/
def UnmixedAlong (u : String → String) : List Substitution → Ty → Prop
  | [], _ => True
  | σ :: path, ty => (∀ n ∈ ty.params, σ.Unmixed u n) ∧ UnmixedAlong u path (ty.subst σ)

/-- Renaming goes through the substitutions along a path, where none mixes
names. -/
theorem rename_foldl_subst {path : List Substitution} {ty : Ty} (h : UnmixedAlong u path ty) :
    (path.foldl (fun ty σ => ty.subst σ) ty).rename u =
      (path.map (Substitution.rename u)).foldl (fun ty σ => ty.subst σ) (ty.rename u) := by
  induction path generalizing ty with
  | nil => rfl
  | cons σ path ih => rw [List.foldl_cons, List.map_cons, List.foldl_cons, ih h.2, rename_subst h.1]

end Ty

end Exemplar
