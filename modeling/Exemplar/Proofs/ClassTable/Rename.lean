import Exemplar.Proofs.ClassTable.Scope
import Exemplar.Proofs.Ty.Rename
import Exemplar.Sampler.Container

/-!
# Exemplar.Proofs.ClassTable.Rename

Class tables that differ in the names of type parameters.  What a table is
asked goes by the names of classes, so a table that finds the same classes
with other names for their parameters has the same inheritance and nesting,
and the same ancestors with other names along their paths.

* `reaches_rename`, `containerOf?_rename` — inheritance goes by class names;
* `ancestors_rename` — where fields come from;
* `enclosingClasses_rename` — nesting.
-/

namespace Exemplar

namespace ClassInfo

/-- Gives the parameters of a class other names, everywhere in it. -/
def rename (u : String → String) (info : ClassInfo) : ClassInfo :=
  { info with
    typeParameters := info.typeParameters.map u
    supertypes := info.supertypes.map (Ty.rename u)
    fields := info.fields.map (·.mapType (Ty.rename u)) }

@[simp] theorem rename_id (info : ClassInfo) : info.rename id = info := by
  have hfields : info.fields.map (·.mapType (Ty.rename id)) = info.fields.map id :=
    List.map_congr_left fun field _ => by rw [FieldInfo.mapType, Ty.rename_id]; rfl
  have hsup : info.supertypes.map (Ty.rename id) = info.supertypes.map id :=
    List.map_congr_left fun ty _ => Ty.rename_id ty
  rw [rename, hfields, hsup, List.map_id, List.map_id, List.map_id]

@[simp] theorem superNames_rename (u : String → String) (info : ClassInfo) :
    (info.rename u).superNames = info.superNames := by
  rw [superNames, superNames, rename, List.filterMap_map]
  refine List.filterMap_congr fun ty _ => ?_
  cases ty with
  | named name args => rw [Function.comp_apply, Ty.rename_named, Ty.className?, Ty.className?]
  | primitive | array | param | wildcard | bounded => rfl

/-- Renaming goes through to the arguments that a class is given. -/
theorem givenArguments_rename (u : String → String) (info : ClassInfo) (args : List Ty) :
    (info.rename u).givenArguments (args.map (Ty.rename u)) =
      (info.givenArguments args).map (List.map (Ty.rename u)) := by
  rw [givenArguments, givenArguments, rename, List.length_map, List.length_map]
  split <;> rfl

/-- The substitution of a supertype, with other names. -/
theorem argumentsFor_rename (u : String → String) (info : ClassInfo) (args : List Ty) :
    (info.rename u).argumentsFor (args.map (Ty.rename u)) =
      (info.argumentsFor args).rename u := by
  rw [argumentsFor, argumentsFor, givenArguments_rename]
  cases info.givenArguments args with
  | some given => exact (Substitution.rename_zip u info.typeParameters given).symm
  | none =>
      rw [Option.map_none, Substitution.rename, List.map_map, rename, List.map_map]
      refine List.map_congr_left fun n _ => ?_
      rw [Function.comp_apply, Function.comp_apply, Ty.rename_named, List.map_nil]

end ClassInfo

namespace ClassTable

/-- An ancestor with other names along its path. -/
def Ancestor.rename (u : String → String) (ancestor : Ancestor) : Ancestor :=
  ⟨ancestor.info.rename u, ancestor.path.map (Substitution.rename u)⟩

@[simp] theorem Ancestor.rename_id (ancestor : Ancestor) : ancestor.rename id = ancestor := by
  rw [rename, ClassInfo.rename_id, funext Substitution.rename_id, List.map_id']

/-- Gives the type parameters of all classes other names. -/
def rename (u : String → String) (table : ClassTable) : ClassTable :=
  ⟨table.classes.map (ClassInfo.rename u)⟩

/-- The renamed table has the renamed class under each name. -/
theorem find?_rename (u : String → String) (table : ClassTable) (name : String) :
    (table.rename u).find? name = (table.find? name).map (ClassInfo.rename u) := by
  rw [find?, rename, List.find?_map]
  rfl

section

variable {u : String → String} {table table' : ClassTable}
  (h : ∀ name, table'.find? name = (table.find? name).map (ClassInfo.rename u))

include h

/-- The class of a renamed type is the renamed class. -/
theorem classOf?_rename (ty : Ty) :
    table'.classOf? (ty.rename u) = (table.classOf? ty).map (ClassInfo.rename u) := by
  cases ty with
  | named name args => rw [Ty.rename_named, classOf?, classOf?, h]
  | primitive | array | param | wildcard | bounded => rfl

/-! ## inheritance -/

/-- A search for a supertype takes the same steps in the renamed table. -/
theorem reachesFrom_rename (base : String) (seen stack : List String) :
    table'.reachesFrom base seen stack = table.reachesFrom base seen stack := by
  fun_induction table.reachesFrom base seen stack with
  | case1 => rw [reachesFrom]
  | case2 => rw [reachesFrom, if_pos rfl]
  | case3 seen name rest hne hfresh hnone ih =>
      rw [reachesFrom, if_neg hne, dif_pos hfresh]
      have hnone' : table'.find? name = none := by rw [h, hnone, Option.map_none]
      split
      · exact ih
      · next hfound => rw [hnone'] at hfound; contradiction
  | case4 seen name rest hne hfresh info hinfo ih =>
      rw [reachesFrom, if_neg hne, dif_pos hfresh]
      have hinfo' : table'.find? name = some (info.rename u) := by rw [h, hinfo, Option.map_some]
      split
      · next hfound => rw [hinfo'] at hfound; contradiction
      · next hfound =>
          rw [hinfo', Option.some.injEq] at hfound
          rw [← hfound, ClassInfo.superNames_rename]
          exact ih
  | case5 seen name rest hne hseen ih =>
      rw [reachesFrom, if_neg hne, dif_neg hseen]
      exact ih

/-- A class of the renamed table inherits what it inherited before. -/
theorem reaches_rename (name base : String) : table'.reaches name base = table.reaches name base :=
  reachesFrom_rename h base [] [name]

/-- Library containers stay the same containers. -/
theorem containerOf?_rename (name : String) (arity : Nat) :
    table'.containerOf? name arity = table.containerOf? name arity := by
  simp only [containerOf?, reaches_rename h]

/-! ## ancestors -/

/-- The walk over supertypes meets the renamed classes, in the same order and by
the renamed substitutions. -/
theorem ancestorsFrom_rename (seen : List String) (stack : List (Ty × List Substitution)) :
    table'.ancestorsFrom seen
        (stack.map fun entry => (entry.1.rename u, entry.2.map (Substitution.rename u))) =
      (table.ancestorsFrom seen stack).map (Ancestor.rename u) := by
  fun_induction table.ancestorsFrom seen stack with
  | case1 => rw [List.map_nil, ancestorsFrom, List.map_nil]
  | case2 seen name args path rest hfresh hnone ih =>
      rw [List.map_cons, Ty.rename_named, ancestorsFrom, dif_pos hfresh]
      have hnone' : table'.find? name = none := by rw [h, hnone, Option.map_none]
      split
      · exact ih
      · next hfound => rw [hnone'] at hfound; contradiction
  | case3 seen name args path rest hfresh info hinfo path' ih =>
      rw [List.map_cons, Ty.rename_named, ancestorsFrom, dif_pos hfresh]
      have hinfo' : table'.find? name = some (info.rename u) := by rw [h, hinfo, Option.map_some]
      split
      · next hfound => rw [hinfo'] at hfound; contradiction
      · next hfound =>
          rw [hinfo', Option.some.injEq] at hfound
          rw [List.map_cons, ← ih, ← hfound, List.map_append, List.map_map]
          simp only [ClassInfo.argumentsFor_rename, Ancestor.rename, path', List.map_cons]
          congr 2
          rw [ClassInfo.rename, List.map_map]
          rfl
  | case4 seen name args path rest hseen ih =>
      rw [List.map_cons, Ty.rename_named, ancestorsFrom, dif_neg hseen]
      exact ih
  | case5 seen entry rest hnot ih =>
      rw [List.map_cons, ancestorsFrom.eq_3]
      · exact ih
      · obtain ⟨ty, path⟩ := entry
        cases ty with
        | named name args => exact fun _ _ _ _ => hnot name args path rfl
        | primitive | array | param | wildcard | bounded => intro _ _ _ heq; cases heq

/-- The ancestors of a renamed class are the renamed ancestors. -/
theorem ancestors_rename (info : ClassInfo) :
    table'.ancestors (info.rename u) = (table.ancestors info).map (Ancestor.rename u) := by
  rw [ancestors, ancestors, List.map_cons, ← ancestorsFrom_rename h, List.map_map]
  simp only [ClassInfo.rename, List.map_map]
  rfl

/-! ## nesting -/

/-- The walk over enclosing classes meets the renamed classes. -/
theorem enclosingUpTo_rename (fuel : Nat) (info : ClassInfo) :
    table'.enclosingUpTo fuel (info.rename u) =
      (table.enclosingUpTo fuel info).map (ClassInfo.rename u) := by
  induction fuel generalizing info with
  | zero => rfl
  | succ fuel ih =>
      have henclosing : table'.enclosing? (info.rename u) =
          (table.enclosing? info).map (ClassInfo.rename u) := by
        rw [enclosing?, enclosing?, ClassInfo.rename]
        cases info.enclosing with
        | none => rfl
        | some outer => exact h outer
      rw [enclosingUpTo, enclosingUpTo, henclosing]
      cases table.enclosing? info with
      | none => rfl
      | some outer => exact congrArg (outer.rename u :: ·) (ih outer)

/-- The enclosing classes of a renamed class are the renamed ones. -/
theorem enclosingClasses_rename (hlength : table'.classes.length = table.classes.length)
    (info : ClassInfo) : table'.enclosingClasses (info.rename u) =
      (table.enclosingClasses info).map (ClassInfo.rename u) := by
  rw [enclosingClasses, enclosingClasses, hlength, enclosingUpTo_rename h]

end

end ClassTable

end Exemplar
