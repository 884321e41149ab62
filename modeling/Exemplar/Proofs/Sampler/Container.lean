import Exemplar.Proofs.Sampler.Layer

/-!
# Exemplar.Proofs.Sampler.Container

Which classes are containers.  A class inherits from itself, so the root of a
family belongs to the family in every table.  What a class without supertypes
inherits from is nothing else.

A class token prints the type that its argument stands for outside of it, as
its class has one parameter only.
-/

namespace Exemplar

namespace ClassTable

/-! ## inheritance -/

theorem reaches_self (table : ClassTable) (name : String) : table.reaches name name = true := by
  rw [reaches, reachesFrom, if_pos rfl]

/-- A class without supertypes inherits only from itself. -/
theorem reaches_of_supertypes_eq_nil {table : ClassTable} {name base : String} {info : ClassInfo}
    (hinfo : table.find? name = some info) (hsup : info.supertypes = []) (hne : name ≠ base) :
    table.reaches name base = false := by
  rw [reaches, reachesFrom, if_neg hne, dif_pos List.not_mem_nil]
  split
  · rw [reachesFrom]
  · next found hfound =>
      rw [hinfo, Option.some.injEq] at hfound
      rw [← hfound, ClassInfo.superNames, hsup, List.filterMap_nil, List.append_nil, reachesFrom]

/-! ## families -/

/-- The iterable of the library is a sequence in every table. -/
theorem containerOf?_iterable (table : ClassTable) :
    table.containerOf? "java.lang.Iterable" 1 = some .sequence := by
  simp [containerOf?, libraryOrigin, reaches_self]

/-- The map of the library is a map in every table. -/
theorem containerOf?_map (table : ClassTable) :
    table.containerOf? "java.util.Map" 2 = some .map := by
  simp [containerOf?, libraryOrigin, reaches_self]

/-- The class of class tokens, if it has no supertypes. -/
theorem containerOf?_class {table : ClassTable} {info : ClassInfo}
    (hinfo : table.find? "java.lang.Class" = some info) (hsup : info.supertypes = []) :
    table.containerOf? "java.lang.Class" 1 = some .classToken := by
  have hnot : ∀ base, "java.lang.Class" ≠ base → table.reaches "java.lang.Class" base = false :=
    fun base => reaches_of_supertypes_eq_nil hinfo hsup
  simp [containerOf?, libraryOrigin, reaches_self, hnot]

/-- Class tokens have one parameter. -/
theorem arity_of_containerOf?_classToken {table : ClassTable} {name : String} {arity : Nat}
    (h : table.containerOf? name arity = some .classToken) : arity = 1 := by
  unfold containerOf? at h
  simp only at h
  split at h
  · contradiction
  · split at h
    · assumption
    · split at h
      · contradiction
      · contradiction

end ClassTable

/-! ## class tokens -/

/-- A wildcard, with or without a bound. -/
def Ty.isWildcard : Ty → Bool
  | .wildcard | .bounded _ => true
  | _ => false

namespace Sampler

/-- The type that a class token is for, unless it is a wildcard. -/
def tokenTarget? (s : Sampler) : Ty → Option Ty
  | .named name [target] =>
    match s.table.find? name with
    | none => none
    | some info =>
      if s.table.containerOf? name info.typeParameters.length = some .classToken then
        if target.isWildcard then none else some target
      else none
  | _ => none

/-- A bare argument of a class with one parameter stands for the same inside
and outside. -/
theorem concrete_environmentFor_singleton {s : Sampler} {name : String} {info : ClassInfo}
    {arg : Ty} {env : Environment Ty} (hinfo : s.table.find? name = some info)
    (hone : info.typeParameters.length = 1) :
    concrete (s.environmentFor (.named name [arg]) env) arg = concrete env arg := by
  cases arg with
  | param n =>
      have hclass : s.table.classOf? (.named name [.param n]) = some info := hinfo
      rw [concrete, concrete, resolve_environmentFor hclass]
      split
      · next hn =>
          have hlength : [Ty.param n].length = info.typeParameters.length := hone.symm
          obtain ⟨arg, harg⟩ := ClassInfo.exists_argument? hlength hn
          have hmem := (ClassInfo.mem_of_argument? harg).2
          rw [Ty.arguments, harg, List.mem_singleton.mp hmem]
          rfl
      · rfl
  | primitive | array | named | wildcard | bounded => rfl

/-- A class token shows the name of what the argument stands for, unless a
wildcard is written. -/
theorem sampleToken_eq_ite (s : Sampler) (env : Environment Ty) (target : Ty) :
    s.sampleToken env target = if target.isWildcard then none
      else some (.string (s.binaryName ((concrete env target).getD target))) := by
  cases target with
  | primitive | array | named | param | wildcard | bounded => rfl

end Sampler

end Exemplar
