import Exemplar.ClassTable.Basic

/-!
# Exemplar.ClassTable.Inheritance

What a class has from its supertypes.  The ancestors of a class are met depth first: the class
itself, then the ancestors of each supertype in order, each class once.  An ancestor comes with
the substitutions that lead to it, one for each step, so that the types of its fields can be
said in the terms of the class below.

* `ClassTable.reaches` — one class name is, or inherits from, another;
* `ClassTable.ancestors` — the classes that fields come from, in order;
* `ClassTable.allFields` — declared fields, then inherited ones.
-/

namespace Exemplar

/-- The name of a type that is a class name with arguments. -/
def Ty.className? : Ty → Option String
  | .named name _ => some name
  | _ => none

/-- The names of the supertypes of a class. -/
def ClassInfo.superNames (info : ClassInfo) : List String :=
  info.supertypes.filterMap Ty.className?

/-- What the arguments of a supertype stand for in the class that they are given to.  Without an
argument for each type parameter, every parameter stands for the root class. -/
def ClassInfo.argumentsFor (info : ClassInfo) (args : List Ty) : Substitution :=
  match info.givenArguments args with
  | some args => info.typeParameters.zip args
  | none => info.typeParameters.map (·, .named "java.lang.Object" [])

/-- A field with another type. -/
def FieldInfo.mapType {τ τ' : Type} (f : τ → τ') (field : FieldInfo τ) : FieldInfo τ' where
  name := field.name
  type := f field.type
  initializer := field.initializer
  annotations := field.annotations
  isStatic := field.isStatic

namespace ClassTable

/-! ## classes not yet seen -/

/-- The number of classes whose names have not been seen. -/
def unseen (table : ClassTable) (seen : List String) : Nat :=
  table.classes.countP fun info => info.name ∉ seen

theorem name_of_find? {table : ClassTable} {name : String} {info : ClassInfo}
    (h : table.find? name = some info) : info.name = name := by
  simpa using List.find?_some h

theorem unseen_cons_lt {table : ClassTable} {seen : List String} {name : String}
    {info : ClassInfo} (h : table.find? name = some info) (fresh : name ∉ seen) :
    table.unseen (name :: seen) < table.unseen seen := by
  have member : info ∈ table.classes := List.mem_of_find?_eq_some h
  have named : info.name = name := name_of_find? h
  clear h
  unfold unseen
  generalize table.classes = classes at member
  induction classes with
  | nil => simp at member
  | cons head rest ih =>
    have mono : ∀ l : List ClassInfo,
        l.countP (fun info => info.name ∉ name :: seen) ≤ l.countP (fun info => info.name ∉ seen) :=
      fun l => List.countP_mono_left (by simp)
    rcases List.mem_cons.1 member with rfl | later
    · have := mono rest
      simp only [List.countP_cons, named]
      simp [fresh]
      simpa using Nat.lt_succ_of_le this
    · have := ih later
      simp only [List.countP_cons]
      by_cases old : head.name ∈ seen
      · simp [old] at this ⊢
        exact this
      · by_cases same : head.name = name
        · simp [same, fresh] at this ⊢
          omega
        · simp [old, same] at this ⊢
          exact this

/-! ## inheritance -/

/-- Searches the names on the stack, and all that they inherit from, for a base. -/
def reachesFrom (table : ClassTable) (base : String) (seen : List String) : List String → Bool
  | [] => false
  | name :: rest =>
    if name = base then true
    else if _fresh : name ∉ seen then
      match _found : table.find? name with
      | none => table.reachesFrom base seen rest
      | some info => table.reachesFrom base (name :: seen) (info.superNames ++ rest)
    else table.reachesFrom base seen rest
termination_by stack => (table.unseen seen, stack.length)
decreasing_by
  · exact Prod.Lex.right _ (Nat.lt_succ_self _)
  · exact Prod.Lex.left _ _ (unseen_cons_lt _found _fresh)
  · exact Prod.Lex.right _ (Nat.lt_succ_self _)

/-- A class name is, or inherits from, a base. -/
def reaches (table : ClassTable) (name base : String) : Bool := table.reachesFrom base [] [name]

/-- A type is a class that is, or inherits from, a base. -/
def inherits (table : ClassTable) (ty : Ty) (base : String) : Bool :=
  match ty with
  | .named name _ => table.reaches name base
  | _ => false

/-! ## ancestors -/

/-- A class that fields come from.  The types of its fields are brought to the terms of the
class below by the substitutions, the first one first. -/
structure Ancestor where
  info : ClassInfo
  path : List Substitution

/-- The fields of an ancestor in the terms of the class below. -/
def Ancestor.fields (ancestor : Ancestor) : List (FieldInfo Ty) :=
  ancestor.info.fields.map (·.mapType fun ty => ancestor.path.foldl (fun ty σ => ty.subst σ) ty)

/-- The ancestors among the supertypes on the stack, each with the substitutions below it, that
have not been seen. -/
def ancestorsFrom (table : ClassTable) (seen : List String) :
    List (Ty × List Substitution) → List Ancestor
  | [] => []
  | (.named name args, path) :: rest =>
    if _fresh : name ∉ seen then
      match _found : table.find? name with
      | none => table.ancestorsFrom seen rest
      | some info =>
        let path := info.argumentsFor args :: path
        ⟨info, path⟩ :: table.ancestorsFrom (name :: seen) (info.supertypes.map (·, path) ++ rest)
    else table.ancestorsFrom seen rest
  | _ :: rest => table.ancestorsFrom seen rest
termination_by stack => (table.unseen seen, stack.length)
decreasing_by
  · exact Prod.Lex.right _ (Nat.lt_succ_self _)
  · exact Prod.Lex.left _ _ (unseen_cons_lt _found _fresh)
  · exact Prod.Lex.right _ (Nat.lt_succ_self _)
  · exact Prod.Lex.right _ (Nat.lt_succ_self _)

/-- The class itself and everything that it inherits from, in order. -/
def ancestors (table : ClassTable) (info : ClassInfo) : List Ancestor :=
  ⟨info, []⟩ :: table.ancestorsFrom [info.name] (info.supertypes.map (·, []))

/-- The fields of a class, declared ones first. -/
def allFields (table : ClassTable) (info : ClassInfo) : List (FieldInfo Ty) :=
  (table.ancestors info).flatMap Ancestor.fields

end ClassTable

end Exemplar
