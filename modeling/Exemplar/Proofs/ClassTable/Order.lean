import Exemplar.Proofs.ClassTable.Lookup
import Exemplar.Proofs.ClassTable.Rename
import Mathlib.Data.List.Perm.Basic

/-!
# Exemplar.Proofs.ClassTable.Order

The order of declarations does not matter.  A declaration is read against the
others in three ways only: whether a class is declared, which class is the
only one with a simple name, and what type parameters the class of a name has.
None of these depends on the order, as names are different from each other.
So a declaration is read as the same class in either order, and the tables
have the same classes, only in another order.

Everything that is asked of a table later is asked by name, so it is enough to
know that two tables find the same classes (`find?_congr` lemmas).

* `readClass_perm` — a declaration among others, in either order;
* `exists_build_perm` — the table of the same declarations in another order;
* `containerOf?_congr`, `allFields_congr` — inheritance goes by `find?` alone.
-/

namespace Exemplar

/-! ## look-up by a key -/

section

variable {α : Type} {key : α → String} {xs ys : List α}

/-- With different keys, the order does not matter for a search. -/
theorem find?_key_perm (hnodup : (xs.map key).Nodup) (h : xs.Perm ys) (k : String) :
    xs.find? (key · = k) = ys.find? (key · = k) := by
  refine Option.ext fun x => ?_
  rw [find?_key_eq_some_iff hnodup, find?_key_eq_some_iff ((h.map key).nodup_iff.mp hnodup),
    h.mem_iff]

end

/-! ## names -/

section

variable {names names' : List String}

/-- The order of the names does not matter for the enclosing one. -/
theorem enclosingName?_perm (h : names.Perm names') (name : String) :
    enclosingName? names name = enclosingName? names' name := by
  simp only [enclosingName?, h.mem_iff]

theorem enclosingNames_perm (h : names.Perm names') (name : String) :
    enclosingNames names name = enclosingNames names' name := by
  simp only [enclosingNames, h.mem_iff]

end

namespace ClassTable

/-! ## declarations -/

section

variable {decls decls' : List ClassDecl}

/-- The order of the declarations does not matter for a scope. -/
theorem scopeOf_perm (hnodup : (decls.map (·.name)).Nodup) (h : decls.Perm decls')
    (decl : ClassDecl) : scopeOf decls decl = scopeOf decls' decl := by
  have hparams : parametersOf decls = parametersOf decls' := by
    funext name
    rw [parametersOf, parametersOf, find?_key_perm hnodup h]
  rw [scopeOf, scopeOf, enclosingNames_perm (h.map _), hparams]

/-- A declaration among others is read as the same class in either order. -/
theorem readClass_perm (hnodup : (decls.map (·.name)).Nodup) (h : decls.Perm decls') :
    readClass (.of decls) = readClass (.of decls') := by
  funext decl
  have hnames := h.map (·.name)
  simp only [readClass, Declarations.all_of, lookup_of_perm hnames, scopeOf_perm hnodup h,
    enclosingName?_perm hnames]

/-! ## tables -/

/-- The same declarations in another order make a table of the same classes
in another order. -/
theorem exists_build_perm {table : ClassTable} (h : decls.Perm decls')
    (hbuild : build decls = .ok table) :
    ∃ table', build decls' = .ok table' ∧ table.classes.Perm table'.classes := by
  obtain ⟨⟨hqualified, hnodup⟩, hclasses⟩ := build_eq_ok_iff.mp hbuild
  obtain ⟨classes', hclasses', hperm⟩ := List.perm_comp_forall₂ h.symm hclasses
  refine ⟨⟨classes'⟩, build_eq_ok_iff.mpr ⟨⟨fun decl hdecl => ?_, ?_⟩, ?_⟩, hperm.symm⟩
  · exact hqualified decl (h.mem_iff.mpr hdecl)
  · exact (h.map _).nodup_iff.mp hnodup
  · rw [← readClass_perm hnodup h]
    exact hclasses'

/-- Tables of the same classes find the same classes. -/
theorem find?_perm {table table' : ClassTable} (hbuild : build decls = .ok table)
    (h : table.classes.Perm table'.classes) (name : String) :
    table.find? name = table'.find? name := by
  have hnodup : table.names.Nodup := by
    rw [names_of_build hbuild]
    exact (build_eq_ok_iff.mp hbuild).1.2
  exact find?_key_perm hnodup h name

end

/-! ## inheritance and nesting -/

section

variable {table table' : ClassTable}

/-- Tables that find the same classes are renamed by nothing. -/
theorem find?_eq_map_rename_id (h : ∀ name, table.find? name = table'.find? name)
    (name : String) : table'.find? name = (table.find? name).map (ClassInfo.rename id) := by
  rw [← h, funext ClassInfo.rename_id, Option.map_id']

/-- Tables with equal look-ups have the same class of a type. -/
theorem classOf?_congr (h : ∀ name, table.find? name = table'.find? name) (ty : Ty) :
    table.classOf? ty = table'.classOf? ty := by
  cases ty with
  | named name args => exact h name
  | primitive | array | param | wildcard | bounded => rfl

theorem containerOf?_congr (h : ∀ name, table.find? name = table'.find? name) (name : String)
    (arity : Nat) : table.containerOf? name arity = table'.containerOf? name arity :=
  (containerOf?_rename (find?_eq_map_rename_id h) name arity).symm

/-- Tables with equal look-ups give a class the same fields. -/
theorem allFields_congr (h : ∀ name, table.find? name = table'.find? name) (info : ClassInfo) :
    table.allFields info = table'.allFields info := by
  have hancestors := ancestors_rename (find?_eq_map_rename_id h) info
  rw [ClassInfo.rename_id, funext Ancestor.rename_id, List.map_id'] at hancestors
  rw [allFields, allFields, hancestors]

/-- Tables of one size with equal look-ups have the same enclosing classes. -/
theorem enclosingClasses_congr (h : ∀ name, table.find? name = table'.find? name)
    (hlength : table.classes.length = table'.classes.length) (info : ClassInfo) :
    table.enclosingClasses info = table'.enclosingClasses info := by
  have hclasses := enclosingClasses_rename (find?_eq_map_rename_id h) hlength.symm info
  rw [ClassInfo.rename_id, funext ClassInfo.rename_id, List.map_id'] at hclasses
  exact hclasses.symm

end

end ClassTable

end Exemplar
