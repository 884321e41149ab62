import Exemplar.Proofs.ClassTable.Scope

/-!
# Exemplar.Proofs.ClassTable.Initializer

Where the initializers of fields come from.  A field of a class, inherited or
not, is declared in some class of the table, and only its type is brought to
the terms of the class below; so its initializer is one of a declaration, and
it passed the check that it is a scalar.

* `exists_declared_of_mem_allFields` — the declared field behind a field;
* `exists_fieldDecl_of_mem_allFields` — the declaration behind a field of a
  built table.
-/

namespace Exemplar

namespace ClassTable

/-- Ancestors are classes of the table. -/
theorem mem_classes_of_mem_ancestors {table : ClassTable} {info : ClassInfo}
    (hinfo : info ∈ table.classes) :
    ∀ ancestor ∈ table.ancestors info, ancestor.info ∈ table.classes :=
  forall_mem_ancestors (I := fun _ _ => True)
    (fun _ _ _ _ _ hfound => ⟨mem_of_find? hfound, fun _ _ => trivial⟩) hinfo fun _ _ => trivial

/-- **The declared field** behind a field differs from it in its type only. -/
theorem exists_declared_of_mem_allFields {table : ClassTable} {info : ClassInfo}
    (hinfo : info ∈ table.classes) {field : FieldInfo Ty} (hfield : field ∈ table.allFields info) :
    ∃ found ∈ table.classes, ∃ declared ∈ found.fields, ∃ f, field = declared.mapType f := by
  obtain ⟨ancestor, hancestor, hfield⟩ := List.mem_flatMap.mp hfield
  obtain ⟨declared, hdeclared, rfl⟩ := List.mem_map.mp hfield
  exact ⟨ancestor.info, mem_classes_of_mem_ancestors hinfo ancestor hancestor, declared, hdeclared,
    _, rfl⟩

/-- **The declaration** behind a field of a built table has the same
initializer, which passed its check. -/
theorem exists_fieldDecl_of_mem_allFields {decls : List ClassDecl} {table : ClassTable}
    (hbuild : build decls = .ok table) {info : ClassInfo} (hinfo : info ∈ table.classes)
    {field : FieldInfo Ty} (hfield : field ∈ table.allFields info) :
    ∃ decl ∈ decls, ∃ fieldDecl ∈ decl.fields, fieldDecl.initializer = field.initializer ∧
      checkInitializer decl.name fieldDecl = .ok () := by
  obtain ⟨found, hfound, declared, hdeclared, f, rfl⟩ :=
    exists_declared_of_mem_allFields hinfo hfield
  obtain ⟨decl, hdecl, hread⟩ := exists_decl_of_mem hbuild hfound
  obtain ⟨supertypes, fields, _, hfields, rfl⟩ := readClass_eq_ok_iff.mp hread
  obtain ⟨fieldDecl, hmem, hfieldDecl⟩ := exists_left_of_forall₂ hfields hdeclared
  obtain ⟨ty, _, hcheck, rfl⟩ := readField_eq_ok_iff.mp hfieldDecl
  exact ⟨decl, hdecl, fieldDecl, hmem, rfl, hcheck⟩

section

variable {className : String} {fieldDecl : FieldDecl} {value : Json}
  (h : checkInitializer className fieldDecl = .ok ()) (hvalue : fieldDecl.initializer = some value)

include h hvalue

/-- What holds of the scalars that an initializer can be holds of it. -/
theorem scalar_of_checkInitializer {Q : Json → Prop} (hnull : Q .null) (hbool : ∀ b, Q (.bool b))
    (hnumber : ∀ n, value = .number n → Q (.number n)) (hstring : ∀ text, Q (.string text)) :
    Q value := by
  rw [checkInitializer, hvalue] at h
  cases value with
  | null => exact hnull
  | bool b => exact hbool b
  | number n => exact hnumber n rfl
  | string text => exact hstring text
  | array | object => contradiction

/-- A scalar has nothing in it. -/
theorem nesting_of_checkInitializer : value.nesting = 0 :=
  scalar_of_checkInitializer (Q := (·.nesting = 0)) h hvalue rfl (fun _ => rfl) (fun _ _ => rfl)
    fun _ => rfl

end

end ClassTable

end Exemplar
