import Exemplar.Proofs.ClassTable.Build

/-!
# Exemplar.Proofs.ClassTable.Prelude

When documents make a class table.  The built-in declarations can always be
read and their names pass, so it is all up to the documents: their classes
have qualified names, different from each other and from those of the built-in
classes, and each declaration is readable by itself.
-/

namespace Exemplar

namespace ClassTable

/-- All built-in declarations can be read. -/
theorem readable_of_mem_prelude : ∀ decl ∈ preludeClasses, Readable decl := by decide +kernel

theorem isQualifiedName_of_mem_prelude :
    ∀ decl ∈ preludeClasses, isQualifiedName decl.name = true := by decide +kernel

/-- Built-in classes have no fields. -/
theorem fields_of_mem_prelude : ∀ decl ∈ preludeClasses, decl.fields = [] := by
  have hall : ∀ decl ∈ preludeClasses, decl.fields.isEmpty = true := by decide +kernel
  exact fun decl hdecl => List.isEmpty_iff.mp (hall decl hdecl)

/-- Built-in classes have different names. -/
theorem nodup_names_prelude : (preludeClasses.map (·.name)).Nodup := by decide +kernel

/-- **When documents make a table**. -/
theorem exists_ofDocuments_iff {documents : List Document} :
    (∃ table, ofDocuments documents = .ok table) ↔
      (∀ decl ∈ documents.flatMap (·.classes), isQualifiedName decl.name = true ∧
        decl.name ∉ preludeClasses.map (·.name) ∧ Readable decl) ∧
      ((documents.flatMap (·.classes)).map (·.name)).Nodup := by
  unfold ofDocuments
  generalize documents.flatMap (·.classes) = decls
  rw [exists_build_iff, List.map_append, List.nodup_append']
  simp only [List.forall_mem_append]
  constructor
  · rintro ⟨⟨⟨_, hqualified⟩, _, hnodup, hdisjoint⟩, _, hread⟩
    refine ⟨fun decl hdecl => ⟨hqualified decl hdecl, fun hprelude => ?_, hread decl hdecl⟩, hnodup⟩
    exact hdisjoint hprelude (List.mem_map_of_mem hdecl)
  · rintro ⟨hdecls, hnodup⟩
    refine ⟨⟨⟨isQualifiedName_of_mem_prelude, fun decl hdecl => (hdecls decl hdecl).1⟩,
      nodup_names_prelude, hnodup, ?_⟩, readable_of_mem_prelude,
      fun decl hdecl => (hdecls decl hdecl).2.2⟩
    intro name hprelude hname
    obtain ⟨decl, hdecl, rfl⟩ := List.mem_map.mp hname
    exact (hdecls decl hdecl).2.1 hprelude

end ClassTable

end Exemplar
