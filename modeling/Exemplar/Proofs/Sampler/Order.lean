import Exemplar.Proofs.ClassTable.Order
import Exemplar.Proofs.ClassTable.Prelude
import Exemplar.Proofs.Sampler.Layer
import Exemplar.Proofs.Sampler.Plan

/-!
# Exemplar.Proofs.Sampler.Order

Samples do not depend on the order of declarations.  A sampler asks its table
for classes by name; where it goes through all of them, it only needs to know
how many there are.  So tables that find the same classes, and hold as many,
have equal samples (`sampleAt_congr`), and tables of the same declarations in
two orders are such tables.
-/

namespace Exemplar

namespace Sampler

section

variable {s s' : Sampler}

/-! ## one step -/

/-- Samplers with equal look-ups enter a class in the same way. -/
theorem environmentFor_congr (h : ∀ name, s.table.find? name = s'.table.find? name) (ty : Ty)
    (env : Environment Ty) : s.environmentFor ty env = s'.environmentFor ty env := by
  rw [environmentFor_eq_foldl, environmentFor_eq_foldl, ClassTable.classOf?_congr h]

/-- With tables of one size, they name classes in the same way. -/
theorem binaryName_congr (h : ∀ name, s.table.find? name = s'.table.find? name)
    (hlength : s.table.classes.length = s'.table.classes.length)
    (hvisibility : s.visibility = s'.visibility) (ty : Ty) :
    s.binaryName ty = s'.binaryName ty := by
  simp only [binaryName, outermostName, ClassTable.classOf?_congr h,
    ClassTable.enclosingClasses_congr h hlength, hvisibility]

theorem sampleToken_congr_table (h : ∀ name, s.table.find? name = s'.table.find? name)
    (hlength : s.table.classes.length = s'.table.classes.length)
    (hvisibility : s.visibility = s'.visibility) (env : Environment Ty) (target : Ty) :
    s.sampleToken env target = s'.sampleToken env target := by
  simp only [sampleToken, binaryName_congr h hlength hvisibility]

/-- What is done at a type depends on the classes that are found. -/
theorem plan_congr (h : ∀ name, s.table.find? name = s'.table.find? name)
    (hlength : s.table.classes.length = s'.table.classes.length)
    (hvisibility : s.visibility = s'.visibility) (env : Environment Ty) (ty : Ty) :
    s.plan env ty = s'.plan env ty := by
  have hcontainer : ∀ container args,
      s.planContainer env container args = s'.planContainer env container args := by
    intro container args
    simp only [planContainer, sampleToken_congr_table h hlength hvisibility]
  cases ty with
  | primitive | array | param | wildcard | bounded => rfl
  | named name args =>
      simp only [plan, planClass, firstConstant?, hcontainer, h, hvisibility,
        ClassTable.containerOf?_congr h, ClassTable.allFields_congr h]

/-! ## samples -/

/-- Tables that find the same classes, and hold as many, have equal samples. -/
theorem sampleAt_congr (h : ∀ name, s.table.find? name = s'.table.find? name)
    (hlength : s.table.classes.length = s'.table.classes.length)
    (hvisibility : s.visibility = s'.visibility) (left : Nat) (ty : Ty) (env : Environment Ty) :
    s.sampleAt left ty env = s'.sampleAt left ty env := by
  induction left generalizing ty env with
  | zero => rfl
  | succ left ih =>
      rw [sampleAt_succ, sampleAt_succ, plan_congr h hlength hvisibility]
      simp only [environmentFor_congr h, ih]

end

end Sampler

namespace ClassTable

/-- **The order of declarations**: documents with the same declarations, in any
order and split among documents in any way, make a table or fail together.
The tables hold the same class under each name, read each text as the same
root type, and have the same sample of every type in every environment, at
every depth and with every registry. -/
theorem ofDocuments_perm {documents documents' : List Document}
    (h : (documents.flatMap (·.classes)).Perm (documents'.flatMap (·.classes))) :
    ((∃ table, ofDocuments documents = .ok table) ↔
      ∃ table', ofDocuments documents' = .ok table') ∧
    ∀ table table', ofDocuments documents = .ok table → ofDocuments documents' = .ok table' →
      (∀ name, table.find? name = table'.find? name) ∧
      (∀ text, table.readRoot text = table'.readRoot text) ∧
      ∀ visibility left ty env, (Sampler.mk table visibility).sampleAt left ty env =
        (Sampler.mk table' visibility).sampleAt left ty env := by
  have hdecls := h.append_left preludeClasses
  refine ⟨⟨?_, ?_⟩, fun table table' hbuild hbuild' => ?_⟩
  · rintro ⟨table, hbuild⟩
    obtain ⟨table', hbuild', _⟩ := exists_build_perm hdecls hbuild
    exact ⟨table', hbuild'⟩
  · rintro ⟨table', hbuild'⟩
    obtain ⟨table, hbuild, _⟩ := exists_build_perm hdecls.symm hbuild'
    exact ⟨table, hbuild⟩
  · obtain ⟨found, hfound, hclasses⟩ := exists_build_perm hdecls hbuild
    rw [show found = table' from Except.ok.inj (hfound.symm.trans hbuild')] at hclasses
    have hfind := find?_perm hbuild hclasses
    refine ⟨hfind, fun text => ?_, fun visibility left ty env => ?_⟩
    · have hlookup := (NameLookup.knows_ofNames table.names).eq_of_perm
        (NameLookup.knows_ofNames table'.names) (hclasses.map _)
      rw [readRoot, readRoot, lookup, lookup, hlookup]
    · exact @Sampler.sampleAt_congr ⟨table, visibility⟩ ⟨table', visibility⟩ hfind
        hclasses.length_eq rfl left ty env

/-! ## a class before the one that it extends -/

/-- A class with one field. -/
def baseDecl : ClassDecl where
  name := "Base"
  kind := .ordinary
  typeParameters := []
  extended := []
  implemented := []
  enumConstants := []
  fields := [⟨"id", "String", false, none, []⟩]

/-- A class that has its field from another. -/
def derivedDecl : ClassDecl where
  name := "Derived"
  kind := .ordinary
  typeParameters := []
  extended := ["Base"]
  implemented := []
  enumConstants := []
  fields := []

/-- A class has the same sample before and after the class that it extends. -/
theorem sample_derived_of_either_order :
    ([derivedDecl, baseDecl] : List ClassDecl).Perm [baseDecl, derivedDecl] ∧
    ∃ table table', ofDocuments [⟨[derivedDecl]⟩, ⟨[baseDecl]⟩] = .ok table ∧
      ofDocuments [⟨[baseDecl, derivedDecl]⟩] = .ok table' ∧
      (Sampler.mk table .full).sampleAt 9 (.named "Derived" []) .empty =
        (Sampler.mk table' .full).sampleAt 9 (.named "Derived" []) .empty := by
  have hperm : ([derivedDecl, baseDecl] : List ClassDecl).Perm [baseDecl, derivedDecl] :=
    .swap baseDecl derivedDecl []
  obtain ⟨htables, hequal⟩ := @ofDocuments_perm [⟨[derivedDecl]⟩, ⟨[baseDecl]⟩]
    [⟨[baseDecl, derivedDecl]⟩] hperm
  obtain ⟨table, hbuild⟩ :=
    (@exists_ofDocuments_iff [⟨[derivedDecl]⟩, ⟨[baseDecl]⟩]).mpr (by decide +kernel)
  obtain ⟨table', hbuild'⟩ := htables.mp ⟨table, hbuild⟩
  obtain ⟨_, _, hsample⟩ := hequal table table' hbuild hbuild'
  exact ⟨hperm, table, table', hbuild, hbuild', hsample .full 9 _ _⟩

end ClassTable

end Exemplar
