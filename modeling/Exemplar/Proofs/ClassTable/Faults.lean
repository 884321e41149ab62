import Exemplar.Proofs.ClassTable.Build

/-!
# Exemplar.Proofs.ClassTable.Faults

What makes a table, and what is reported otherwise, said of the declarations
alone.  Every class has its own qualified name, every text in the place of a
type is one, and every initializer is a scalar; then the table has the class
of each declaration (`Describes`), in the order of the declarations.
Otherwise the fault of one declaration is reported: the first name with a
fault, whatever else is wrong before it, and if there is none, the first fault
in the order of the text, where supertypes come before fields and the type of
a field before its initializer.

* `ClassDecl.WellFormed`, `Describes` — the declarations that make a table,
  and their classes;
* `BuildFault` — the fault that is reported;
* `ofDocuments_eq_iff` — building is just this.
-/

namespace Exemplar

/-- A value that is no array and no object. -/
def Json.IsScalar : Json → Prop
  | .array _ | .object _ => False
  | .null | .bool _ | .number _ | .string _ => True

/-! ## well-formed declarations -/

/-- The initializer of the field, if it has one, is a scalar. -/
def FieldDecl.HasScalar (field : FieldDecl) : Prop :=
  ∀ value, field.initializer = some value → value.IsScalar

/-- A text that is a written type. -/
def IsTypeText (text : String) : Prop := ∃ term, TypeTerm.parse text = .ok term

/-- A class name is a name, the texts in the places of types are types, and
initializers are scalars. -/
structure ClassDecl.WellFormed (decl : ClassDecl) : Prop where
  name : isQualifiedName decl.name = true
  extended : ∀ text ∈ decl.extended, IsTypeText text
  implemented : ∀ text ∈ decl.implemented, IsTypeText text
  fieldTypes : ∀ field ∈ decl.fields, IsTypeText field.type
  initializers : ∀ field ∈ decl.fields, field.HasScalar

namespace ClassTable

/-! ## the class of a declaration -/

/-- The type that a text means in a declaration, among others. -/
def Means (decls : List ClassDecl) (decl : ClassDecl) (text : String) (ty : Ty) : Prop :=
  ∃ term, TypeTerm.parse text = .ok term ∧
    ty = term.resolve (Declarations.of decls).lookup (scopeOf decls decl)

/-- The field is the declared one, with its type understood. -/
structure DescribesField (decls : List ClassDecl) (decl : ClassDecl) (field : FieldDecl)
    (known : FieldInfo Ty) : Prop where
  name : known.name = field.name
  type : Means decls decl field.type known.type
  initializer : known.initializer = field.initializer
  annotations : known.annotations = field.annotations
  isStatic : known.isStatic = field.isStatic

/-- The class is the declared one, with its types understood: first what it
extends and then what it implements, and the fields in order. -/
structure Describes (decls : List ClassDecl) (decl : ClassDecl) (info : ClassInfo) : Prop where
  name : info.name = decl.name
  simpleName : info.simpleName = Exemplar.simpleName decl.name
  kind : info.kind = decl.kind
  typeParameters : info.typeParameters = decl.typeParameters
  supertypes : List.Forall₂ (Means decls decl) (decl.extended ++ decl.implemented) info.supertypes
  enumConstants : info.enumConstants = decl.enumConstants
  fields : List.Forall₂ (DescribesField decls decl) decl.fields info.fields
  enclosing : info.enclosing = enclosingName? (decls.map (·.name)) decl.name

/-! ## faults -/

/-- The fault of a class name after other names: it is no name, or one of them. -/
def NameFault (earlier : List String) (name : String) (e : BuildError) : Prop :=
  isQualifiedName name = false ∧ e = .invalidClassName name ∨
    isQualifiedName name = true ∧ name ∈ earlier ∧ e = .duplicateClass name

/-- The fault of the first class name that has one. -/
def FirstNameFault (names : List String) (e : BuildError) : Prop :=
  ∃ before name after, names = before ++ name :: after ∧
    ((∀ other ∈ before, isQualifiedName other = true) ∧ before.Nodup) ∧ NameFault before name e

/-- The fault of a text in the place of a type. -/
def TypeTextFault (place : TypePlace) (text : String) (e : BuildError) : Prop :=
  ∃ fault, TypeTerm.parse text = .error fault ∧ e = .typeSyntax text place fault

/-- The fault of a field: of its type, or of its initializer if the type is
all right. -/
def FieldFault (className : String) (field : FieldDecl) (e : BuildError) : Prop :=
  TypeTextFault (.field className field.name) field.type e ∨
    IsTypeText field.type ∧ ¬ field.HasScalar ∧ e = .compoundInitializer className field.name

/-- The fault of a declaration: of the first supertype with a fault, or of the
first such field if there is no such supertype. -/
def DeclFault (decl : ClassDecl) (e : BuildError) : Prop :=
  FirstFault (TypeTextFault (.supertype decl.name)) (decl.extended ++ decl.implemented) e ∨
    (∀ text ∈ decl.extended ++ decl.implemented, IsTypeText text) ∧
      FirstFault (FieldFault decl.name) decl.fields e

/-- The fault that is reported: of the first name with a fault, or of the
first such declaration if there is no such name. -/
def BuildFault (decls : List ClassDecl) (e : BuildError) : Prop :=
  FirstNameFault (decls.map (·.name)) e ∨
    ((∀ decl ∈ decls, isQualifiedName decl.name = true) ∧ (decls.map (·.name)).Nodup) ∧
      FirstFault DeclFault decls e

/-! ## names -/

/-- After names that pass, the rest is checked with these names as seen. -/
theorem checkNames_append {seen before rest : List String}
    (h : checkNames seen before = .ok ()) :
    checkNames seen (before ++ rest) = checkNames (before.reverse ++ seen) rest := by
  induction before generalizing seen with
  | nil => rfl
  | cons name before ih =>
      rw [checkNames] at h
      split at h
      · contradiction
      · next hqualified =>
          split at h
          · contradiction
          · next hnew =>
              rw [List.cons_append, checkNames, if_neg hqualified, if_neg hnew, ih h,
                List.reverse_cons, List.append_assoc]
              rfl

/-- Checking stops at the first name with a fault. -/
theorem exists_of_checkNames_eq_error {seen names : List String} {e : BuildError}
    (h : checkNames seen names = .error e) :
    ∃ before name after, names = before ++ name :: after ∧
      checkNames seen before = .ok () ∧ NameFault (before.reverse ++ seen) name e := by
  induction names generalizing seen with
  | nil => contradiction
  | cons name rest ih =>
      rw [checkNames] at h
      split at h
      · next hinvalid =>
          cases h
          exact ⟨[], name, rest, rfl, rfl, .inl ⟨Bool.eq_false_iff.mpr hinvalid, rfl⟩⟩
      · next hqualified =>
          split at h
          · next hseen =>
              cases h
              exact ⟨[], name, rest, rfl, rfl, .inr ⟨not_not.mp hqualified, hseen, rfl⟩⟩
          · next hnew =>
              obtain ⟨before, other, after, rfl, hbefore, hfault⟩ := ih h
              refine ⟨name :: before, other, after, rfl, ?_, ?_⟩
              · rwa [checkNames, if_neg hqualified, if_neg hnew]
              · rwa [List.reverse_cons, List.append_assoc]

/-- A faulty name is reported at its place. -/
theorem checkNames_cons_of_nameFault {seen : List String} {name : String} {rest : List String}
    {e : BuildError} (h : NameFault seen name e) :
    checkNames seen (name :: rest) = .error e := by
  rw [checkNames]
  obtain ⟨hinvalid, rfl⟩ | ⟨hqualified, hseen, rfl⟩ := h
  · rw [if_pos (Bool.eq_false_iff.mp hinvalid)]
  · rw [if_neg (not_not.mpr hqualified), if_pos hseen]

/-- **The first name with a fault** is reported. -/
theorem checkNames_eq_error_iff {names : List String} {e : BuildError} :
    checkNames [] names = .error e ↔ FirstNameFault names e := by
  constructor
  · intro h
    obtain ⟨before, name, after, heq, hbefore, hfault⟩ := exists_of_checkNames_eq_error h
    refine ⟨before, name, after, heq, checkNames_nil_eq_ok_iff.mp hbefore, ?_⟩
    simpa [NameFault] using hfault
  · rintro ⟨before, name, after, rfl, hbefore, hfault⟩
    rw [checkNames_append (checkNames_nil_eq_ok_iff.mpr hbefore)]
    exact checkNames_cons_of_nameFault (by simpa [NameFault] using hfault)

/-! ## declarations -/

/-- A text of a type is refused exactly for a fault in the text. -/
theorem readType_eq_error_iff {known : NameLookup} {scope : List String} {place : TypePlace}
    {text : String} {e : BuildError} :
    readType known scope place text = .error e ↔ TypeTextFault place text e := by
  rw [readType, TypeTextFault]
  cases TypeTerm.parse text with
  | error fault => simp [eq_comm]
  | ok term => simp

/-- An initializer passes if it is a scalar, or absent. -/
theorem checkInitializer_eq_ok_iff {className : String} {field : FieldDecl} :
    checkInitializer className field = .ok () ↔ field.HasScalar := by
  rw [checkInitializer, FieldDecl.HasScalar]
  cases field.initializer with
  | none => simp
  | some value => cases value <;> simp [Json.IsScalar]

/-- Any other initializer is reported with the class and the field. -/
theorem checkInitializer_eq_error_iff {className : String} {field : FieldDecl}
    {e : BuildError} : checkInitializer className field = .error e ↔
      ¬ field.HasScalar ∧ e = .compoundInitializer className field.name := by
  rw [checkInitializer, FieldDecl.HasScalar]
  cases field.initializer with
  | none => simp
  | some value => cases value <;> simp [Json.IsScalar, eq_comm]

section

variable {decls : List ClassDecl} {decl : ClassDecl} {e : BuildError}

theorem isTypeText_iff {known : NameLookup} {scope : List String} {place : TypePlace}
    {text : String} :
    IsTypeText text ↔ ∃ ty, readType known scope place text = .ok ty := by
  rw [exists_readType_iff, ← Except.exists_eq_ok_iff, IsTypeText]

/-- The fault of a field is that of its type, or else that of its initializer. -/
theorem readField_eq_error_iff {known : NameLookup} {scope : List String} {field : FieldDecl} :
    readField known scope decl.name field = .error e ↔ FieldFault decl.name field e := by
  rw [readField, Except.bind_eq_error_iff, readType_eq_error_iff, FieldFault]
  refine or_congr Iff.rfl ?_
  rw [@isTypeText_iff known scope (.field decl.name field.name)]
  constructor
  · rintro ⟨ty, hty, h⟩
    obtain h | ⟨_, _, h⟩ := Except.bind_eq_error_iff.mp h
    · exact ⟨⟨ty, hty⟩, checkInitializer_eq_error_iff.mp h⟩
    · contradiction
  · rintro ⟨⟨ty, hty⟩, h⟩
    exact ⟨ty, hty, Except.bind_eq_error_iff.mpr (.inl (checkInitializer_eq_error_iff.mpr h))⟩

/-- **The first fault of a declaration** is reported. -/
theorem readClass_eq_error_iff : readClass (.of decls) decl = .error e ↔ DeclFault decl e := by
  rw [readClass, Except.bind_eq_error_iff, Except.mapM_eq_error_iff, DeclFault]
  simp only [readType_eq_error_iff]
  refine or_congr Iff.rfl ?_
  have hsupertypes := @Except.exists_mapM_eq_ok_iff _ _ _
    (readType (Declarations.of decls).lookup (scopeOf decls decl) (.supertype decl.name))
    (decl.extended ++ decl.implemented)
  simp only [← isTypeText_iff] at hsupertypes
  rw [← hsupertypes]
  constructor
  · rintro ⟨supertypes, hok, h⟩
    obtain h | ⟨_, _, h⟩ := Except.bind_eq_error_iff.mp h
    · rw [Except.mapM_eq_error_iff] at h
      simp only [readField_eq_error_iff] at h
      exact ⟨⟨supertypes, hok⟩, h⟩
    · contradiction
  · rintro ⟨⟨supertypes, hok⟩, h⟩
    refine ⟨supertypes, hok, Except.bind_eq_error_iff.mpr (.inl (Except.mapM_eq_error_iff.mpr ?_))⟩
    simp only [readField_eq_error_iff]
    exact h

/-- A field that is read describes its declaration. -/
theorem describesField_of_readField {field : FieldDecl} {known : FieldInfo Ty}
    (h : readField (Declarations.of decls).lookup (scopeOf decls decl) decl.name field =
      .ok known) :
    DescribesField decls decl field known := by
  obtain ⟨ty, hty, _, rfl⟩ := readField_eq_ok_iff.mp h
  exact ⟨rfl, readType_eq_ok_iff.mp hty, rfl, rfl, rfl⟩

/-- The class that is read is the declared one. -/
theorem describes_of_readClass {info : ClassInfo} (h : readClass (.of decls) decl = .ok info) :
    Describes decls decl info := by
  obtain ⟨supertypes, fields, hsupertypes, hfields, rfl⟩ := readClass_eq_ok_iff.mp h
  exact ⟨rfl, rfl, rfl, rfl, hsupertypes.imp fun _ _ => readType_eq_ok_iff.mp, rfl,
    hfields.imp fun _ _ => describesField_of_readField, rfl⟩

theorem wellFormed_iff : decl.WellFormed ↔ isQualifiedName decl.name = true ∧ Readable decl := by
  have htext : ∀ text, IsTypeText text ↔ (TypeTerm.parse text).isOk = true :=
    fun text => Except.exists_eq_ok_iff
  have hscalar : ∀ field, FieldDecl.HasScalar field ↔
      (checkInitializer decl.name field).isOk = true := fun field => by
    rw [← checkInitializer_eq_ok_iff, ← Except.exists_eq_ok_iff]
    exact ⟨fun h => ⟨(), h⟩, fun ⟨_, h⟩ => h⟩
  constructor
  · intro h
    refine ⟨h.name, fun text hmem => ?_, fun field hmem => ?_, fun field hmem => ?_⟩
    · obtain hmem | hmem := List.mem_append.mp hmem
      · exact (htext text).mp (h.extended text hmem)
      · exact (htext text).mp (h.implemented text hmem)
    · exact (htext field.type).mp (h.fieldTypes field hmem)
    · exact (hscalar field).mp (h.initializers field hmem)
  · rintro ⟨hname, hread⟩
    exact ⟨hname,
      fun text hmem => (htext text).mpr (hread.supertypes text (List.mem_append_left _ hmem)),
      fun text hmem => (htext text).mpr (hread.supertypes text (List.mem_append_right _ hmem)),
      fun field hmem => (htext field.type).mpr (hread.fields field hmem),
      fun field hmem => (hscalar field).mpr (hread.initializers field hmem)⟩

end

/-! ## tables -/

section

variable {decls : List ClassDecl}

/-- There is a table exactly of well-formed declarations with different names. -/
theorem exists_build_iff_wellFormed :
    (∃ table, build decls = .ok table) ↔
      (∀ decl ∈ decls, decl.WellFormed) ∧ (decls.map (·.name)).Nodup := by
  simp only [exists_build_iff, wellFormed_iff]
  constructor
  · rintro ⟨⟨hqualified, hnodup⟩, hread⟩
    exact ⟨fun decl hdecl => ⟨hqualified decl hdecl, hread decl hdecl⟩, hnodup⟩
  · rintro ⟨hdecls, hnodup⟩
    exact ⟨⟨fun decl hdecl => (hdecls decl hdecl).1, hnodup⟩,
      fun decl hdecl => (hdecls decl hdecl).2⟩

/-- **The fault that is reported.** -/
theorem build_eq_error_iff {e : BuildError} : build decls = .error e ↔ BuildFault decls e := by
  rw [build, Except.bind_eq_error_iff, checkNames_eq_error_iff, BuildFault]
  refine or_congr Iff.rfl ?_
  rw [← checkNames_map_eq_ok_iff]
  constructor
  · rintro ⟨_, hnames, h⟩
    obtain h | ⟨_, _, h⟩ := Except.bind_eq_error_iff.mp h
    · rw [Except.mapM_eq_error_iff] at h
      simp only [readClass_eq_error_iff] at h
      exact ⟨hnames, h⟩
    · contradiction
  · rintro ⟨hnames, h⟩
    refine ⟨(), hnames, Except.bind_eq_error_iff.mpr (.inl (Except.mapM_eq_error_iff.mpr ?_))⟩
    simp only [readClass_eq_error_iff]
    exact h

/-- The classes of a table are those of the declarations, in order, and each
is found by the name of its declaration. -/
theorem describes_of_build {table : ClassTable} (h : build decls = .ok table) :
    List.Forall₂ (fun decl info => Describes decls decl info ∧
      table.find? decl.name = some info) decls table.classes := by
  have hclasses := (build_eq_ok_iff.mp h).2
  refine List.forall₂_iff_get.mpr ⟨hclasses.length_eq, fun i hi hi' => ?_⟩
  have hread := hclasses.get hi hi'
  exact ⟨describes_of_readClass hread, (find?_eq_some_iff_of_build h).mpr
    ⟨_, List.get_mem _ _, rfl, hread⟩⟩

end

/-- **Building**: a table is made exactly of well-formed declarations with
different names, those of the built-in classes among them; it has the class of
each declaration, in order and under its name; and if no table is made, the
first fault is reported. -/
theorem ofDocuments_eq_iff (documents : List Document) :
    let decls := preludeClasses ++ documents.flatMap (·.classes)
    ((∃ table, ofDocuments documents = .ok table) ↔
      (∀ decl ∈ decls, decl.WellFormed) ∧ (decls.map (·.name)).Nodup) ∧
    (∀ table, ofDocuments documents = .ok table →
      List.Forall₂ (fun decl info => Describes decls decl info ∧
        table.find? decl.name = some info) decls table.classes) ∧
    ∀ e, ofDocuments documents = .error e ↔ BuildFault decls e :=
  ⟨exists_build_iff_wellFormed, fun _ => describes_of_build, fun _ => build_eq_error_iff⟩

end ClassTable

end Exemplar
