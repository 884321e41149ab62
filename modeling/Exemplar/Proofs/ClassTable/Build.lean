import Exemplar.ClassTable.Build
import Exemplar.ClassTable.Inheritance
import Exemplar.Proofs.Except
import Mathlib.Data.List.Nodup

/-!
# Exemplar.Proofs.ClassTable.Build

When declarations make a class table, and what is in it.  Building checks the
names and then reads the declarations one by one; reading a declaration reads
its type texts one by one.  Each of these succeeds exactly when all of its
parts do, and the results stand in the order of what was read.

* `build_eq_ok_iff` — the table of a list of declarations;
* `readClass_eq_ok_iff` — the class of a declaration;
* `exists_decl_of_find?` — a class of a built table comes from a declaration.
-/

namespace Exemplar

/-! ## lists with keys -/

/-- Where keys are different from each other, an item is found by its key. -/
theorem find?_key_eq_some_iff {α : Type} {key : α → String} {xs : List α}
    (hnodup : (xs.map key).Nodup) {k : String} {x : α} :
    xs.find? (key · = k) = some x ↔ x ∈ xs ∧ key x = k := by
  constructor
  · exact fun h => ⟨List.mem_of_find?_eq_some h, by simpa using List.find?_some h⟩
  · rintro ⟨hx, rfl⟩
    cases hfind : xs.find? (key · = key x) with
    | none =>
        have hnot := List.find?_eq_none.mp hfind x hx
        simp at hnot
    | some y =>
        have hkey : key y = key x := by simpa using List.find?_some hfind
        rw [List.inj_on_of_nodup_map hnodup (List.mem_of_find?_eq_some hfind) hx hkey]

namespace ClassTable

/-! ## names -/

/-- Names pass when they are qualified, different from each other and new. -/
theorem checkNames_eq_ok_iff {seen names : List String} :
    checkNames seen names = .ok () ↔
      (∀ name ∈ names, isQualifiedName name = true ∧ name ∉ seen) ∧ names.Nodup := by
  induction names generalizing seen with
  | nil => simp [checkNames]
  | cons name rest ih =>
      rw [checkNames]
      by_cases hq : isQualifiedName name = true
      · rw [if_neg (not_not_intro hq)]
        by_cases hs : name ∈ seen
        · rw [if_pos hs]
          simp [hs]
        · rw [if_neg hs, ih, List.nodup_cons]
          simp only [List.mem_cons, forall_eq_or_imp, hq, hs, not_or]
          grind
      · rw [if_pos hq]
        simp [hq]

theorem checkNames_nil_eq_ok_iff {names : List String} :
    checkNames [] names = .ok () ↔ (∀ name ∈ names, isQualifiedName name = true) ∧ names.Nodup := by
  rw [checkNames_eq_ok_iff]
  simp

/-- The names of classes pass if they are well-formed and no two are equal. -/
theorem checkNames_map_eq_ok_iff {decls : List ClassDecl} :
    checkNames [] (decls.map (·.name)) = .ok () ↔
      (∀ decl ∈ decls, isQualifiedName decl.name = true) ∧ (decls.map (·.name)).Nodup := by
  rw [checkNames_nil_eq_ok_iff, List.forall_mem_map]

/-! ## types and fields -/

/-- Reading the text of a type is parsing it and giving its names a meaning. -/
theorem readType_eq_ok_iff {known : NameLookup} {scope : List String} {place : TypePlace}
    {text : String} {ty : Ty} : readType known scope place text = .ok ty ↔
      ∃ term, TypeTerm.parse text = .ok term ∧ ty = term.resolve known scope := by
  rw [readType]
  cases TypeTerm.parse text with
  | error fault => simp
  | ok term => simp [eq_comm]

/-- A field is read when its type is, and its initializer is a scalar. -/
theorem readField_eq_ok_iff {known : NameLookup} {scope : List String} {className : String}
    {field : FieldDecl} {info : FieldInfo Ty} : readField known scope className field = .ok info ↔
      ∃ ty, readType known scope (.field className field.name) field.type = .ok ty ∧
        checkInitializer className field = .ok () ∧
        info = ⟨field.name, ty, field.initializer, field.annotations, field.isStatic⟩ := by
  rw [readField, Except.bind_eq_ok_iff]
  constructor
  · rintro ⟨ty, hty, h⟩
    obtain ⟨_, hcheck, h⟩ := Except.bind_eq_ok_iff.mp h
    cases h
    exact ⟨ty, hty, hcheck, rfl⟩
  · rintro ⟨ty, hty, hcheck, rfl⟩
    exact ⟨ty, hty, Except.bind_eq_ok_iff.mpr ⟨(), hcheck, rfl⟩⟩

/-! ## classes -/

/-- **The class of a declaration**: its type texts are read in the scope of
the declaration, and all else is as declared. -/
theorem readClass_eq_ok_iff {decls : List ClassDecl} {decl : ClassDecl} {info : ClassInfo} :
    readClass (.of decls) decl = .ok info ↔ ∃ supertypes fields,
      List.Forall₂ (fun text ty => readType (Declarations.of decls).lookup (scopeOf decls decl)
        (.supertype decl.name) text = .ok ty) (decl.extended ++ decl.implemented) supertypes ∧
      List.Forall₂ (fun field info => readField (Declarations.of decls).lookup (scopeOf decls decl)
        decl.name field = .ok info) decl.fields fields ∧
      info = {
        name := decl.name
        simpleName := simpleName decl.name
        kind := decl.kind
        typeParameters := decl.typeParameters
        supertypes := supertypes
        enumConstants := decl.enumConstants
        fields := fields
        enclosing := enclosingName? (decls.map (·.name)) decl.name } := by
  rw [readClass, Except.bind_eq_ok_iff]
  simp only [Except.mapM_eq_ok_iff]
  constructor
  · rintro ⟨supertypes, hsup, h⟩
    obtain ⟨fields, hfields, h⟩ := Except.bind_eq_ok_iff.mp h
    cases h
    exact ⟨supertypes, fields, hsup, Except.mapM_eq_ok_iff.mp hfields, rfl⟩
  · rintro ⟨supertypes, fields, hsup, hfields, rfl⟩
    exact ⟨supertypes, hsup,
      Except.bind_eq_ok_iff.mpr ⟨fields, Except.mapM_eq_ok_iff.mpr hfields, rfl⟩⟩

/-- A class keeps the name of its declaration. -/
theorem name_of_readClass {decls : List ClassDecl} {decl : ClassDecl} {info : ClassInfo}
    (h : readClass (.of decls) decl = .ok info) : info.name = decl.name := by
  obtain ⟨_, _, _, _, rfl⟩ := readClass_eq_ok_iff.mp h
  rfl

/-! ## readable declarations -/

/-- All type texts of a declaration are types, and its initializers are scalars. -/
structure Readable (decl : ClassDecl) : Prop where
  supertypes : ∀ text ∈ decl.extended ++ decl.implemented, (TypeTerm.parse text).isOk = true
  fields : ∀ field ∈ decl.fields, (TypeTerm.parse field.type).isOk = true
  initializers : ∀ field ∈ decl.fields, (checkInitializer decl.name field).isOk = true

instance (decl : ClassDecl) : Decidable (Readable decl) :=
  decidable_of_iff (_ ∧ _ ∧ _) ⟨fun ⟨h, h', h''⟩ => ⟨h, h', h''⟩, fun ⟨h, h', h''⟩ => ⟨h, h', h''⟩⟩

/-- Whether the text of a type can be read does not depend on what is known. -/
theorem exists_readType_iff {known : NameLookup} {scope : List String} {place : TypePlace}
    {text : String} :
    (∃ ty, readType known scope place text = .ok ty) ↔ (TypeTerm.parse text).isOk = true := by
  simp only [readType_eq_ok_iff, ← Except.exists_eq_ok_iff]
  constructor
  · rintro ⟨_, term, hterm, _⟩
    exact ⟨term, hterm⟩
  · rintro ⟨term, hterm⟩
    exact ⟨_, term, hterm, rfl⟩

/-- Whether a field can be read does not depend on what is known. -/
theorem exists_readField_iff {known : NameLookup} {scope : List String} {className : String}
    {field : FieldDecl} : (∃ info, readField known scope className field = .ok info) ↔
      (TypeTerm.parse field.type).isOk = true ∧ (checkInitializer className field).isOk = true := by
  have htype := @exists_readType_iff known scope (.field className field.name) field.type
  simp only [readField_eq_ok_iff, ← htype, ← @Except.exists_eq_ok_iff _ Unit]
  constructor
  · rintro ⟨_, ty, hty, hcheck, _⟩
    exact ⟨⟨ty, hty⟩, (), hcheck⟩
  · rintro ⟨⟨ty, hty⟩, _, hcheck⟩
    exact ⟨_, ty, hty, hcheck, rfl⟩

/-- Whether a declaration can be read does not depend on the other ones. -/
theorem exists_readClass_iff {decls : List ClassDecl} {decl : ClassDecl} :
    (∃ info, readClass (.of decls) decl = .ok info) ↔ Readable decl := by
  have hsup := @Except.exists_mapM_eq_ok_iff _ _ _
    (readType (Declarations.of decls).lookup (scopeOf decls decl) (.supertype decl.name))
    (decl.extended ++ decl.implemented)
  have hfields := @Except.exists_mapM_eq_ok_iff _ _ _
    (readField (Declarations.of decls).lookup (scopeOf decls decl) decl.name) decl.fields
  simp only [exists_readType_iff, exists_readField_iff, Except.mapM_eq_ok_iff] at hsup hfields
  simp only [readClass_eq_ok_iff]
  constructor
  · rintro ⟨_, supertypes, fields, hs, hf, _⟩
    have hfields := hfields.mp ⟨fields, hf⟩
    exact ⟨hsup.mp ⟨supertypes, hs⟩, fun field h => (hfields field h).1,
      fun field h => (hfields field h).2⟩
  · intro h
    obtain ⟨supertypes, hs⟩ := hsup.mpr h.supertypes
    obtain ⟨fields, hf⟩ := hfields.mpr fun field hfield =>
      ⟨h.fields field hfield, h.initializers field hfield⟩
    exact ⟨_, supertypes, fields, hs, hf, rfl⟩

/-! ## tables -/

/-- **The table of declarations**: the names pass, and every declaration can
be read. -/
theorem build_eq_ok_iff {decls : List ClassDecl} {table : ClassTable} :
    build decls = .ok table ↔
      ((∀ decl ∈ decls, isQualifiedName decl.name = true) ∧ (decls.map (·.name)).Nodup) ∧
      List.Forall₂ (fun decl info => readClass (.of decls) decl = .ok info) decls
        table.classes := by
  rw [build, Except.bind_eq_ok_iff, ← checkNames_map_eq_ok_iff]
  constructor
  · rintro ⟨_, hcheck, h⟩
    obtain ⟨classes, hclasses, h⟩ := Except.bind_eq_ok_iff.mp h
    cases h
    exact ⟨hcheck, Except.mapM_eq_ok_iff.mp hclasses⟩
  · rintro ⟨hcheck, hclasses⟩
    exact ⟨(), hcheck,
      Except.bind_eq_ok_iff.mpr ⟨table.classes, Except.mapM_eq_ok_iff.mpr hclasses, rfl⟩⟩

/-- **When there is a table**: the names pass, and every declaration is readable. -/
theorem exists_build_iff {decls : List ClassDecl} :
    (∃ table, build decls = .ok table) ↔
      ((∀ decl ∈ decls, isQualifiedName decl.name = true) ∧ (decls.map (·.name)).Nodup) ∧
      ∀ decl ∈ decls, Readable decl := by
  have hread := @Except.exists_mapM_eq_ok_iff _ _ _ (readClass (.of decls)) decls
  simp only [exists_readClass_iff, Except.mapM_eq_ok_iff] at hread
  simp only [build_eq_ok_iff, ← hread]
  constructor
  · rintro ⟨table, hnames, hclasses⟩
    exact ⟨hnames, table.classes, hclasses⟩
  · rintro ⟨hnames, classes, hclasses⟩
    exact ⟨⟨classes⟩, hnames, hclasses⟩

/-- The names of the classes are those of the declarations, in order. -/
theorem names_of_build {decls : List ClassDecl} {table : ClassTable}
    (h : build decls = .ok table) : table.names = decls.map (·.name) := by
  have hnames : List.Forall₂ (fun decl info => decl.name = info.name) decls table.classes :=
    (build_eq_ok_iff.mp h).2.imp fun _ _ hread => (name_of_readClass hread).symm
  have heq : List.Forall₂ (· = ·) (decls.map (·.name)) table.names :=
    List.forall₂_map_left_iff.mpr (List.forall₂_map_right_iff.mpr hnames)
  rw [List.forall₂_eq_eq_eq] at heq
  exact heq.symm

/-- Every class of a table comes from a declaration. -/
theorem exists_decl_of_mem {decls : List ClassDecl} {table : ClassTable} {info : ClassInfo}
    (h : build decls = .ok table) (hinfo : info ∈ table.classes) :
    ∃ decl ∈ decls, readClass (.of decls) decl = .ok info :=
  exists_left_of_forall₂ (build_eq_ok_iff.mp h).2 hinfo

theorem mem_of_find? {table : ClassTable} {name : String} {info : ClassInfo}
    (h : table.find? name = some info) : info ∈ table.classes :=
  List.mem_of_find?_eq_some h

/-- A class of a built table comes from a declaration. -/
theorem exists_decl_of_find? {decls : List ClassDecl} {table : ClassTable} {name : String}
    {info : ClassInfo} (h : build decls = .ok table) (hinfo : table.find? name = some info) :
    ∃ decl ∈ decls, decl.name = name ∧ readClass (.of decls) decl = .ok info := by
  obtain ⟨decl, hdecl, hread⟩ := exists_decl_of_mem h (mem_of_find? hinfo)
  exact ⟨decl, hdecl, (name_of_readClass hread).symm.trans (name_of_find? hinfo), hread⟩

/-- **The class of a name** in a built table is that of its declaration. -/
theorem find?_eq_some_iff_of_build {decls : List ClassDecl} {table : ClassTable} {name : String}
    {info : ClassInfo} (h : build decls = .ok table) :
    table.find? name = some info ↔
      ∃ decl ∈ decls, decl.name = name ∧ readClass (.of decls) decl = .ok info := by
  refine ⟨exists_decl_of_find? h, fun ⟨decl, hdecl, hname, hread⟩ => ?_⟩
  have hnodup : table.names.Nodup := by
    rw [names_of_build h]
    exact (build_eq_ok_iff.mp h).1.2
  refine (find?_key_eq_some_iff hnodup).mpr ⟨?_, (name_of_readClass hread).trans hname⟩
  obtain ⟨info', hinfo', hread'⟩ := exists_right_of_forall₂ (build_eq_ok_iff.mp h).2 hdecl
  rw [hread, Except.ok.injEq] at hread'
  exact hread' ▸ hinfo'

/-- A class of a built table is found by its name. -/
theorem find?_name_of_mem {decls : List ClassDecl} {table : ClassTable} {info : ClassInfo}
    (h : build decls = .ok table) (hinfo : info ∈ table.classes) :
    table.find? info.name = some info := by
  obtain ⟨decl, hdecl, hread⟩ := exists_decl_of_mem h hinfo
  exact (find?_eq_some_iff_of_build h).mpr ⟨decl, hdecl, (name_of_readClass hread).symm, hread⟩

/-- Every declaration has its class under its name. -/
theorem exists_class_of_mem {decls : List ClassDecl} {table : ClassTable} {decl : ClassDecl}
    (h : build decls = .ok table) (hdecl : decl ∈ decls) :
    ∃ info, table.find? decl.name = some info ∧ readClass (.of decls) decl = .ok info := by
  obtain ⟨info, hread⟩ := exists_readClass_iff.mpr ((exists_build_iff.mp ⟨table, h⟩).2 decl hdecl)
  exact ⟨info, (find?_eq_some_iff_of_build h).mpr ⟨decl, hdecl, rfl, hread⟩, hread⟩

/-- Every declaration has its class in the table. -/
theorem exists_find?_of_mem {decls : List ClassDecl} {table : ClassTable} {decl : ClassDecl}
    (h : build decls = .ok table) (hdecl : decl ∈ decls) :
    ∃ info, table.find? decl.name = some info :=
  (exists_class_of_mem h hdecl).imp fun _ hinfo => hinfo.1

end ClassTable

end Exemplar
