import Exemplar.Proofs.ClassTable.BuildRename
import Exemplar.Proofs.ClassTable.CanonicalText
import Exemplar.Proofs.ClassTable.Faults

/-!
# Exemplar.Proofs.ClassTable.RootTypes

What a text means outside of all classes.  No type parameter is in scope of a
root type, and a name that is none has one meaning everywhere in a table.  So
a text that is written in a class means the same as a root type, unless it
speaks of a type parameter.

The name of a class is a text, too.  A name with a dot means the class of that
name; one without a dot means the class unless the order of the meanings puts
a primitive type or a class of `java.lang` before it (`Overshadowed`).

* `params_resolve_eq` — the parameters of a type that is read;
* `readRoot_texts_iff` — the texts of classes as root types;
* `classOf?_readRoot_name_iff` — the names of classes as root types.
-/

namespace Exemplar

namespace TypeTerm

/-! ## scopes -/

/-- The parameters among names, where the names of primitive types are none. -/
def paramsAmong (scope names : List String) : List String :=
  names.filter fun name => name ∈ scope ∧ name ∉ primitiveNames

section

variable (known : NameLookup) (scope : List String)

mutual

/-- **The parameters of a type that is read** are the names without arguments
that are in scope. -/
theorem params_resolve_eq : (term : TypeTerm) →
    (term.resolve known scope).params = paramsAmong scope term.bareNames
  | array item => params_resolve_eq item
  | wildcard => rfl
  | bounded bound => params_resolve_eq bound
  | named name [] => by
      rw [resolve, bareNames, paramsAmong]
      by_cases hprimitive : name ∈ primitiveNames
      · simp [hprimitive, Ty.params]
      · by_cases hscope : name ∈ scope <;> simp [hprimitive, hscope, Ty.params, resolveList,
          Ty.paramsList]
  | named name (arg :: args) => paramsList_resolveList_eq (arg :: args)

theorem paramsList_resolveList_eq : (terms : List TypeTerm) →
    Ty.paramsList (resolveList known scope terms) = paramsAmong scope (bareNamesList terms)
  | [] => rfl
  | term :: terms => by
      rw [resolveList, Ty.paramsList, params_resolve_eq term, paramsList_resolveList_eq terms,
        bareNamesList, paramsAmong, paramsAmong, paramsAmong, List.filter_append]

end

mutual

/-- A type without parameters is read in every scope as outside of all. -/
theorem resolve_nil_eq_of_closed : (term : TypeTerm) → (term.resolve known scope).Closed →
    term.resolve known [] = term.resolve known scope
  | array item, h => congrArg Ty.array (resolve_nil_eq_of_closed item h)
  | wildcard, _ => rfl
  | bounded bound, h => congrArg Ty.bounded (resolve_nil_eq_of_closed bound h)
  | named name [], h => by
      rw [resolve] at h
      rw [resolve, resolve]
      split at h
      · next hprimitive => rw [if_pos hprimitive, if_pos hprimitive]
      · next hprimitive =>
          split at h
          · contradiction
          · next hparam => rw [if_neg hprimitive, if_neg hprimitive, if_neg hparam,
              if_neg fun h => List.not_mem_nil h.2, resolveList, resolveList]
  | named name (arg :: args), h => by
      have hargs := resolveList_nil_eq_of_closed (arg :: args) h
      simp only [resolve, hargs, List.isEmpty_cons, Bool.false_eq_true, false_and, if_false]

theorem resolveList_nil_eq_of_closed : (terms : List TypeTerm) →
    Ty.paramsList (resolveList known scope terms) = [] →
      resolveList known [] terms = resolveList known scope terms
  | [], _ => rfl
  | term :: terms, h => by
      obtain ⟨hterm, hterms⟩ := List.append_eq_nil_iff.mp h
      rw [resolveList, resolveList, resolve_nil_eq_of_closed term hterm,
        resolveList_nil_eq_of_closed terms hterms]

end

/-- **A type is read the same outside of all scopes** exactly if none of its
names without arguments is a parameter. -/
theorem resolve_nil_eq_iff (term : TypeTerm) :
    term.resolve known [] = term.resolve known scope ↔
      ∀ name ∈ term.bareNames, name ∈ scope → name ∈ primitiveNames := by
  have hclosed : (term.resolve known scope).Closed ↔
      ∀ name ∈ term.bareNames, name ∈ scope → name ∈ primitiveNames := by
    rw [Ty.Closed, params_resolve_eq, paramsAmong, List.filter_eq_nil_iff]
    simp
  rw [← hclosed]
  refine ⟨fun h => ?_, resolve_nil_eq_of_closed known scope term⟩
  rw [← h, Ty.Closed, params_resolve_eq]
  exact List.filter_eq_nil_iff.mpr (by simp)

end

end TypeTerm

/-- The types of a class, those of its supertypes before those of its fields. -/
def ClassInfo.types (info : ClassInfo) : List Ty := info.supertypes ++ info.fields.map (·.type)

namespace ClassTable

/-! ## texts of classes -/

/-- The types of a class are those of the texts of its declaration, one by one. -/
theorem forall₂_types_of_readClass {decls : List ClassDecl} {decl : ClassDecl} {info : ClassInfo}
    (h : readClass (.of decls) decl = .ok info) :
    List.Forall₂ (Means decls decl) decl.texts info.types := by
  have hdescribes := describes_of_readClass h
  exact List.rel_append hdescribes.supertypes (List.forall₂_map_left_iff.mpr
    (List.forall₂_map_right_iff.mpr (hdescribes.fields.imp fun _ _ hfield => hfield.type)))

/-- The classes of a table have qualified names, different from each other. -/
theorem names_of_ofDocuments {documents : List Document} {table : ClassTable}
    (hbuild : ofDocuments documents = .ok table) :
    (∀ name ∈ table.names, isQualifiedName name = true) ∧ table.names.Nodup := by
  have hchecked := (build_eq_ok_iff.mp hbuild).1
  rw [names_of_build hbuild]
  exact ⟨List.forall_mem_map.mpr hchecked.1, hchecked.2⟩

/-- **Texts of classes as root types**: a name stands for the same class among
the declarations as in the finished table, by the first meaning that it has.
So every text in the place of a type in a class is a root type, too, and it is
the type that is known of the class exactly if no name without arguments in the
text is a type parameter in scope of the class.  Where a primitive type and a
type parameter have one name, it means the primitive type. -/
theorem readRoot_texts_iff {documents : List Document} {table : ClassTable}
    (hbuild : ofDocuments documents = .ok table) :
    let decls := preludeClasses ++ documents.flatMap (·.classes)
    (∀ name target,
      (qualify (Declarations.of decls).lookup name = target ↔ StandsFor table.names name target) ∧
      (qualify table.lookup name = target ↔ StandsFor table.names name target)) ∧
    ∀ decl ∈ decls, ∃ info, table.find? decl.name = some info ∧
      List.Forall₂ (fun text ty => ∃ term root, TypeTerm.parse text = .ok term ∧
        table.readRoot text = .ok root ∧ (root = ty ↔
          ∀ name ∈ term.bareNames, name ∈ scopeOf decls decl → name ∈ primitiveNames))
        decl.texts info.types := by
  intro decls
  have hlookup : (Declarations.of decls).lookup = table.lookup := lookup_of_build hbuild
  have hnodup := (names_of_ofDocuments hbuild).2
  refine ⟨fun name target => ?_, fun decl hdecl => ?_⟩
  · have hstands : qualify table.lookup name = target ↔ StandsFor table.names name target :=
      qualify_eq_iff (NameLookup.knows_ofNames table.names) hnodup
    exact ⟨hlookup ▸ hstands, hstands⟩
  · obtain ⟨info, hinfo, hread⟩ := exists_class_of_mem hbuild hdecl
    have htypes := forall₂_types_of_readClass hread
    refine ⟨info, hinfo, htypes.imp fun text ty ⟨term, hparse, hty⟩ => ?_⟩
    refine ⟨term, term.resolve table.lookup [], hparse,
      readType_eq_ok_iff.mpr ⟨term, hparse, rfl⟩, ?_⟩
    rw [hty, hlookup]
    exact TypeTerm.resolve_nil_eq_iff _ _ term

/-- A class that mentions its type parameter, itself, a class that is nested in
it, and one of two classes with the same simple name. -/
def boxDecl : ClassDecl where
  name := "shop.Box"
  kind := .ordinary
  typeParameters := ["T"]
  extended := []
  implemented := []
  enumConstants := []
  fields := [⟨"value", "T", false, none, []⟩, ⟨"boxes", "List<Box<int>>", false, none, []⟩,
    ⟨"lid", "Lid", false, none, []⟩, ⟨"item", "Item", false, none, []⟩]

/-- The class with those that it mentions. -/
def boxDecls : List ClassDecl :=
  [boxDecl, libraryClass "shop.Box.Lid" .ordinary [] [] [],
    libraryClass "shop.Item" .ordinary [] [] [], libraryClass "old.Item" .ordinary [] [] []]

/-- The declarations of boxes make a table. -/
theorem exists_boxTable : ∃ table, ofDocuments [⟨boxDecls⟩] = .ok table :=
  exists_ofDocuments_iff.mpr (by decide +kernel)

/-- The boxes and the lid of a box are root types with the same classes; the
item has no class in either place, and the value is no root type. -/
theorem readRoot_texts_box : ∃ table info value, ofDocuments [⟨boxDecls⟩] = .ok table ∧
    table.find? "shop.Box" = some info ∧
    info.types = [value, .named "java.util.List" [.named "shop.Box" [.primitive "int"]],
      .named "shop.Box.Lid" [], .named "Item" []] ∧
    table.readRoot "T" ≠ .ok value ∧
    table.readRoot "List<Box<int>>" =
      .ok (.named "java.util.List" [.named "shop.Box" [.primitive "int"]]) ∧
    table.readRoot "Lid" = .ok (.named "shop.Box.Lid" []) ∧
    table.readRoot "Item" = .ok (.named "Item" []) ∧
    StandsFor table.names "Lid" "shop.Box.Lid" ∧ StandsFor table.names "Item" "Item" := by
  obtain ⟨table, hbuild⟩ := exists_boxTable
  have hnames : table.names = (preludeClasses ++ boxDecls).map (·.name) := names_of_build hbuild
  obtain ⟨hboxes, hlid, hitem⟩ : table.readRoot "List<Box<int>>" =
      .ok (.named "java.util.List" [.named "shop.Box" [.primitive "int"]]) ∧
      table.readRoot "Lid" = .ok (.named "shop.Box.Lid" []) ∧
      table.readRoot "Item" = .ok (.named "Item" []) := by
    simp only [readRoot, lookup, hnames]
    decide +kernel
  have hparse : TypeTerm.parse "T" = .ok (.named "T" []) ∧ TypeTerm.parse "List<Box<int>>" =
      .ok (.named "List" [.named "Box" [.named "int" []]]) ∧
      TypeTerm.parse "Lid" = .ok (.named "Lid" []) ∧
      TypeTerm.parse "Item" = .ok (.named "Item" []) := by
    decide +kernel
  have hscope : scopeOf (preludeClasses ++ [⟨boxDecls⟩].flatMap Document.classes) boxDecl =
      ["T"] := by decide +kernel
  obtain ⟨hstands, htexts⟩ := readRoot_texts_iff hbuild
  obtain ⟨info, hinfo, htexts⟩ := htexts boxDecl (by simp [boxDecls])
  obtain ⟨value, _, ⟨_, _, hterm, hroot, hvalueSame⟩, hbehindValue, htypes⟩ :=
    List.forall₂_cons_left_iff.mp htexts
  obtain ⟨_, _, ⟨_, _, hboxesTerm, hboxesRoot, hboxesSame⟩, hbehindBoxes, rfl⟩ :=
    List.forall₂_cons_left_iff.mp hbehindValue
  obtain ⟨_, _, ⟨_, _, hlidTerm, hlidRoot, hlidSame⟩, hbehindLid, rfl⟩ :=
    List.forall₂_cons_left_iff.mp hbehindBoxes
  obtain ⟨_, _, ⟨_, _, hitemTerm, hitemRoot, hitemSame⟩, hbehindItem, rfl⟩ :=
    List.forall₂_cons_left_iff.mp hbehindLid
  obtain rfl := List.forall₂_nil_left_iff.mp hbehindItem
  cases hparse.1.symm.trans hterm
  cases hparse.2.1.symm.trans hboxesTerm
  cases hparse.2.2.1.symm.trans hlidTerm
  cases hparse.2.2.2.symm.trans hitemTerm
  cases hboxes.symm.trans hboxesRoot
  cases hlid.symm.trans hlidRoot
  cases hitem.symm.trans hitemRoot
  rw [hscope] at hvalueSame hboxesSame hlidSame hitemSame
  refine ⟨table, info, value, hbuild, hinfo, ?_, fun heq => ?_, hboxes, hlid, hitem,
    (hstands _ _).2.mp ?_, (hstands _ _).2.mp ?_⟩
  · rw [htypes, ← hboxesSame.mpr (by decide), ← hlidSame.mpr (by decide),
      ← hitemSame.mpr (by decide)]
  · have hprimitive := hvalueSame.mp (Except.ok.inj (hroot.symm.trans heq)) "T" (by decide)
      (by decide)
    exact absurd hprimitive (by decide)
  · rw [lookup, hnames]
    decide +kernel
  · rw [lookup, hnames]
    decide +kernel

/-! ## names of classes -/

/-- A name that means something else than the class of that name: a primitive
type, or a class of `java.lang`. -/
def Overshadowed (names : List String) (name : String) : Prop :=
  '.' ∉ name.toList ∧
    (name ∈ primitiveNames ∨ name ∈ javaLangNames ∨ ("java.lang." ++ name) ∈ names)

instance (names : List String) (name : String) : Decidable (Overshadowed names name) :=
  inferInstanceAs (Decidable (_ ∧ _))

section

variable {known : NameLookup} {names : List String} {name : String}

/-- A class whose name is a simple name is found by it, or none is: another
class of that simple name only makes it ambiguous. -/
theorem getD_bySimpleName?_of_mem (hknown : known.Knows names) (h : name ∈ names)
    (hdot : '.' ∉ name.toList) : (known.bySimpleName? name).getD name = name := by
  have hmem : name ∈ names.filter (simpleName · = name) :=
    List.mem_filter.mpr ⟨h, by simp [simpleName_of_not_mem hdot]⟩
  cases hfound : known.bySimpleName? name with
  | none => rfl
  | some found =>
      rw [(hknown.bySimpleName?_eq_some_iff name found).mp hfound, List.mem_singleton] at hmem
      exact hmem.symm

/-- No name is its own class of `java.lang`. -/
theorem javaLang_append_ne (name : String) : "java.lang." ++ name ≠ name := by
  intro heq
  have hlength := congrArg String.length heq
  rw [String.length_append] at hlength
  have hprefix : "java.lang.".length = 10 := by decide
  omega

/-- The name of a class that is no primitive type stands for itself, unless it
is overshadowed. -/
theorem qualify_eq_self_iff (hknown : known.Knows names) (h : name ∈ names)
    (hprimitive : name ∉ primitiveNames) :
    qualify known name = name ↔ ¬ Overshadowed names name := by
  rw [qualify_eq_ite hknown, Overshadowed]
  by_cases hdot : '.' ∈ name.toList
  · simp [hdot]
  · rw [if_neg hdot]
    by_cases hlang : ("java.lang." ++ name) ∈ names ∨ name ∈ javaLangNames
    · rw [if_pos hlang]
      exact ⟨fun heq => absurd heq (javaLang_append_ne name),
        fun hfree => absurd ⟨hdot, .inr hlang.symm⟩ hfree⟩
    · rw [if_neg hlang]
      refine ⟨fun _ hshadow => ?_, fun _ => getD_bySimpleName?_of_mem hknown h hdot⟩
      exact hshadow.2.elim hprimitive fun hother => hlang hother.symm

end

section

variable {documents : List Document} {table : ClassTable} {info : ClassInfo}

/-- **The name of a class is a root type**, and it is that class exactly if it
has a dot, or is neither a primitive type nor the simple name of a class of
`java.lang`, which may be declared or not. -/
theorem classOf?_readRoot_name_iff (hbuild : ofDocuments documents = .ok table)
    (hinfo : info ∈ table.classes) :
    ∃ ty, table.readRoot info.name = .ok ty ∧
      (table.classOf? ty = some info ↔ ¬ Overshadowed table.names info.name) := by
  obtain ⟨hqualified, hnodup⟩ := names_of_ofDocuments hbuild
  have hmem : info.name ∈ table.names := List.mem_map_of_mem hinfo
  have hparse : TypeTerm.parse info.name = .ok (.named info.name []) :=
    TypeTerm.parse_of_derives (List.append_nil _).symm (Ty.spells_name (hqualified _ hmem)) trivial
      .nil
  refine ⟨_, readType_eq_ok_iff.mpr ⟨_, hparse, rfl⟩, ?_⟩
  by_cases hprimitive : info.name ∈ primitiveNames
  · rw [TypeTerm.resolve, if_pos ⟨rfl, hprimitive⟩]
    have hshadow : Overshadowed table.names info.name :=
      ⟨dot_not_mem_of_primitive _ hprimitive, .inl hprimitive⟩
    exact ⟨nofun, fun h => absurd hshadow h⟩
  · rw [TypeTerm.resolve, if_neg fun h => hprimitive h.2, if_neg fun h => List.not_mem_nil h.2,
      ← qualify_eq_self_iff (NameLookup.knows_ofNames table.names) hmem hprimitive]
    show table.find? (qualify table.lookup info.name) = some info ↔ _
    rw [find?, find?_key_eq_some_iff hnodup]
    exact ⟨fun h => h.2.symm, fun h => ⟨hinfo, h.symm⟩⟩

end

/-- Two classes of one simple name, one of them in the default package. -/
def itemDecls : List ClassDecl :=
  [libraryClass "shop.Item" .ordinary [] [] [], libraryClass "Item" .ordinary [] [] []]

/-- The class in the default package is what its name means, although another
class has that simple name. -/
theorem classOf?_readRoot_item : ∃ table info ty, ofDocuments [⟨itemDecls⟩] = .ok table ∧
    info ∈ table.classes ∧ info.name = "Item" ∧ table.readRoot info.name = .ok ty ∧
    table.classOf? ty = some info := by
  obtain ⟨table, hbuild⟩ : ∃ table, ofDocuments [⟨itemDecls⟩] = .ok table :=
    exists_ofDocuments_iff.mpr (by decide +kernel)
  have hnames : table.names = (preludeClasses ++ itemDecls).map (·.name) := names_of_build hbuild
  obtain ⟨info, hinfo, hname⟩ := List.mem_map.mp
    (show "Item" ∈ table.names by rw [hnames]; decide)
  obtain ⟨ty, hread, hiff⟩ := classOf?_readRoot_name_iff hbuild hinfo
  have hfree : ¬ Overshadowed table.names info.name := by
    rw [hnames, hname]
    decide +kernel
  exact ⟨table, info, ty, hbuild, hinfo, hname, hread, hiff.mpr hfree⟩

/-- A class in the default package that has the simple name of a class of
`java.lang`. -/
def stringDecl : ClassDecl := libraryClass "String" .ordinary [] [] []

/-- A class in the default package is not what its name means, if it has the
simple name of a class of `java.lang`. -/
theorem exists_classOf?_readRoot_name_ne : ∃ table info ty,
    ofDocuments [⟨[stringDecl]⟩] = .ok table ∧ info ∈ table.classes ∧ info.name = "String" ∧
    table.readRoot info.name = .ok ty ∧ table.classOf? ty ≠ some info := by
  obtain ⟨table, hbuild⟩ : ∃ table, ofDocuments [⟨[stringDecl]⟩] = .ok table :=
    exists_ofDocuments_iff.mpr (by decide +kernel)
  have hnames : table.names = (preludeClasses ++ [stringDecl]).map (·.name) := names_of_build hbuild
  obtain ⟨info, hinfo, hname⟩ := List.mem_map.mp
    (show "String" ∈ table.names by rw [hnames]; decide)
  have hread : table.readRoot info.name = .ok (.named "java.lang.String" []) := by
    rw [readRoot, lookup, hnames, hname]
    decide +kernel
  refine ⟨table, info, _, hbuild, hinfo, hname, hread, fun hfound => ?_⟩
  have hfound : info.name = "java.lang.String" := name_of_find? hfound
  exact absurd (hname.symm.trans hfound) (by decide)

end ClassTable

end Exemplar
