import Exemplar.Proofs.ClassTable.Lookup
import Exemplar.Proofs.ClassTable.Rename

/-!
# Exemplar.Proofs.ClassTable.BuildRename

Declarations in which the type parameters of one class have new names.  The
parameters are in scope in the class and in the classes that are nested in it,
unless one of these has a parameter of the same name; there, and nowhere else,
the type texts have the new names.  If the new names are otherwise unused, the
declarations make the same table but for the names of the parameters.

* `Renaming` — the same declarations, with new names for type parameters;
* `exists_build_of_renaming` — the table of renamed declarations.
-/

namespace Exemplar

/-! ## written types -/

namespace TypeTerm

mutual

/-- The names in a written type that have no arguments. -/
def bareNames : TypeTerm → List String
  | array item => item.bareNames
  | wildcard => []
  | bounded bound => bound.bareNames
  | named name args => if args.isEmpty then [name] else bareNamesList args

/-- The names in written types that have no arguments. -/
def bareNamesList : List TypeTerm → List String
  | [] => []
  | term :: rest => term.bareNames ++ bareNamesList rest

end

mutual

/-- Replaces the names that have no arguments. -/
def rename (f : String → String) : TypeTerm → TypeTerm
  | array item => array (item.rename f)
  | wildcard => wildcard
  | bounded bound => bounded (bound.rename f)
  | named name args => named (if args.isEmpty then f name else name) (renameList f args)

/-- Replaces the names that have no arguments in each written type. -/
def renameList (f : String → String) : List TypeTerm → List TypeTerm
  | [] => []
  | term :: rest => term.rename f :: renameList f rest

end

/-- In a second scope, a name has a replacement of the same meaning: primitive
types stay, parameters are replaced by such that can be renamed back, and what
is no parameter does not become one. -/
structure Replaced (scope scope' : List String) (f u : String → String) (n : String) : Prop where
  primitive : n ∈ primitiveNames → f n = n
  param : n ∉ primitiveNames → n ∈ scope → f n ∉ primitiveNames ∧ f n ∈ scope' ∧ u (f n) = n
  other : n ∉ primitiveNames → n ∉ scope → f n = n ∧ n ∉ scope'

section

variable {scope scope' : List String} {f u : String → String}

/-- A name alone keeps its meaning, up to the parameter that it may be. -/
theorem resolve_rename_bare (known : NameLookup) {n : String}
    (h : Replaced scope scope' f u n) :
    (((named n []).rename f).resolve known scope').rename u =
      (named n []).resolve known scope := by
  simp only [rename, renameList, resolve, resolveList, List.isEmpty_nil, if_true, true_and]
  by_cases hprim : n ∈ primitiveNames
  · rw [h.primitive hprim, if_pos hprim, if_pos hprim, Ty.rename]
  · rw [if_neg hprim]
    by_cases hn : n ∈ scope
    · obtain ⟨hprim', hn', hback⟩ := h.param hprim hn
      rw [if_neg hprim', if_pos hn', if_pos hn, Ty.rename_param, hback]
    · obtain ⟨hsame, hn'⟩ := h.other hprim hn
      rw [hsame, if_neg hprim, if_neg hn', if_neg hn, Ty.rename_named, List.map_nil]

mutual

/-- **Reading renamed types**: with replacements of the same meaning, a type is
read as the same type but for the names of parameters. -/
theorem resolve_rename (known : NameLookup) : (term : TypeTerm) →
    (∀ n ∈ term.bareNames, Replaced scope scope' f u n) →
      ((term.rename f).resolve known scope').rename u = term.resolve known scope
  | array item, h => by rw [rename, resolve, resolve, Ty.rename, resolve_rename known item h]
  | wildcard, _ => rfl
  | bounded bound, h => by rw [rename, resolve, resolve, Ty.rename, resolve_rename known bound h]
  | named name [], h => resolve_rename_bare known (h name (List.mem_singleton_self name))
  | named name (arg :: args), h => by
      have hargs := resolveList_rename known (arg :: args) h
      simp only [rename, renameList, resolve, List.isEmpty_cons, Bool.false_eq_true, if_false,
        false_and] at hargs ⊢
      rw [Ty.rename_named, ← hargs, Ty.renameList_eq_map]

theorem resolveList_rename (known : NameLookup) : (terms : List TypeTerm) →
    (∀ n ∈ bareNamesList terms, Replaced scope scope' f u n) →
      Ty.renameList u (resolveList known scope' (renameList f terms)) =
        resolveList known scope terms
  | [], _ => rfl
  | term :: rest, h => by
      rw [renameList, resolveList, resolveList, Ty.renameList,
        resolve_rename known term fun n hn => h n (List.mem_append_left _ hn),
        resolveList_rename known rest fun n hn => h n (List.mem_append_right _ hn)]

end

end

end TypeTerm

/-! ## renamed declarations -/

namespace ClassTable

/-- The classes whose type parameters are in scope in a class: the class itself
and those around it, innermost first. -/
def scopeNames (decls : List ClassDecl) (decl : ClassDecl) : List String :=
  decl.name :: enclosingNames (decls.map (·.name)) decl.name

/-- The class whose type parameter a name is in a class. -/
def ownerOf? (decls : List ClassDecl) (decl : ClassDecl) (n : String) : Option String :=
  (scopeNames decls decl).find? fun name => n ∈ parametersOf decls name

/-- What stands in a class for a name, when the type parameters of `owner` have
new names. -/
def newName (decls : List ClassDecl) (owner : ClassDecl) (ρ : String → String)
    (decl : ClassDecl) (n : String) : String :=
  if n ∉ primitiveNames ∧ ownerOf? decls decl n = some owner.name then ρ n else n

/-- The type parameter of `owner` that a new name is for. -/
def oldName (owner : ClassDecl) (ρ : String → String) (m : String) : String :=
  (owner.typeParameters.find? (ρ · = m)).getD m

end ClassTable

/-- The type texts of a declaration. -/
def ClassDecl.texts (decl : ClassDecl) : List String :=
  decl.extended ++ decl.implemented ++ decl.fields.map (·.type)

/-- Two texts of one type, but for the names that have no arguments. -/
def RenamedText (f : String → String) (text text' : String) : Prop :=
  ∃ term, TypeTerm.parse text = .ok term ∧ TypeTerm.parse text' = .ok (term.rename f)

/-- Two declarations of one field, but for the names in its type. -/
structure RenamedField (f : String → String) (field field' : FieldDecl) : Prop where
  name : field'.name = field.name
  type : RenamedText f field.type field'.type
  isStatic : field'.isStatic = field.isStatic
  initializer : field'.initializer = field.initializer
  annotations : field'.annotations = field.annotations

/-- Two declarations of one class, but for the names of the type parameters of
`owner`. -/
structure RenamedDecl (decls : List ClassDecl) (owner : ClassDecl) (ρ : String → String)
    (decl decl' : ClassDecl) : Prop where
  name : decl'.name = decl.name
  kind : decl'.kind = decl.kind
  typeParameters : decl'.typeParameters =
    if decl.name = owner.name then decl.typeParameters.map ρ else decl.typeParameters
  extended : List.Forall₂ (RenamedText (ClassTable.newName decls owner ρ decl))
    decl.extended decl'.extended
  implemented : List.Forall₂ (RenamedText (ClassTable.newName decls owner ρ decl))
    decl.implemented decl'.implemented
  enumConstants : decl'.enumConstants = decl.enumConstants
  fields : List.Forall₂ (RenamedField (ClassTable.newName decls owner ρ decl))
    decl.fields decl'.fields

/-- **New names** for the type parameters of one class, different from each
other and not used for anything else. -/
structure Renaming (owner : ClassDecl) (ρ : String → String) (decls decls' : List ClassDecl) :
    Prop where
  declared : owner ∈ decls
  injective : ∀ n ∈ owner.typeParameters, ∀ m ∈ owner.typeParameters, ρ n = ρ m → n = m
  /-- No primitive type has a new name. -/
  primitive : ∀ n ∈ owner.typeParameters, ρ n ∉ primitiveNames
  /-- No parameter of another class has a new name. -/
  param : ∀ n ∈ owner.typeParameters, ∀ decl ∈ decls, decl.name ≠ owner.name →
    ρ n ∉ decl.typeParameters
  /-- Nor is a new name written anywhere but for a parameter of the class. -/
  text : ∀ n ∈ owner.typeParameters, ∀ decl ∈ decls, ∀ text ∈ decl.texts, ∀ term,
    TypeTerm.parse text = .ok term → ∀ m ∈ term.bareNames,
      ClassTable.ownerOf? decls decl m ≠ some owner.name → ρ n ≠ m
  renamed : List.Forall₂ (RenamedDecl decls owner ρ) decls decls'

namespace ClassTable

/-! ## scopes -/

section

variable {decls decls' : List ClassDecl} {decl : ClassDecl} {owner : ClassDecl}
  {ρ : String → String} {n : String}

/-- The parameters of a declared class, looked up by its name. -/
theorem parametersOf_name (hnodup : (decls.map (·.name)).Nodup) (hdecl : decl ∈ decls) :
    parametersOf decls decl.name = decl.typeParameters := by
  rw [parametersOf, (find?_key_eq_some_iff hnodup).mpr ⟨hdecl, rfl⟩]
  rfl

/-- A name has parameters only if it is declared. -/
theorem exists_decl_of_mem_parametersOf {name : String} (h : n ∈ parametersOf decls name) :
    ∃ decl ∈ decls, decl.name = name ∧ n ∈ decl.typeParameters := by
  rw [parametersOf] at h
  cases hfind : decls.find? (·.name = name) with
  | none =>
      rw [hfind] at h
      contradiction
  | some decl =>
      rw [hfind] at h
      have hname : decl.name = name := by simpa using List.find?_some hfind
      exact ⟨decl, List.mem_of_find?_eq_some hfind, hname, h⟩

/-- The scope of a class holds the parameters of the classes that it can see. -/
theorem mem_scopeOf (hnodup : (decls.map (·.name)).Nodup) (hdecl : decl ∈ decls) :
    n ∈ scopeOf decls decl ↔ ∃ name ∈ scopeNames decls decl, n ∈ parametersOf decls name := by
  rw [scopeOf, scopeNames, List.mem_append, List.mem_flatMap, List.exists_mem_cons_iff,
    parametersOf_name hnodup hdecl]

/-- A name in scope has an owner among the classes that can be seen. -/
theorem exists_ownerOf? (hnodup : (decls.map (·.name)).Nodup) (hdecl : decl ∈ decls)
    (hn : n ∈ scopeOf decls decl) :
    ∃ name ∈ scopeNames decls decl, ownerOf? decls decl n = some name ∧
      n ∈ parametersOf decls name := by
  obtain ⟨name, hname, hmem⟩ := (mem_scopeOf hnodup hdecl).mp hn
  cases hfind : ownerOf? decls decl n with
  | none => simpa [hmem] using List.find?_eq_none.mp hfind name hname
  | some found =>
      exact ⟨found, List.mem_of_find?_eq_some hfind, rfl, by simpa using List.find?_some hfind⟩

/-- Renaming parameters keeps the names of the classes. -/
theorem names_renaming {all : List ClassDecl}
    (h : List.Forall₂ (RenamedDecl all owner ρ) decls decls') :
    decls'.map (·.name) = decls.map (·.name) := by
  induction h with
  | nil => rfl
  | cons hdecl _ ih => rw [List.map_cons, List.map_cons, hdecl.name, ih]

/-- Class names are looked up among renamed declarations as before. -/
theorem lookup_renaming {all : List ClassDecl}
    (h : List.Forall₂ (RenamedDecl all owner ρ) decls decls') :
    (Declarations.of decls').lookup = (Declarations.of decls).lookup :=
  lookup_of_perm (.of_eq (names_renaming h))

/-- Renaming parameters changes them at their owner alone. -/
theorem parametersOf_renaming {all : List ClassDecl}
    (h : List.Forall₂ (RenamedDecl all owner ρ) decls decls') (name : String) :
    parametersOf decls' name =
      if name = owner.name then (parametersOf decls name).map ρ else parametersOf decls name := by
  unfold parametersOf
  induction h with
  | nil => simp
  | @cons decl decl' rest rest' hdecl _ ih =>
      rw [List.find?_cons, List.find?_cons, hdecl.name]
      by_cases hname : decl.name = name
      · simp [hname, hdecl.typeParameters]
      · simp only [hname, decide_false]
        exact ih

end

section

variable {decls decls' : List ClassDecl} {owner : ClassDecl} {ρ : String → String}
  (h : Renaming owner ρ decls decls')

include h

/-! ## new names and old names -/

/-- A new name stands for the parameter that has it now. -/
theorem oldName_new {n : String} (hn : n ∈ owner.typeParameters) : oldName owner ρ (ρ n) = n := by
  rw [oldName]
  cases hfind : owner.typeParameters.find? (ρ · = ρ n) with
  | none => simpa using List.find?_eq_none.mp hfind n hn
  | some m =>
      have heq : ρ m = ρ n := by simpa using List.find?_some hfind
      exact h.injective m (List.mem_of_find?_eq_some hfind) n hn heq

omit h in
/-- A name that no parameter has now stands for itself. -/
theorem oldName_of_forall_ne {m : String} (hm : ∀ n ∈ owner.typeParameters, ρ n ≠ m) :
    oldName owner ρ m = m := by
  rw [oldName, List.find?_eq_none.mpr fun n hn => by simpa using hm n hn, Option.getD_none]

variable (hnodup : (decls.map (·.name)).Nodup)

include hnodup

/-- The type parameters of a class with their old names. -/
theorem map_oldName_typeParameters {decl decl' : ClassDecl} (hdecl : decl ∈ decls)
    (hrenamed : RenamedDecl decls owner ρ decl decl') :
    decl'.typeParameters.map (oldName owner ρ) = decl.typeParameters := by
  rw [hrenamed.typeParameters]
  by_cases hname : decl.name = owner.name
  · have hsame : decl = owner := List.inj_on_of_nodup_map hnodup hdecl h.declared hname
    rw [if_pos hname, List.map_map, hsame]
    exact (List.map_congr_left fun n hn => oldName_new h hn).trans (List.map_id _)
  · rw [if_neg hname]
    refine (List.map_congr_left fun m hm => oldName_of_forall_ne fun n hn heq => ?_).trans
      (List.map_id _)
    exact h.param n hn decl hdecl hname (heq ▸ hm)

/-- The scope of a class with the new names in the place of the old ones. -/
theorem mem_scopeOf_renaming {decl decl' : ClassDecl} (hdecl' : decl' ∈ decls')
    (hrenamed : RenamedDecl decls owner ρ decl decl') {n : String} :
    n ∈ scopeOf decls' decl' ↔ ∃ name ∈ scopeNames decls decl,
      if name = owner.name then n ∈ owner.typeParameters.map ρ
      else n ∈ parametersOf decls name := by
  have hnames := names_renaming h.renamed
  have hscope : scopeNames decls' decl' = scopeNames decls decl := by
    rw [scopeNames, scopeNames, hnames, hrenamed.name]
  rw [mem_scopeOf (hnames ▸ hnodup) hdecl', hscope]
  refine exists_congr fun name => and_congr_right fun _ => ?_
  rw [parametersOf_renaming h.renamed]
  by_cases hsame : name = owner.name
  · rw [if_pos hsame, if_pos hsame, hsame, parametersOf_name hnodup h.declared]
  · rw [if_neg hsame, if_neg hsame]

/-- A name in a type text has a replacement of the same meaning. -/
theorem replaced_newName {decl decl' : ClassDecl} (hdecl : decl ∈ decls) (hdecl' : decl' ∈ decls')
    (hrenamed : RenamedDecl decls owner ρ decl decl') {text : String} (htext : text ∈ decl.texts)
    {term : TypeTerm} (hterm : TypeTerm.parse text = .ok term) {m : String}
    (hm : m ∈ term.bareNames) :
    TypeTerm.Replaced (scopeOf decls decl) (scopeOf decls' decl') (newName decls owner ρ decl)
      (oldName owner ρ) m := by
  have hmem {n : String} := @mem_scopeOf_renaming _ _ _ _ h hnodup decl decl' hdecl' hrenamed n
  constructor
  · exact fun hprim => if_neg fun hnot => hnot.1 hprim
  · intro hprim hscope
    obtain ⟨name, hname, howner, hparam⟩ := exists_ownerOf? hnodup hdecl hscope
    rw [newName, howner]
    by_cases hsame : name = owner.name
    · rw [if_pos ⟨hprim, congrArg some hsame⟩]
      rw [hsame, parametersOf_name hnodup h.declared] at hparam
      refine ⟨h.primitive m hparam, hmem.mpr ⟨name, hname, ?_⟩, oldName_new h hparam⟩
      rw [if_pos hsame]
      exact List.mem_map_of_mem hparam
    · rw [if_neg fun hnot => hsame (Option.some.inj hnot.2)]
      refine ⟨hprim, hmem.mpr ⟨name, hname, ?_⟩, oldName_of_forall_ne fun n hn heq => ?_⟩
      · rwa [if_neg hsame]
      · obtain ⟨other, hother, rfl, hown⟩ := exists_decl_of_mem_parametersOf hparam
        exact h.param n hn other hother hsame (heq ▸ hown)
  · intro hprim hscope
    have hnot : ownerOf? decls decl m ≠ some owner.name := fun howner =>
      hscope ((mem_scopeOf hnodup hdecl).mpr ⟨_, List.mem_of_find?_eq_some howner,
        by simpa using List.find?_some howner⟩)
    refine ⟨if_neg fun howner => hnot howner.2, fun hscope' => ?_⟩
    obtain ⟨name, hname, hparam⟩ := hmem.mp hscope'
    by_cases hsame : name = owner.name
    · rw [if_pos hsame] at hparam
      obtain ⟨n, hn, rfl⟩ := List.mem_map.mp hparam
      exact h.text n hn decl hdecl text htext term hterm _ hm hnot rfl
    · rw [if_neg hsame] at hparam
      exact hscope ((mem_scopeOf hnodup hdecl).mpr ⟨name, hname, hparam⟩)

/-- A renamed text is read as the same type but for the names of parameters. -/
theorem exists_readType_of_renamed {decl decl' : ClassDecl} (hdecl : decl ∈ decls)
    (hdecl' : decl' ∈ decls') (hrenamed : RenamedDecl decls owner ρ decl decl')
    {text text' : String} (htext : text ∈ decl.texts)
    (htexts : RenamedText (newName decls owner ρ decl) text text') {place : TypePlace} {ty : Ty}
    (hty : readType (Declarations.of decls).lookup (scopeOf decls decl) place text = .ok ty) :
    ∃ ty', readType (Declarations.of decls').lookup (scopeOf decls' decl') place text' = .ok ty' ∧
      ty'.rename (oldName owner ρ) = ty := by
  obtain ⟨term, hterm, hterm'⟩ := htexts
  obtain ⟨found, hfound, rfl⟩ := readType_eq_ok_iff.mp hty
  rw [hterm, Except.ok.injEq] at hfound
  subst hfound
  refine ⟨_, readType_eq_ok_iff.mpr ⟨_, hterm', rfl⟩, ?_⟩
  rw [lookup_renaming h.renamed]
  exact TypeTerm.resolve_rename _ term fun m hm =>
    replaced_newName h hnodup hdecl hdecl' hrenamed htext hterm hm

/-! ## renamed tables -/

/-- A renamed field is read when the field is, and up to the renaming both are
the same. -/
theorem exists_readField_of_renamed {decl decl' : ClassDecl} (hdecl : decl ∈ decls)
    (hdecl' : decl' ∈ decls') (hrenamed : RenamedDecl decls owner ρ decl decl')
    {field field' : FieldDecl} (hfield : field ∈ decl.fields)
    (hfields : RenamedField (newName decls owner ρ decl) field field') {info : FieldInfo Ty}
    (hinfo : readField (Declarations.of decls).lookup (scopeOf decls decl) decl.name field =
      .ok info) :
    ∃ info', readField (Declarations.of decls').lookup (scopeOf decls' decl') decl'.name field' =
        .ok info' ∧
      info'.mapType (Ty.rename (oldName owner ρ)) = info := by
  obtain ⟨ty, hty, hcheck, rfl⟩ := readField_eq_ok_iff.mp hinfo
  have htext : field.type ∈ decl.texts :=
    List.mem_append_right _ (List.mem_map_of_mem hfield)
  rw [← hrenamed.name, ← hfields.name] at hty
  obtain ⟨ty', hty', rfl⟩ :=
    exists_readType_of_renamed h hnodup hdecl hdecl' hrenamed htext hfields.type hty
  refine ⟨_, readField_eq_ok_iff.mpr ⟨ty', hty', ?_, rfl⟩, ?_⟩
  · unfold checkInitializer at hcheck ⊢
    rw [hfields.initializer, hfields.name, hrenamed.name]
    exact hcheck
  · rw [FieldInfo.mapType, hfields.name, hfields.initializer, hfields.annotations,
      hfields.isStatic]

/-- A renamed declaration is read as the same class but for the names of
parameters. -/
theorem exists_readClass_of_renamed {decl decl' : ClassDecl} (hdecl : decl ∈ decls)
    (hdecl' : decl' ∈ decls') (hrenamed : RenamedDecl decls owner ρ decl decl') {info : ClassInfo}
    (hinfo : readClass (.of decls) decl = .ok info) :
    ∃ info', readClass (.of decls') decl' = .ok info' ∧ info'.rename (oldName owner ρ) = info := by
  obtain ⟨supertypes, fields, hsup, hfields, rfl⟩ := readClass_eq_ok_iff.mp hinfo
  obtain ⟨supertypes', hsup', hsupertypes⟩ := exists_forall₂_of_forall₂
    (List.rel_append hrenamed.extended hrenamed.implemented) hsup
    fun text htext text' _ ty htexts hty => by
      rw [← hrenamed.name] at hty
      exact exists_readType_of_renamed h hnodup hdecl hdecl' hrenamed
        (List.mem_append_left _ htext) htexts hty
  obtain ⟨fields', hfields', hinfos⟩ := exists_forall₂_of_forall₂ hrenamed.fields hfields
    fun field hfield field' _ info hfields hinfo =>
      exists_readField_of_renamed h hnodup hdecl hdecl' hrenamed hfield hfields hinfo
  refine ⟨_, readClass_eq_ok_iff.mpr ⟨supertypes', fields', hsup', hfields', rfl⟩, ?_⟩
  simp only [ClassInfo.rename, hsupertypes, hinfos, hrenamed.name, hrenamed.kind,
    hrenamed.enumConstants, map_oldName_typeParameters h hnodup hdecl hrenamed,
    names_renaming h.renamed]

omit hnodup in
/-- **The table of renamed declarations** is the same but for the names of type
parameters. -/
theorem exists_build_of_renaming {table : ClassTable} (hbuild : build decls = .ok table) :
    ∃ table', build decls' = .ok table' ∧ table'.rename (oldName owner ρ) = table := by
  obtain ⟨⟨hqualified, hnodup⟩, hclasses⟩ := build_eq_ok_iff.mp hbuild
  have hnames := names_renaming h.renamed
  obtain ⟨classes', hclasses', hinfos⟩ := exists_forall₂_of_forall₂ h.renamed hclasses
    fun decl hdecl decl' hdecl' info hrenamed hinfo =>
      exists_readClass_of_renamed h hnodup hdecl hdecl' hrenamed hinfo
  refine ⟨⟨classes'⟩, build_eq_ok_iff.mpr ⟨⟨fun decl' hdecl' => ?_, ?_⟩, hclasses'⟩, ?_⟩
  · obtain ⟨decl, hdecl, hrenamed⟩ := exists_left_of_forall₂ h.renamed hdecl'
    rw [hrenamed.name]
    exact hqualified decl hdecl
  · rw [hnames]
    exact hnodup
  · rw [rename, hinfos]

end

end ClassTable

end Exemplar
