import Exemplar.Proofs.ClassTable.Prelude
import Exemplar.Proofs.Sampler.Substitution

/-!
# Exemplar.Proofs.Sampler.Field

The fields of a class with closed arguments.  A field is sampled in the
environment of its class, where the parameters are looked up.  If the run
stays at transparent places, this is the sample of the type in which the
arguments are written in the place of the parameters.

Each condition is needed (`exists_not_sampledAsWritten`): a rule can be named
like a parameter; the layer of a class can give a meaning of its own to a name
in an argument; an array of arrays is not an array of an argument that is an
array; and a class token prints a wildcard, or the name of a parameter, only
where there is one.
-/

namespace Exemplar

namespace Sampler

open ClassTable

/-- A type in a class with arguments has the sample of the type with the
arguments written in the place of the parameters. -/
def SampledAsWritten (s : Sampler) (registry : Registry) (left : Nat) (info : ClassInfo)
    (args : List Ty) (outer : Environment Ty) (ty : Ty) : Prop :=
  (s.sampleAt left ty (s.environmentFor ty (s.environmentFor (.named info.name args) outer))).run
      registry =
    (s.sampleAt left (ty.subst (info.typeParameters.zip args))
      (s.environmentFor (ty.subst (info.typeParameters.zip args)) .empty)).run registry

section

variable {decls : List ClassDecl} {s : Sampler} {registry : Registry} {left : Nat}
  {info : ClassInfo} {args : List Ty} {outer : Environment Ty} {field : FieldInfo Ty}

/-- **Looking up against writing**: in a table in which no class is nested in
another, a field of a class with closed arguments is sampled as if these were
written in the place of the parameters, if no rule is named like a parameter,
the field is below the root, no run uses up its depth, and the places that are
looked into are transparent. -/
theorem sampledAsWritten_of_transparent (hbuild : build decls = .ok s.table)
    (hflat : s.table.Flat) (hinfo : s.table.find? info.name = some info)
    (hlength : args.length = info.typeParameters.length) (hclosed : ∀ arg ∈ args, arg.Closed)
    (hfield : field ∈ s.table.allFields info) (hfixed : registry.IsFixed)
    (hrule : ∀ n ∈ info.typeParameters, registry.rule? (rawName n) = none)
    (hleft : left < maxDepth)
    (hrun : s.Shallow registry left field.type (s.environmentFor (.named info.name args) outer))
    (hrun' : s.Shallow registry left (field.type.subst (info.typeParameters.zip args)) .empty)
    (h : s.Along registry (fun _ => s.Transparent info.typeParameters) left field.type
      (s.environmentFor (.named info.name args) outer)) :
    s.SampledAsWritten registry left info args outer field.type := by
  have hown : ∀ info ∈ s.table.classes, info.OwnScope := fun info hinfo =>
    ownScope_of_flat hbuild hflat hinfo
  have hfst : (info.typeParameters.zip args).map Prod.fst = info.typeParameters :=
    List.map_fst_zip (Nat.le_of_eq hlength.symm)
  have hzip : ∀ m found, Substitution.find? (info.typeParameters.zip args) m = some found →
      found.Closed := fun m found hfound =>
    hclosed found (List.of_mem_zip (Substitution.mem_of_find? hfound)).2
  have hclass : s.table.classOf? (.named info.name args) = some info := hinfo
  -- every parameter of the field stands for its argument
  have himage : Image (info.typeParameters.zip args)
      (s.environmentFor (.named info.name args) outer) .empty field.type
      (field.type.subst (info.typeParameters.zip args)) := by
    refine .inl ⟨rfl, fun m hm => ?_⟩
    have hmem := params_allFields hown (mem_of_find? hinfo) hfield m hm
    obtain ⟨arg, harg⟩ := ClassInfo.exists_argument? hlength hmem
    refine ⟨arg, ClassInfo.argument?_of_length_eq hlength m ▸ harg, ?_⟩
    rw [resolve_environmentFor_of_mem hclass outer hmem, Ty.arguments, harg, Option.bind_some,
      concrete_of_closed (hclosed arg (ClassInfo.mem_of_argument? harg).2)]
  exact run_sampleAt_of_image hzip hown hfixed (hfst.symm ▸ hrule) himage hleft hleft hrun hrun'
    (hfst.symm ▸ h)

end

/-! ## an index of items -/

/-- The index holds items of its type in a sequence. -/
def indexDecl : ClassDecl where
  name := "Index"
  kind := .ordinary
  typeParameters := ["T"]
  extended := []
  implemented := []
  enumConstants := []
  fields := [⟨"items", "java.lang.Iterable<T>", false, none, []⟩]

/-- A class without supertypes and fields. -/
def bareInfo (name simpleName : String) (kind : ClassKind) (typeParameters : List String) :
    ClassInfo where
  name := name
  simpleName := simpleName
  kind := kind
  typeParameters := typeParameters
  supertypes := []
  enumConstants := []
  fields := []
  enclosing := none

/-- The class of sequences. -/
def iterableInfo : ClassInfo := bareInfo "java.lang.Iterable" "Iterable" .interface ["T"]

def indexInfo : ClassInfo where
  name := "Index"
  simpleName := "Index"
  kind := .ordinary
  typeParameters := ["T"]
  supertypes := []
  enumConstants := []
  fields := [⟨"items", .named "java.lang.Iterable" [.param "T"], none, [], false⟩]
  enclosing := none

theorem build_indexDecl :
    build [libraryClass "java.lang.Iterable" .interface ["T"] [] [], indexDecl] =
      .ok ⟨[iterableInfo, indexInfo]⟩ := by decide +kernel

/-- The items of an index are those of its argument. -/
theorem sampledAsWritten_index :
    let s : Sampler := ⟨⟨[iterableInfo, indexInfo]⟩, .full⟩
    let items : Ty := .named "java.lang.Iterable" [.param "T"]
    let item : Ty := .named "Item" []
    s.table.Flat ∧ s.Shallow ∅ 9 items (s.environmentFor (.named "Index" [item]) .empty) ∧
      s.Shallow ∅ 9 (items.subst [("T", item)]) .empty ∧
      s.Along ∅ (fun _ => s.Transparent ["T"]) 9 items
        (s.environmentFor (.named "Index" [item]) .empty) ∧
      s.SampledAsWritten ∅ 9 indexInfo [item] .empty items := by
  intro s items item
  have hflat : s.table.Flat := by decide
  have hplan : ∀ env args, s.plan env (.named "java.lang.Iterable" args) =
      s.planContainer env .sequence args :=
    @plan_of_container s "java.lang.Iterable" iterableInfo rfl rfl .sequence
      (containerOf?_iterable s.table)
  have hitem : s.table.find? "Item" = none := rfl
  have hshallow : ∀ left env, s.Shallow ∅ (left + 1) item env := fun left env =>
    .of_plan (Nat.succ_ne_zero left) (plan_of_unknown hitem _ []) fun part hpart =>
      absurd hpart List.not_mem_nil
  have hrun : s.Shallow ∅ 9 items (s.environmentFor (.named "Index" [item]) .empty) := by
    refine .of_plan (by decide) (hplan _ _) fun part hpart => ?_
    rw [List.mem_singleton.mp hpart]
    exact .of_param (by decide) rfl (hshallow 6 _)
  have hrun' : s.Shallow ∅ 9 (items.subst [("T", item)]) .empty := by
    refine .of_plan (by decide) (hplan _ _) fun part hpart => ?_
    rw [List.mem_singleton.mp hpart]
    exact hshallow 7 _
  have htransparent : s.Along ∅ (fun _ => s.Transparent ["T"]) 9 items
      (s.environmentFor (.named "Index" [item]) .empty) := by
    refine .of_plan ⟨fun part hpart => ?_, ?_, ?_, ?_⟩ (hplan _ _) fun part hpart => ?_
    · -- the sequence has a parameter of the same name, which stands for the same
      rw [hplan] at hpart
      cases hpart
      refine Environment.preserves_of_forall ["T"] (by decide) (fun n hn found hfound => ?_) ?_
      · rw [List.mem_singleton.mp hn] at hfound
        cases hfound
        exact fun m hm => absurd hm List.not_mem_nil
      · decide
    · simp [hplan, items, Plan.fieldTypes, planContainer]
    · simp [items]
    · have hcont : s.table.containerOf? "java.lang.Iterable" iterableInfo.typeParameters.length =
          some .sequence := containerOf?_iterable s.table
      have hfind : s.table.find? "java.lang.Iterable" = some iterableInfo := rfl
      simp [tokenTarget?, items, hfind, hcont]
    · rw [List.mem_singleton.mp hpart]
      refine .of_param (transparent_param s ["T"] "T" _) rfl ?_
      exact .of_plan (transparent_unknown hitem ["T"] [] _) (plan_of_unknown hitem _ [])
        fun part hpart => absurd hpart List.not_mem_nil
  refine ⟨hflat, hrun, hrun', htransparent, ?_⟩
  have hfield : ⟨"items", items, none, [], false⟩ ∈ s.table.allFields indexInfo :=
    mem_allFields_of_mem_fields s.table List.mem_cons_self
  have hfixed : (∅ : Registry).IsFixed :=
    Registry.isFixed_of_forall fun entry hentry => absurd hentry List.not_mem_nil
  exact sampledAsWritten_of_transparent build_indexDecl hflat rfl rfl (by decide) hfield hfixed
    (fun _ _ => rfl) (by decide) hrun hrun' htransparent

/-! ## where the two ways part -/

/-- A class that uses its parameters in five ways. -/
def sheetDecl : ClassDecl where
  name := "Sheet"
  kind := .ordinary
  typeParameters := ["T", "K", "V"]
  extended := []
  implemented := []
  enumConstants := []
  fields := [⟨"value", "T", false, none, []⟩, ⟨"inverse", "Map<V,K>", false, none, []⟩,
    ⟨"cells", "T[]", false, none, []⟩, ⟨"kind", "Class<T>", false, none, []⟩,
    ⟨"kinds", "Class<List<T>>", false, none, []⟩]

def sheetInfo : ClassInfo where
  name := "Sheet"
  simpleName := "Sheet"
  kind := .ordinary
  typeParameters := ["T", "K", "V"]
  supertypes := []
  enumConstants := []
  fields := [⟨"value", .param "T", none, [], false⟩,
    ⟨"inverse", .named "java.util.Map" [.param "V", .param "K"], none, [], false⟩,
    ⟨"cells", .array (.param "T"), none, [], false⟩,
    ⟨"kind", .named "java.lang.Class" [.param "T"], none, [], false⟩,
    ⟨"kinds", .named "java.lang.Class" [.named "java.util.List" [.param "T"]], none, [], false⟩]
  enclosing := none

/-- The class of maps. -/
def mapInfo : ClassInfo := bareInfo "java.util.Map" "Map" .interface ["K", "V"]

/-- The class of class tokens. -/
def classInfo : ClassInfo := bareInfo "java.lang.Class" "Class" .ordinary ["T"]

/-- A scalar type. -/
abbrev letterA : Ty := .named "A" []

/-- A scalar type. -/
abbrev letterB : Ty := .named "B" []

/-- Two scalar types. -/
def letters : Registry := ⟨[("A", .fixed (.string "a")), ("B", .fixed (.string "b"))]⟩

/-- A type of the name of a parameter besides. -/
def lettersAndT : Registry := letters.register "T" (.fixed (.string "t"))

/-- A type in a class with closed arguments is sampled in two ways with
different values, neither of which uses up its depth. -/
structure Parts (s : Sampler) (registry : Registry) (left : Nat) (info : ClassInfo)
    (args : List Ty) (ty : Ty) : Prop where
  length : args.length = info.typeParameters.length
  closed : ∀ arg ∈ args, arg.Closed
  inside : s.Shallow registry left ty (s.environmentFor (.named info.name args) .empty)
  written : s.Shallow registry left (ty.subst (info.typeParameters.zip args)) .empty
  differ : ¬ s.SampledAsWritten registry left info args .empty ty

theorem isFixed_letters : letters.IsFixed := Registry.isFixed_of_forall (by decide)

theorem isFixed_lettersAndT : lettersAndT.IsFixed := Registry.isFixed_of_forall (by decide)

section

variable {s : Sampler}

/-- Two runs that give different values, neither of which uses up its depth. -/
theorem parts_of_runs {registry : Registry} {left : Nat} {info : ClassInfo} {args : List Ty}
    {ty : Ty} {v w : Option Json}
    (hrun : s.Shallow registry left ty (s.environmentFor (.named info.name args) .empty))
    (hrun' : s.Shallow registry left (ty.subst (info.typeParameters.zip args)) .empty)
    (hvalue : (s.sampleAt left ty
      (s.environmentFor ty (s.environmentFor (.named info.name args) .empty))).run registry =
        (v, registry))
    (hvalue' : (s.sampleAt left (ty.subst (info.typeParameters.zip args))
      (s.environmentFor (ty.subst (info.typeParameters.zip args)) .empty)).run registry =
        (w, registry))
    (hne : v ≠ w) (hlength : args.length = info.typeParameters.length)
    (hclosed : ∀ arg ∈ args, arg.Closed) : s.Parts registry left info args ty := by
  refine ⟨hlength, hclosed, hrun, hrun', fun h => hne ?_⟩
  rw [SampledAsWritten, hvalue, hvalue'] at h
  exact congrArg Prod.fst h

/-- A rule can be named like a parameter. -/
theorem parts_value (s : Sampler) :
    s.Parts lettersAndT 9 sheetInfo [letterA, letterA, letterB] (.param "T") := by
  have hanswer : lettersAndT.answer? (.param "T") = some (.string "t") := by rfl
  have hanswer' : lettersAndT.answer? letterA = some (.string "a") := by rfl
  exact parts_of_runs (.of_answer? (by decide) hanswer) (.of_answer? (by decide) hanswer')
    (run_sampleAt_of_answer? s isFixed_lettersAndT hanswer 8 _)
    (run_sampleAt_of_answer? s isFixed_lettersAndT hanswer' 8 _) (by simp) rfl (by decide)

theorem answer?_a : letters.answer? letterA = some (.string "a") := by rfl

theorem answer?_b : letters.answer? letterB = some (.string "b") := by rfl

/-- Inside a sheet its parameters are bound to the arguments. -/
theorem environmentFor_sheet (hsheet : s.table.find? "Sheet" = some sheetInfo) (x y z : Ty) :
    s.environmentFor (.named "Sheet" [x, y, z]) .empty =
      ⟨[("V", concrete .empty z), ("K", concrete .empty y), ("T", concrete .empty x)]⟩ := by
  have hclass : s.table.classOf? (.named "Sheet" [x, y, z]) = some sheetInfo := hsheet
  rw [environmentFor_eq_foldl, hclass]
  rfl

/-- The class of maps has parameters of the same names. -/
theorem parts_inverse (hsheet : s.table.find? "Sheet" = some sheetInfo)
    (hmap : s.table.find? "java.util.Map" = some mapInfo) :
    s.Parts letters 9 sheetInfo [letterA, letterA, letterB]
      (.named "java.util.Map" [.param "V", .param "K"]) := by
  have hplan := plan_of_container hmap (firstConstant?_eq_none s (by decide))
    (containerOf?_map s.table)
  have hnone : letters.answer? (.named "java.util.Map" [.param "V", .param "K"]) = none := by rfl
  have hnone' : letters.answer? (.named "java.util.Map" [letterB, letterA]) = none := by rfl
  -- inside of the map, its first parameter is the second one of the sheet
  have hbound : (s.environmentFor (.named "java.util.Map" [.param "V", .param "K"])
      (s.environmentFor (.named "Sheet" [letterA, letterA, letterB]) .empty)).resolve "K" =
        some letterB := by
    have hclass : s.table.classOf? (.named "java.util.Map" [.param "V", .param "K"]) =
      some mapInfo := hmap
    rw [resolve_environmentFor_of_mem hclass _ (by decide), environmentFor_sheet hsheet]
    rfl
  refine parts_of_runs (.of_plan (by decide) (hplan _ _) fun part hpart => ?_)
    (.of_plan (by decide) (hplan _ _) fun part hpart => ?_)
    (run_sampleAt_of_map isFixed_letters hnone (hplan _ _)
      ((run_sampleAt_param s isFixed_letters (by rfl) hbound 7).trans
        (run_sampleAt_of_answer? s isFixed_letters answer?_b 6 _)))
    (run_sampleAt_of_map isFixed_letters hnone' (hplan _ _)
      (run_sampleAt_of_answer? s isFixed_letters answer?_a 7 _)) (by simp) rfl (by decide)
  · rw [List.mem_singleton.mp hpart]
    exact .of_param (by decide) hbound (.of_answer? (by decide) answer?_b)
  · rw [List.mem_singleton.mp hpart]
    exact .of_answer? (by decide) answer?_a

/-- An array of the parameter has one dimension more than its argument. -/
theorem parts_cells (hsheet : s.table.find? "Sheet" = some sheetInfo) :
    s.Parts letters 9 sheetInfo [.array letterA, letterA, letterB] (.array (.param "T")) := by
  have hbound : (s.environmentFor (.named "Sheet" [.array letterA, letterA, letterB])
      .empty).resolve "T" = some (.array letterA) := by
    rw [environmentFor_sheet hsheet]
    rfl
  have hplan : ∀ env item, s.plan env (.array item) = .list item.component := fun _ _ => rfl
  have hitem : ∀ left env, s.Shallow letters (left + 1) letterA env := fun left env =>
    .of_answer? (Nat.succ_ne_zero left) answer?_a
  have hitems : ∀ left env, s.Shallow letters (left + 2) (.array letterA) env := by
    intro left env
    refine .of_plan (Nat.succ_ne_zero _) (hplan _ _) fun part hpart => ?_
    rw [List.mem_singleton.mp hpart]
    exact hitem left env
  refine parts_of_runs (.of_plan (by decide) (hplan _ _) fun part hpart => ?_)
    (.of_plan (by decide) (hplan _ _) fun part hpart => ?_)
    (run_sampleAt_of_list isFixed_letters rfl rfl
      ((run_sampleAt_param s isFixed_letters (by rfl) hbound 7).trans
        (run_sampleAt_of_list isFixed_letters rfl rfl
          (run_sampleAt_of_answer? s isFixed_letters answer?_a 5 _))))
    (run_sampleAt_of_list isFixed_letters rfl rfl
      (run_sampleAt_of_answer? s isFixed_letters answer?_a 7 _)) ?_ rfl (by decide)
  · rw [List.mem_singleton.mp hpart]
    exact .of_param (by decide) hbound (hitems 5 _)
  · rw [List.mem_singleton.mp hpart]
    exact hitem 7 _
  · simp [listOf]

/-- A class token prints the wildcard that a parameter stands for, but no wildcard. -/
theorem parts_kind (hclass : s.table.find? "java.lang.Class" = some classInfo) :
    s.Parts letters 9 sheetInfo [.wildcard, letterA, letterB]
      (.named "java.lang.Class" [.param "T"]) := by
  have hplan := plan_of_container hclass (firstConstant?_eq_none s (by decide))
    (containerOf?_class hclass rfl)
  refine parts_of_runs (.of_plan (by decide) (hplan _ _) fun part hpart => ?_)
    (.of_plan (by decide) (hplan _ _) fun part hpart => ?_)
    (run_sampleAt_of_value isFixed_letters (by rfl) (hplan _ _))
    (run_sampleAt_of_value isFixed_letters (by rfl) (hplan _ _)) ?_ rfl (by decide)
  · exact absurd hpart List.not_mem_nil
  · exact absurd hpart List.not_mem_nil
  · exact Option.some_ne_none _

/-- A class token prints a parameter inside of its type. -/
theorem parts_kinds {listInfo : ClassInfo}
    (hlist : s.table.find? "java.util.List" = some listInfo) (hnone : listInfo.enclosing = none)
    (hclass : s.table.find? "java.lang.Class" = some classInfo) :
    s.Parts letters 9 sheetInfo [letterA, letterA, letterB]
      (.named "java.lang.Class" [.named "java.util.List" [.param "T"]]) := by
  have hplan := plan_of_container hclass (firstConstant?_eq_none s (by decide))
    (containerOf?_class hclass rfl)
  have htoken : ∀ env arg, s.sampleToken env (.named "java.util.List" [arg]) =
      some (.string (Ty.named "java.util.List" [arg]).text) := by
    intro env arg
    have hclass : s.table.classOf? (.named "java.util.List" [arg]) = some listInfo := hlist
    rw [← binaryName_of_enclosing_eq_none hclass hnone]
    rfl
  refine parts_of_runs (.of_plan (by decide) (hplan _ _) fun part hpart => ?_)
    (.of_plan (by decide) (hplan _ _) fun part hpart => ?_)
    (run_sampleAt_of_value isFixed_letters (by rfl) (hplan _ _))
    (run_sampleAt_of_value isFixed_letters (by rfl) (hplan _ _)) ?_ rfl (by decide)
  · exact absurd hpart List.not_mem_nil
  · exact absurd hpart List.not_mem_nil
  · have htext : (Ty.named "java.util.List" [.param "T"]).text ≠
        (Ty.named "java.util.List" [letterA]).text := by decide +kernel
    intro heq
    have heq := (htoken _ _).symm.trans (heq.trans (htoken _ letterA))
    rw [Option.some.injEq, Json.string.injEq] at heq
    exact htext heq

end

/-! ### the sheet in its table -/

/-- The declaration of the sheet is read. -/
theorem readClass_sheetDecl :
    readClass (.of (preludeClasses ++ [sheetDecl])) sheetDecl = .ok sheetInfo := by decide +kernel

/-- A class without fields and supertypes is read as it stands. -/
theorem readClass_bare {decls : List ClassDecl} {name simpleName : String} {kind : ClassKind}
    {typeParameters : List String} (hsimple : Exemplar.simpleName name = simpleName)
    (hnone : enclosingName? (decls.map (·.name)) name = none) :
    readClass (.of decls) (libraryClass name kind typeParameters [] []) =
      .ok (bareInfo name simpleName kind typeParameters) := by
  refine readClass_eq_ok_iff.mpr ⟨[], [], .nil, .nil, ?_⟩
  simp only [bareInfo, libraryClass, hsimple, hnone]

/-- **Every condition counts**: five fields of one class, in a table of a
document, whose samples are not those of the types with the arguments written
in the place of the parameters. -/
theorem exists_not_sampledAsWritten : ∃ s : Sampler,
    ofDocuments [⟨[sheetDecl]⟩] = .ok s.table ∧ s.table.Flat ∧
    s.table.find? "Sheet" = some sheetInfo ∧ sheetInfo.typeParameters.Nodup ∧
    letters.IsFixed ∧ lettersAndT.IsFixed ∧
    (∃ field ∈ s.table.allFields sheetInfo, field.name = "value" ∧
      s.Parts lettersAndT 9 sheetInfo [letterA, letterA, letterB] field.type) ∧
    (∃ field ∈ s.table.allFields sheetInfo, field.name = "inverse" ∧
      s.Parts letters 9 sheetInfo [letterA, letterA, letterB] field.type) ∧
    (∃ field ∈ s.table.allFields sheetInfo, field.name = "cells" ∧
      s.Parts letters 9 sheetInfo [.array letterA, letterA, letterB] field.type) ∧
    (∃ field ∈ s.table.allFields sheetInfo, field.name = "kind" ∧
      s.Parts letters 9 sheetInfo [.wildcard, letterA, letterB] field.type) ∧
    (∃ field ∈ s.table.allFields sheetInfo, field.name = "kinds" ∧
      s.Parts letters 9 sheetInfo [letterA, letterA, letterB] field.type) := by
  obtain ⟨table, hbuild⟩ : ∃ table, ofDocuments [⟨[sheetDecl]⟩] = .ok table := by
    refine exists_ofDocuments_iff.mpr ⟨fun decl hdecl => ?_, List.nodup_singleton _⟩
    rw [List.mem_singleton.mp hdecl]
    exact ⟨by decide +kernel, by decide +kernel,
      exists_readClass_iff.mp ⟨sheetInfo, readClass_sheetDecl⟩⟩
  have hfind : ∀ {decl info}, decl ∈ preludeClasses ++ [sheetDecl] →
      readClass (.of (preludeClasses ++ [sheetDecl])) decl = .ok info →
      table.find? decl.name = some info := fun hdecl hread =>
    (find?_eq_some_iff_of_build hbuild).mpr ⟨_, hdecl, rfl, hread⟩
  have hsheet : table.find? "Sheet" = some sheetInfo := hfind (by simp) readClass_sheetDecl
  have hmap : table.find? "java.util.Map" = some mapInfo :=
    hfind (by simp [preludeClasses]) (readClass_bare (by decide +kernel) (by decide +kernel))
  have hclass : table.find? "java.lang.Class" = some classInfo :=
    hfind (by simp [preludeClasses]) (readClass_bare (by decide +kernel) (by decide +kernel))
  have hflat : table.Flat := by
    have hnames : table.names = (preludeClasses ++ [sheetDecl]).map (·.name) :=
      names_of_build hbuild
    rw [flat_iff, hnames]
    decide +kernel
  obtain ⟨listInfo, hlist⟩ : ∃ listInfo, table.find? "java.util.List" = some listInfo :=
    @exists_find?_of_mem _ _ (libraryClass "java.util.List" .interface ["E"]
      ["java.util.Collection<E>"] []) hbuild (by simp [preludeClasses])
  have hnone := enclosing_of_flat hbuild hflat (mem_of_find? hlist)
  have hfields : ∀ field ∈ sheetInfo.fields, field ∈ table.allFields sheetInfo := fun _ =>
    mem_allFields_of_mem_fields table
  refine ⟨⟨table, .full⟩, hbuild, hflat, hsheet, by decide, isFixed_letters, isFixed_lettersAndT,
    ⟨_, hfields _ (.head _), rfl, parts_value _⟩,
    ⟨_, hfields _ (.tail _ (.head _)), rfl, parts_inverse hsheet hmap⟩,
    ⟨_, hfields _ (.tail _ (.tail _ (.head _))), rfl, parts_cells hsheet⟩,
    ⟨_, hfields _ (.tail _ (.tail _ (.tail _ (.head _)))), rfl, parts_kind hclass⟩,
    ⟨_, hfields _ (.tail _ (.tail _ (.tail _ (.tail _ (.head _))))), rfl,
      parts_kinds hlist hnone hclass⟩⟩

end Sampler

end Exemplar
