import Exemplar.Proofs.ClassTable.Initializer
import Exemplar.Proofs.ClassTable.Reachability

/-!
# Exemplar.Proofs.ClassTable.FirstVisits

Where the fields of a class come from.  A depth-first search goes through the
supertypes of a class in order, below each one first, and leaves out what has
been met before.  On the way down it notes what the parameters of each class
stand for in the class above; the substitutions on the way make one.

* `Substitution.compose` — substitutions that are made one after the other;
* `FirstVisits` — what the search meets, by recursion on supertypes;
* `exists_firstVisits` — the stack of supertypes does the same;
* `mem_infos_ancestors_iff` — what is met is what can be reached;
* `allFields_firstVisits` — the fields of a class.
-/

namespace Exemplar

/-! ## substitutions one after the other -/

namespace Substitution

/-- The substitution that stands for one and then another. -/
def comp (σ τ : Substitution) : Substitution := τ ++ σ.map fun (name, ty) => (name, ty.subst τ)

/-- The substitution that stands for a list of them, the first one first. -/
def compose : List Substitution → Substitution
  | [] => []
  | σ :: path => σ.comp (compose path)

theorem find?_comp (σ τ : Substitution) (name : String) :
    (σ.comp τ).find? name = ((σ.find? name).map (·.subst τ)).or (τ.find? name) := by
  simp only [comp, find?, List.reverse_append, ← List.map_reverse, List.find?_append,
    List.find?_map, Function.comp_def, Option.map_or, Option.map_map]

end Substitution

namespace Ty

/-- Substituting by a composition is substituting twice. -/
theorem subst_comp (σ τ : Substitution) (ty : Ty) : ty.subst (σ.comp τ) = (ty.subst σ).subst τ := by
  induction ty using induct with
  | primitive | wildcard => rfl
  | array item ih => rw [subst, subst, subst, ih]
  | bounded bound ih => rw [subst, subst, subst, ih]
  | named name args ih =>
      simp only [subst, substList_eq_map, List.map_map]
      rw [List.map_congr_left ih]
      rfl
  | param name =>
      rw [subst, subst, Substitution.find?_comp]
      cases σ.find? name with
      | some found => rfl
      | none => rfl

/-- Substitutions that are made one after the other are made at once. -/
theorem foldl_subst (path : List Substitution) (ty : Ty) :
    path.foldl (fun ty σ => ty.subst σ) ty = ty.subst (Substitution.compose path) := by
  induction path generalizing ty with
  | nil => exact (subst_nil ty).symm
  | cons σ path ih => rw [List.foldl_cons, ih, Substitution.compose, subst_comp]

end Ty

namespace ClassTable

/-! ## depth-first search -/

/-- The names that have been met after some classes. -/
def metAfter (seen : List String) (visits : List Ancestor) : List String :=
  (visits.map (·.info.name)).reverse ++ seen

/-- The classes that a depth-first search meets from supertypes at the end of a
path, when the names in `seen` have been met.  A type that is no declared class,
or one that has been met, is passed by. -/
inductive FirstVisits (table : ClassTable) :
    List String → List Substitution → List Ty → List Ancestor → Prop where
  | nil {seen : List String} {path : List Substitution} : FirstVisits table seen path [] []
  | pass {seen : List String} {path : List Substitution} {sup : Ty} {rest : List Ty}
      {visits : List Ancestor} :
      (∀ info, table.classOf? sup = some info → info.name ∈ seen) →
      FirstVisits table seen path rest visits → FirstVisits table seen path (sup :: rest) visits
  | visit {seen : List String} {path : List Substitution} {sup : Ty} {rest : List Ty}
      {info : ClassInfo} {σ : Substitution} {below visits : List Ancestor} :
      table.classOf? sup = some info → info.name ∉ seen →
      (σ = if sup.arguments.length = info.typeParameters.length then
          info.typeParameters.zip sup.arguments
        else info.typeParameters.map (·, .named "java.lang.Object" [])) →
      FirstVisits table (info.name :: seen) (σ :: path) info.supertypes below →
      FirstVisits table (metAfter (info.name :: seen) below) path rest visits →
      FirstVisits table seen path (sup :: rest) (⟨info, σ :: path⟩ :: below ++ visits)

section

variable {table : ClassTable} {info : ClassInfo} {seen : List String} {path : List Substitution}
  {sup : Ty} {supertypes : List Ty} {visits : List Ancestor}

/-- The class of a type is found under its own name. -/
theorem find?_of_classOf? (h : table.classOf? sup = some info) :
    table.find? info.name = some info := by
  cases sup with
  | named name args =>
      rw [name_of_find? h]
      exact h
  | primitive | array | param | wildcard | bounded => contradiction

/-- A search meets one list of classes only. -/
theorem FirstVisits.unique (h : table.FirstVisits seen path supertypes visits)
    {other : List Ancestor} (h' : table.FirstVisits seen path supertypes other) :
    visits = other := by
  induction h generalizing other with
  | nil =>
      cases h'
      rfl
  | pass hold _ ih =>
      cases h' with
      | pass _ hrest => exact ih hrest
      | visit hfound hfresh => exact absurd (hold _ hfound) hfresh
  | visit hfound hfresh hσ _ _ ihbelow ihrest =>
      cases h' with
      | pass hold _ => exact absurd (hold _ hfound) hfresh
      | visit hfound' _ hσ' hbelow hrest =>
          cases hfound.symm.trans hfound'
          cases hσ.trans hσ'.symm
          obtain rfl := ihbelow hbelow
          rw [ihrest hrest]

/-- Only classes that have not been met before are met, each of them once. -/
theorem FirstVisits.nodup (h : table.FirstVisits seen path supertypes visits) :
    (visits.map (·.info.name)).Nodup ∧ ∀ name ∈ visits.map (·.info.name), name ∉ seen := by
  induction h with
  | nil => exact ⟨List.nodup_nil, fun _ h => absurd h List.not_mem_nil⟩
  | pass _ _ ih => exact ih
  | @visit seen path sup rest info σ below visits _ hfresh _ _ _ ihbelow ihrest =>
      obtain ⟨hbelow, hnew⟩ := ihbelow
      obtain ⟨hvisits, hlater⟩ := ihrest
      have hlater : ∀ name ∈ visits.map (·.info.name),
          name ∉ info.name :: below.map (·.info.name) ∧ name ∉ seen := by
        intro name hname
        have hnot := hlater name hname
        simp only [metAfter, List.mem_append, List.mem_reverse, List.mem_cons, not_or] at hnot ⊢
        exact ⟨⟨hnot.2.1, hnot.1⟩, hnot.2.2⟩
      rw [List.map_append, List.map_cons]
      constructor
      · refine List.nodup_append.mpr ⟨List.nodup_cons.mpr ⟨fun hmem => ?_, hbelow⟩, hvisits, ?_⟩
        · exact hnew _ hmem List.mem_cons_self
        · rintro name hmem _ hname rfl
          exact (hlater name hname).1 hmem
      · intro name hname
        obtain hname | hname := List.mem_append.mp hname
        · obtain rfl | hname := List.mem_cons.mp hname
          · exact hfresh
          · exact fun hmem => hnew name hname (List.mem_cons_of_mem _ hmem)
        · exact (hlater name hname).2

/-! ## the stack of supertypes -/

theorem argumentsFor_eq_ite (info : ClassInfo) (args : List Ty) :
    info.argumentsFor args = if args.length = info.typeParameters.length then
        info.typeParameters.zip args
      else info.typeParameters.map (·, .named "java.lang.Object" []) := by
  rw [ClassInfo.argumentsFor, ClassInfo.givenArguments]
  by_cases h : args.length = info.typeParameters.length
  · rw [if_pos h, if_pos h]
  · rw [if_neg h, if_neg h]

/-- A class that was met is passed over. -/
theorem ancestorsFrom_pass (hold : ∀ info, table.classOf? sup = some info → info.name ∈ seen)
    (rest : List (Ty × List Substitution)) :
    table.ancestorsFrom seen ((sup, path) :: rest) = table.ancestorsFrom seen rest := by
  cases sup with
  | named name args =>
      rw [ancestorsFrom]
      split
      · next hfresh =>
          split
          · rfl
          · next info hfound =>
              rw [← name_of_find? hfound] at hfresh
              exact absurd (hold info hfound) hfresh
      · rfl
  | primitive | array | param | wildcard | bounded => rw [ancestorsFrom]; simp

/-- A class that was not met is visited, and its supertypes come next. -/
theorem ancestorsFrom_visit (hfound : table.classOf? sup = some info) (hfresh : info.name ∉ seen)
    (rest : List (Ty × List Substitution)) :
    table.ancestorsFrom seen ((sup, path) :: rest) =
      ⟨info, info.argumentsFor sup.arguments :: path⟩ :: table.ancestorsFrom (info.name :: seen)
        (info.supertypes.map (·, info.argumentsFor sup.arguments :: path) ++ rest) := by
  cases sup with
  | named name args =>
      have hname := name_of_find? hfound
      rw [hname] at hfresh ⊢
      rw [ancestorsFrom, dif_pos hfresh]
      split
      · next hnone =>
          cases hnone.symm.trans hfound
      · next found hsome =>
          cases hsome.symm.trans hfound
          rfl
  | primitive | array | param | wildcard | bounded => contradiction

/-- Visits leave no more classes unseen. -/
theorem unseen_metAfter_le (seen : List String) (visits : List Ancestor) :
    table.unseen (metAfter seen visits) ≤ table.unseen seen := by
  refine List.countP_mono_left fun info _ h => ?_
  simp only [metAfter, List.mem_append, not_or, decide_eq_true_eq] at h ⊢
  exact h.2

/-- **The stack of supertypes** holds what is left of every list of supertypes
on the way down, so it is worked off as the search goes on. -/
theorem exists_firstVisits (table : ClassTable) (seen : List String) (path : List Substitution)
    (supertypes : List Ty) : ∃ visits, table.FirstVisits seen path supertypes visits ∧
      ∀ rest, table.ancestorsFrom seen (supertypes.map (·, path) ++ rest) =
        visits ++ table.ancestorsFrom (metAfter seen visits) rest := by
  -- below a class fewer names are unseen, and after it no more; types that are passed leave
  -- fewer supertypes
  induction hn : table.unseen seen using Nat.strongRecOn generalizing seen path supertypes with
  | ind n ih =>
      induction supertypes with
      | nil => exact ⟨[], .nil, fun rest => rfl⟩
      | cons sup more ihmore =>
          by_cases hnew : ∃ info, table.classOf? sup = some info ∧ info.name ∉ seen
          · obtain ⟨info, hfound, hfresh⟩ := hnew
            have hless : table.unseen (info.name :: seen) < n :=
              hn ▸ unseen_cons_lt (find?_of_classOf? hfound) hfresh
            obtain ⟨below, hbelow, hstack⟩ := ih _ hless (info.name :: seen)
              (info.argumentsFor sup.arguments :: path) info.supertypes rfl
            have hless' : table.unseen (metAfter (info.name :: seen) below) < n :=
              Nat.lt_of_le_of_lt (unseen_metAfter_le _ below) hless
            obtain ⟨visits, hvisits, hmore⟩ := ih _ hless' _ path more rfl
            refine ⟨_, .visit hfound hfresh (argumentsFor_eq_ite info _) hbelow hvisits,
              fun rest => ?_⟩
            rw [List.map_cons, List.cons_append, ancestorsFrom_visit hfound hfresh, hstack, hmore]
            simp [metAfter]
          · have hold : ∀ info, table.classOf? sup = some info → info.name ∈ seen := by
              intro info hfound
              exact Decidable.not_not.mp fun hfresh => hnew ⟨info, hfound, hfresh⟩
            obtain ⟨visits, hvisits, hmore⟩ := ihmore
            refine ⟨visits, .pass hold hvisits, fun rest => ?_⟩
            rw [List.map_cons, List.cons_append, ancestorsFrom_pass hold, hmore]

/-- So the ancestors of a class are the class and what the search meets. -/
theorem exists_firstVisits_ancestors (table : ClassTable) (info : ClassInfo) :
    ∃ visits, table.FirstVisits [info.name] [] info.supertypes visits ∧
      table.ancestors info = ⟨info, []⟩ :: visits := by
  obtain ⟨visits, hvisits, hstack⟩ := exists_firstVisits table [info.name] [] info.supertypes
  have hall := hstack []
  rw [ancestorsFrom, List.append_nil, List.append_nil] at hall
  exact ⟨visits, hvisits, congrArg _ hall⟩

/-! ## what is met -/

theorem className?_named_cons {name : String} {args : List Ty}
    {rest : List (Ty × List Substitution)} :
    ((Ty.named name args, path) :: rest).filterMap (·.1.className?) =
      name :: rest.filterMap (·.1.className?) := rfl

theorem filterMap_supertypes (info : ClassInfo) (path : List Substitution) :
    (info.supertypes.map (·, path)).filterMap (·.1.className?) = info.superNames :=
  List.filterMap_map

/-- The two searches go through the same stack, by name and with the
substitutions on the way. -/
theorem mem_names_ancestorsFrom_iff {base : String} {found : ClassInfo}
    (hbase : table.find? base = some found) (stack : List (Ty × List Substitution))
    (hnew : base ∉ seen) :
    base ∈ (table.ancestorsFrom seen stack).map (·.info.name) ↔
      table.reachesFrom base seen (stack.filterMap (·.1.className?)) = true := by
  fun_induction table.ancestorsFrom seen stack with
  | case1 seen => simp [reachesFrom]
  | case2 seen name args path rest hfresh hnone ih =>
      have hne : name ≠ base := by
        rintro rfl
        rw [hnone] at hbase
        contradiction
      rw [ih hnew, className?_named_cons, reachesFrom_of_find?_eq_none hne hnone]
  | case3 seen name args path rest hfresh info hfound path' ih =>
      rw [List.map_cons, List.mem_cons, className?_named_cons, name_of_find? hfound]
      by_cases hne : name = base
      · rw [hne, reachesFrom_self]
        simp
      · have hnew' : base ∉ name :: seen := by
          rintro (_ | ⟨_, hmem⟩)
          · exact hne rfl
          · exact hnew hmem
        rw [ih hnew', List.filterMap_append, filterMap_supertypes,
          reachesFrom_of_find? hne hfresh hfound, or_iff_right (Ne.symm hne)]
  | case4 seen name args path rest hold ih =>
      have hname : name ∈ seen := Decidable.not_not.mp hold
      have hne : name ≠ base := fun heq => hnew (heq ▸ hname)
      rw [ih hnew, className?_named_cons, reachesFrom_of_mem hne hname]
  | case5 seen entry rest hnot ih =>
      obtain ⟨ty, path⟩ := entry
      cases ty with
      | named name args => exact absurd rfl (hnot name args path)
      | primitive | array | param | wildcard | bounded =>
          rw [ih hnew]
          rfl

/-- **What is met** from a class are the declared classes that are reachable. -/
theorem mem_names_ancestors_iff (hinfo : table.find? info.name = some info) {base : String}
    {found : ClassInfo} (hbase : table.find? base = some found) :
    base ∈ (table.ancestors info).map (·.info.name) ↔
      Relation.ReflTransGen table.Extends info.name base := by
  rw [← reaches_iff, reaches, ancestors, List.map_cons, List.mem_cons]
  by_cases hne : info.name = base
  · rw [hne, reachesFrom_self]
    simp
  · have hnew : base ∉ [info.name] := fun hmem => hne (List.mem_singleton.mp hmem).symm
    rw [or_iff_right (Ne.symm hne), mem_names_ancestorsFrom_iff hbase _ hnew,
      filterMap_supertypes, reachesFrom_of_find? hne List.not_mem_nil hinfo, List.append_nil]

section

variable {decls : List ClassDecl} (hbuild : build decls = .ok table)

include hbuild

/-- The classes that are met in a built table, not only their names. -/
theorem mem_infos_ancestors_iff (hinfo : info ∈ table.classes) (found : ClassInfo) :
    found ∈ (table.ancestors info).map (·.info) ↔
      found ∈ table.classes ∧ Relation.ReflTransGen table.Extends info.name found.name := by
  have hmem : ∀ found ∈ (table.ancestors info).map (·.info), found ∈ table.classes :=
    List.forall_mem_map.mpr (mem_classes_of_mem_ancestors hinfo)
  constructor
  · intro hfound
    refine ⟨hmem found hfound, (mem_names_ancestors_iff (find?_name_of_mem hbuild hinfo)
      (find?_name_of_mem hbuild (hmem found hfound))).mp ?_⟩
    obtain ⟨ancestor, hancestor, rfl⟩ := List.mem_map.mp hfound
    exact List.mem_map_of_mem hancestor
  · rintro ⟨hdecl, hreach⟩
    have hname := (mem_names_ancestors_iff (find?_name_of_mem hbuild hinfo)
      (find?_name_of_mem hbuild hdecl)).mpr hreach
    obtain ⟨ancestor, hancestor, heq⟩ := List.mem_map.mp hname
    have hother : ancestor.info ∈ (table.ancestors info).map (·.info) :=
      List.mem_map_of_mem hancestor
    -- a class of the table is known by its name
    have hsame := find?_name_of_mem hbuild (hmem _ hother)
    rw [heq, find?_name_of_mem hbuild hdecl, Option.some.injEq] at hsame
    exact hsame ▸ hother

end

/-! ## fields -/

/-- The fields of a class that is met, in the terms of the class where the
search begins. -/
theorem fields_eq (visit : Ancestor) : visit.fields = visit.info.fields.map fun field =>
    { field with type := field.type.subst (Substitution.compose visit.path) } := by
  refine List.map_congr_left fun field _ => ?_
  rw [← Ty.foldl_subst]
  rfl

/-- **The fields of a class** are its own and those of all declared classes that
it inherits from, in the order of a depth-first search, each class once.  Types
are brought to the terms of the class by the substitutions on the way to the
first visit, and nothing else changes. -/
theorem allFields_firstVisits {decls : List ClassDecl} (hbuild : build decls = .ok table)
    (hinfo : info ∈ table.classes) :
    ∃ visits, table.FirstVisits [info.name] [] info.supertypes visits ∧
      (∀ other, table.FirstVisits [info.name] [] info.supertypes other → other = visits) ∧
      (info.name :: visits.map (·.info.name)).Nodup ∧
      (∀ found, found ∈ info :: visits.map (·.info) ↔ found ∈ table.classes ∧
        Relation.ReflTransGen table.Extends info.name found.name) ∧
      table.allFields info = (⟨info, []⟩ :: visits).flatMap fun visit =>
        visit.info.fields.map fun field =>
          { field with type := field.type.subst (Substitution.compose visit.path) } := by
  obtain ⟨visits, hvisits, hancestors⟩ := exists_firstVisits_ancestors table info
  obtain ⟨hnodup, hnew⟩ := hvisits.nodup
  have hself : info.name ∉ visits.map (·.info.name) :=
    fun hmem => hnew _ hmem (List.mem_singleton_self _)
  refine ⟨visits, hvisits, fun other hother => hother.unique hvisits,
    List.nodup_cons.mpr ⟨hself, hnodup⟩, fun found => ?_, ?_⟩
  · rw [← mem_infos_ancestors_iff hbuild hinfo, hancestors, List.map_cons]
  · rw [allFields, hancestors]
    exact List.flatMap_congr fun visit _ => fields_eq visit

end

/-! ## classes that inherit from each other -/

/-- An ordinary class with a type parameter, supertypes and one field. -/
def bearerDecl (name param : String) (extended implemented : List String) (field type : String) :
    ClassDecl where
  name := name
  kind := .ordinary
  typeParameters := [param]
  extended := extended
  implemented := implemented
  enumConstants := []
  fields := [⟨field, type, false, none, []⟩]

/-- The class of such a declaration. -/
def bearer (name param : String) (supertypes : List Ty) (field : String) (type : Ty) :
    ClassInfo where
  name := name
  simpleName := name
  kind := .ordinary
  typeParameters := [param]
  supertypes := supertypes
  enumConstants := []
  fields := [⟨field, type, none, [], false⟩]
  enclosing := none

/-- A base, two classes that extend it, and a tip that extends all three; the
base extends the tip. -/
def diamondDecls : List ClassDecl :=
  [bearerDecl "Base" "T" ["Tip<T>"] [] "held" "T",
    bearerDecl "Left" "A" ["Base<A[]>"] [] "left" "A",
    bearerDecl "Right" "B" ["Base<B>"] [] "right" "B",
    bearerDecl "Tip" "X" ["Left<X>"] ["Right", "Base<X>"] "own" "X"]

def diamondBase : ClassInfo :=
  bearer "Base" "T" [.named "Tip" [.param "T"]] "held" (.param "T")

def diamondLeft : ClassInfo :=
  bearer "Left" "A" [.named "Base" [.array (.param "A")]] "left" (.param "A")

def diamondRight : ClassInfo :=
  bearer "Right" "B" [.named "Base" [.param "B"]] "right" (.param "B")

def diamondTip : ClassInfo :=
  bearer "Tip" "X" [.named "Left" [.param "X"], .named "Right" [], .named "Base" [.param "X"]]
    "own" (.param "X")

/-- The classes of the declarations. -/
def diamondTable : ClassTable := ⟨[diamondBase, diamondLeft, diamondRight, diamondTip]⟩

/-- The base is met once, on the left, where its parameter stands for an array. -/
theorem allFields_diamondTip :
    build diamondDecls = .ok diamondTable ∧ diamondTip ∈ diamondTable.classes ∧
      (diamondTable.allFields diamondTip).map (fun field => (field.name, field.type)) =
        [("own", .param "X"), ("left", .param "X"), ("held", .array (.param "X")),
          ("right", .named "java.lang.Object" [])] := by
  have hbuild : build diamondDecls = .ok diamondTable := by decide +kernel
  have htip : diamondTip ∈ diamondTable.classes := by simp [diamondTable]
  obtain ⟨visits, _, hunique, _, _, hfields⟩ := allFields_firstVisits hbuild htip
  have hold : ∀ {name : String} {args : List Ty} {seen : List String}, name ∈ seen →
      ∀ info, diamondTable.classOf? (.named name args) = some info → info.name ∈ seen :=
    fun hname info hinfo => name_of_find? hinfo ▸ hname
  have hbelow : diamondTable.FirstVisits ["Left", "Tip"] [[("A", .param "X")]]
      [.named "Base" [.array (.param "A")]]
      [⟨diamondBase, [[("T", .array (.param "A"))], [("A", .param "X")]]⟩] :=
    @FirstVisits.visit _ _ _ _ _ _ _ [] [] rfl (by decide) rfl (.pass (hold (by decide)) .nil) .nil
  have hright : diamondTable.FirstVisits ["Base", "Left", "Tip"] []
      [.named "Right" [], .named "Base" [.param "X"]]
      [⟨diamondRight, [[("B", .named "java.lang.Object" [])]]⟩] :=
    @FirstVisits.visit _ _ _ _ _ _ _ [] [] rfl (by decide) rfl (.pass (hold (by decide)) .nil)
      (.pass (hold (by decide)) .nil)
  have hall := FirstVisits.visit (by rfl : diamondTable.classOf? (.named "Left" [.param "X"]) = _)
    (by decide : diamondLeft.name ∉ ["Tip"]) rfl hbelow hright
  refine ⟨hbuild, htip, ?_⟩
  rw [hfields, ← hunique _ hall]
  decide

end ClassTable

end Exemplar
