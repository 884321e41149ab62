import Exemplar.Proofs.ClassTable.Build
import Exemplar.Proofs.Ty.Params

/-!
# Exemplar.Proofs.ClassTable.Scope

The type parameters that the fields of a class mention.  A text is read in
the scope of its class, so its parameters are in that scope.  Where no class
is nested in another, the scope of a class is its own type parameters, and
this carries over to inherited fields: on the way down to a class, every
substitution replaces all the parameters of the class that it leaves.

* `mem_dottedPrefixes` — the prefixes of a name end before its dots;
* `Flat` — no class is nested in another;
* `params_allFields` — in a flat table a field mentions only the type
  parameters of its class.
-/

namespace Exemplar

/-! ## dotted prefixes -/

/-- The prefixes of a name are what can stand before one of its points. -/
theorem mem_dottedPrefixChars {p s : List Char} :
    p ∈ dottedPrefixChars s ↔ p ++ ['.'] <+: s := by
  induction s generalizing p with
  | nil => simp [dottedPrefixChars]
  | cons c rest ih =>
      rw [dottedPrefixChars, List.mem_append, List.mem_map]
      cases p with
      | nil =>
          rw [List.nil_append, List.cons_prefix_cons]
          by_cases h : c = '.' <;> simp [h, eq_comm]
      | cons d p =>
          rw [List.cons_append, List.cons_prefix_cons, ← ih]
          by_cases h : c = '.' <;> simp [h, and_comm, eq_comm]

/-- The dotted prefixes of a name are what stands before one of its dots. -/
theorem mem_dottedPrefixes {p name : String} :
    p ∈ dottedPrefixes name ↔ p.toList ++ ['.'] <+: name.toList := by
  rw [dottedPrefixes, List.mem_map, ← mem_dottedPrefixChars]
  constructor
  · rintro ⟨s, hs, rfl⟩
    rwa [String.toList_ofList]
  · exact fun h => ⟨p.toList, h, String.ofList_toList⟩

namespace ClassTable

/-! ## flat tables -/

/-- No class is nested in another: the name of no class begins with the name
of a class and a dot. -/
def Flat (table : ClassTable) : Prop :=
  ∀ outer ∈ table.names, ∀ inner ∈ table.names, ¬ outer.toList ++ ['.'] <+: inner.toList

instance (table : ClassTable) : Decidable table.Flat :=
  inferInstanceAs (Decidable (∀ outer ∈ table.names, ∀ inner ∈ table.names, _))

/-- In a flat table no prefix of a name is a name, and in no other table. -/
theorem flat_iff {table : ClassTable} :
    table.Flat ↔ ∀ inner ∈ table.names, ∀ outer ∈ dottedPrefixes inner, outer ∉ table.names := by
  simp only [Flat, mem_dottedPrefixes]
  exact ⟨fun h inner hinner outer hstart houter => h outer houter inner hinner hstart,
    fun h outer houter inner hinner hstart => h inner hinner outer hstart houter⟩

section

variable {decls : List ClassDecl} {table : ClassTable} {decl : ClassDecl}

/-- In a flat table no prefix of the name of a class is a class. -/
theorem not_mem_names_of_flat (hbuild : build decls = .ok table) (hflat : table.Flat)
    (hdecl : decl ∈ decls) {outer : String} (hstart : outer ∈ dottedPrefixes decl.name) :
    outer ∉ decls.map (·.name) := by
  have hnames := names_of_build hbuild
  have hinner : decl.name ∈ table.names := hnames ▸ List.mem_map_of_mem hdecl
  rw [← hnames]
  exact flat_iff.mp hflat decl.name hinner outer hstart

/-- In a flat table the scope of a class is its own type parameters. -/
theorem scopeOf_of_flat (hbuild : build decls = .ok table) (hflat : table.Flat)
    (hdecl : decl ∈ decls) : scopeOf decls decl = decl.typeParameters := by
  have hnone : enclosingNames (decls.map (·.name)) decl.name = [] := by
    rw [enclosingNames, List.filter_eq_nil_iff]
    intro outer hstart houter
    exact not_mem_names_of_flat hbuild hflat hdecl hstart (of_decide_eq_true houter)
  rw [scopeOf, hnone, List.flatMap_nil, List.append_nil]

/-- In a flat table no class has an enclosing one. -/
theorem enclosing_of_flat {info : ClassInfo} (hbuild : build decls = .ok table)
    (hflat : table.Flat) (hinfo : info ∈ table.classes) : info.enclosing = none := by
  obtain ⟨decl, hdecl, hread⟩ := exists_decl_of_mem hbuild hinfo
  obtain ⟨_, _, _, _, rfl⟩ := readClass_eq_ok_iff.mp hread
  refine List.find?_eq_none.mpr fun outer hstart houter => ?_
  exact not_mem_names_of_flat hbuild hflat hdecl hstart (of_decide_eq_true houter)

end

end ClassTable

/-! ## parameters of read types -/

namespace TypeTerm

mutual

/-- The parameters of a type that is read are in the scope that it is read in. -/
theorem params_resolve (known : NameLookup) (scope : List String) :
    (term : TypeTerm) → ∀ n ∈ (term.resolve known scope).params, n ∈ scope
  | .array item, n, h => params_resolve known scope item n h
  | .wildcard, n, h => by simp [resolve, Ty.params] at h
  | .bounded bound, n, h => params_resolve known scope bound n h
  | .named name args, n, h => by
      rw [resolve] at h
      split at h
      · simp [Ty.params] at h
      · split at h
        · next hparam =>
            rw [Ty.params, List.mem_singleton] at h
            exact h ▸ hparam.2
        · exact paramsList_resolveList known scope args n h

/-- The parameters of types that are read are in the scope that they are read in. -/
theorem paramsList_resolveList (known : NameLookup) (scope : List String) :
    (terms : List TypeTerm) → ∀ n ∈ Ty.paramsList (resolveList known scope terms), n ∈ scope
  | [], n, h => by simp [resolveList, Ty.paramsList] at h
  | term :: terms, n, h => by
      rw [resolveList, Ty.paramsList, List.mem_append] at h
      cases h with
      | inl h => exact params_resolve known scope term n h
      | inr h => exact paramsList_resolveList known scope terms n h

end

end TypeTerm

namespace ClassTable

/-- The root type of a text has no parameters. -/
theorem closed_of_readRoot {table : ClassTable} {text : String} {ty : Ty}
    (h : table.readRoot text = .ok ty) : ty.Closed := by
  obtain ⟨term, _, rfl⟩ := readType_eq_ok_iff.mp h
  exact Ty.closed_iff.mpr fun n hn =>
    absurd (TypeTerm.params_resolve _ _ term n hn) List.not_mem_nil

end ClassTable

/-- The field types and supertypes of a class mention only type parameters of
the class. -/
structure ClassInfo.OwnScope (info : ClassInfo) : Prop where
  fields : ∀ field ∈ info.fields, ∀ n ∈ field.type.params, n ∈ info.typeParameters
  supertypes : ∀ sup ∈ info.supertypes, ∀ n ∈ sup.params, n ∈ info.typeParameters

/-- In a flat table every class is in its own scope. -/
theorem ClassTable.ownScope_of_flat {decls : List ClassDecl} {table : ClassTable}
    {info : ClassInfo} (hbuild : build decls = .ok table) (hflat : table.Flat)
    (hinfo : info ∈ table.classes) : info.OwnScope := by
  obtain ⟨decl, hdecl, hread⟩ := exists_decl_of_mem hbuild hinfo
  obtain ⟨supertypes, fields, hsup, hfields, rfl⟩ := readClass_eq_ok_iff.mp hread
  rw [scopeOf_of_flat hbuild hflat hdecl] at hsup hfields
  constructor
  · intro field hfield n hn
    obtain ⟨_, _, hread⟩ := exists_left_of_forall₂ hfields hfield
    obtain ⟨ty, hty, _, rfl⟩ := readField_eq_ok_iff.mp hread
    obtain ⟨term, _, rfl⟩ := readType_eq_ok_iff.mp hty
    exact TypeTerm.params_resolve _ _ term n hn
  · intro sup hsupertype n hn
    obtain ⟨_, _, hread⟩ := exists_left_of_forall₂ hsup hsupertype
    obtain ⟨term, _, rfl⟩ := readType_eq_ok_iff.mp hread
    exact TypeTerm.params_resolve _ _ term n hn

/-! ## inherited fields -/

/-- Declared fields come first, as they are. -/
theorem ClassTable.exists_allFields_eq_append (table : ClassTable) (info : ClassInfo) :
    ∃ inherited, table.allFields info = info.fields ++ inherited := by
  have hown : (⟨info, []⟩ : Ancestor).fields = info.fields := List.map_id _
  rw [allFields, ancestors, List.flatMap_cons, hown]
  exact ⟨_, rfl⟩

/-- Declared fields are among all fields of a class, as they are. -/
theorem ClassTable.mem_allFields_of_mem_fields (table : ClassTable) {info : ClassInfo}
    {field : FieldInfo Ty} (h : field ∈ info.fields) : field ∈ table.allFields info := by
  obtain ⟨inherited, heq⟩ := table.exists_allFields_eq_append info
  exact heq ▸ List.mem_append_left inherited h

/-- A class without supertypes has no other ancestor than itself. -/
theorem ClassTable.ancestors_of_supertypes_eq_nil {table : ClassTable} {info : ClassInfo}
    (h : info.supertypes = []) : table.ancestors info = [⟨info, []⟩] := by
  rw [ancestors, h, List.map_nil, ancestorsFrom]

theorem ClassTable.allFields_of_supertypes_eq_nil {table : ClassTable} {info : ClassInfo}
    (h : info.supertypes = []) : table.allFields info = info.fields := by
  rw [allFields, ancestors_of_supertypes_eq_nil h, List.flatMap_singleton]
  exact List.map_id _

namespace ClassInfo

/-- A supertype's substitution has a type for each parameter of the supertype. -/
theorem map_fst_argumentsFor (info : ClassInfo) (args : List Ty) :
    (info.argumentsFor args).map Prod.fst = info.typeParameters := by
  rw [argumentsFor, givenArguments]
  by_cases h : args.length = info.typeParameters.length
  · rw [if_pos h]
    exact List.map_fst_zip (Nat.le_of_eq h.symm)
  · rw [if_neg h]
    simp [Function.comp_def]

/-- The types of a supertype's substitution are its arguments, or closed. -/
theorem mem_or_closed_of_mem_argumentsFor {info : ClassInfo} {args : List Ty} {n : String}
    {ty : Ty} (h : (n, ty) ∈ info.argumentsFor args) : ty ∈ args ∨ ty.Closed := by
  rw [argumentsFor] at h
  split at h
  · next given hgiven =>
      rw [givenArguments, Option.ite_none_right_eq_some] at hgiven
      cases hgiven.2
      exact .inl (List.of_mem_zip h).2
  · obtain ⟨_, _, heq⟩ := List.mem_map.mp h
    cases heq
    exact .inr rfl

end ClassInfo

/-- A path of substitutions takes types with parameters of one kind to types
with parameters of another. -/
def Takes (path : List Substitution) (P Q : String → Prop) : Prop :=
  ∀ ty : Ty, (∀ n ∈ ty.params, P n) →
    ∀ n ∈ (path.foldl (fun ty σ => ty.subst σ) ty).params, Q n

/-- A path takes fewer types to the same ones. -/
theorem Takes.imp {path : List Substitution} {P P' Q : String → Prop} (h : Takes path P Q)
    (hP : ∀ n, P' n → P n) : Takes path P' Q :=
  fun ty hty => h ty fun n hn => hP n (hty n hn)

/-- The step down from a supertype replaces the parameters of its class by those
of its arguments, and leaves other parameters as they are. -/
theorem takes_argumentsFor {info : ClassInfo} {name : String} {args : List Ty}
    {path : List Substitution} {P Q : String → Prop} (hpath : Takes path P Q)
    (hargs : ∀ n ∈ (Ty.named name args).params, P n) :
    Takes (info.argumentsFor args :: path) (fun n => n ∈ info.typeParameters ∨ P n) Q := by
  intro ty hty
  refine hpath _ fun n hn => ?_
  obtain ⟨hn, hfind⟩ | ⟨m, _, b, hfind, hn⟩ := Ty.mem_params_subst hn
  · rw [Substitution.find?_eq_none_iff, ClassInfo.map_fst_argumentsFor] at hfind
    exact (hty n hn).resolve_left hfind
  · cases ClassInfo.mem_or_closed_of_mem_argumentsFor (Substitution.mem_of_find? hfind) with
    | inl hmem => exact hargs n (Ty.mem_params_named.mpr ⟨b, hmem, hn⟩)
    | inr hclosed => exact absurd hn (hclosed.not_mem n)

namespace ClassTable

section

variable {table : ClassTable} {I : Ty → List Substitution → Prop} {Q : Ancestor → Prop}
  (hstep : ∀ name args path info, I (.named name args) path → table.find? name = some info →
    Q ⟨info, info.argumentsFor args :: path⟩ ∧
      ∀ sup ∈ info.supertypes, I sup (info.argumentsFor args :: path))

include hstep

/-- What holds of the supertypes on the stack, and goes on to the supertypes of
each class that is met, says what holds of all ancestors. -/
theorem forall_mem_ancestorsFrom (seen : List String) (stack : List (Ty × List Substitution))
    (hstack : ∀ entry ∈ stack, I entry.1 entry.2) :
    ∀ ancestor ∈ table.ancestorsFrom seen stack, Q ancestor := by
  fun_induction table.ancestorsFrom seen stack with
  | case1 => exact fun ancestor h => absurd h List.not_mem_nil
  | case2 seen name args path rest hfresh hnone ih =>
      exact ih fun entry h => hstack entry (List.mem_cons_of_mem _ h)
  | case3 seen name args path rest hfresh info hfound path' ih =>
      obtain ⟨hself, hsup⟩ := hstep name args path info (hstack _ List.mem_cons_self) hfound
      refine List.forall_mem_cons.mpr ⟨hself, ih fun entry h => ?_⟩
      obtain h | h := List.mem_append.mp h
      · obtain ⟨sup, hmem, rfl⟩ := List.mem_map.mp h
        exact hsup sup hmem
      · exact hstack entry (List.mem_cons_of_mem _ h)
  | case4 seen name args path rest hseen ih =>
      exact ih fun entry h => hstack entry (List.mem_cons_of_mem _ h)
  | case5 seen entry rest hnot ih =>
      exact ih fun entry h => hstack entry (List.mem_cons_of_mem _ h)

/-- **Walk over supertypes**: what holds of the class, and along with an
invariant of the classes behind the supertypes, holds of all ancestors. -/
theorem forall_mem_ancestors {info : ClassInfo} (hself : Q ⟨info, []⟩)
    (hsup : ∀ sup ∈ info.supertypes, I sup []) : ∀ ancestor ∈ table.ancestors info, Q ancestor := by
  refine List.forall_mem_cons.mpr ⟨hself, forall_mem_ancestorsFrom hstep _ _ fun entry h => ?_⟩
  obtain ⟨sup, hmem, rfl⟩ := List.mem_map.mp h
  exact hsup sup hmem

end

/-- The path down from every ancestor takes types over the parameters of the
ancestor to types over those of the class. -/
theorem takes_of_mem_ancestors_of_ownScope {table : ClassTable}
    (hown : ∀ info ∈ table.classes, info.OwnScope) {info : ClassInfo}
    (hinfo : info ∈ table.classes) : ∀ ancestor ∈ table.ancestors info,
      ancestor.info ∈ table.classes ∧
        Takes ancestor.path (· ∈ ancestor.info.typeParameters) (· ∈ info.typeParameters) := by
  refine @forall_mem_ancestors table (fun ty path => ∃ scope : List String,
    (∀ n ∈ ty.params, n ∈ scope) ∧ Takes path (· ∈ scope) (· ∈ info.typeParameters)) _ ?_ info
      ⟨hinfo, fun _ h => h⟩ fun sup hsup => ⟨_, (hown info hinfo).supertypes sup hsup, fun _ h => h⟩
  rintro name args path found ⟨scope, hargs, hpath⟩ hfound
  have hfound := mem_of_find? hfound
  have hdown : Takes (found.argumentsFor args :: path) (· ∈ found.typeParameters)
      (· ∈ info.typeParameters) :=
    (takes_argumentsFor hpath hargs).imp fun _ => .inl
  exact ⟨⟨hfound, hdown⟩, fun sup hsup => ⟨_, (hown found hfound).supertypes sup hsup, hdown⟩⟩

/-- **Fields in scope**: where every class is in its own scope, the fields of
a class, inherited ones included, mention only its type parameters. -/
theorem params_allFields {table : ClassTable} (hown : ∀ info ∈ table.classes, info.OwnScope)
    {info : ClassInfo} (hinfo : info ∈ table.classes) {field : FieldInfo Ty}
    (hfield : field ∈ table.allFields info) : ∀ n ∈ field.type.params, n ∈ info.typeParameters := by
  obtain ⟨ancestor, hancestor, hfield⟩ := List.mem_flatMap.mp hfield
  obtain ⟨hancestor, htakes⟩ := takes_of_mem_ancestors_of_ownScope hown hinfo ancestor hancestor
  obtain ⟨declared, hdeclared, rfl⟩ := List.mem_map.mp hfield
  exact htakes declared.type ((hown _ hancestor).fields declared hdeclared)

end ClassTable

end Exemplar
