import Exemplar.Proofs.ClassTable.BuildRename
import Exemplar.Proofs.Sampler.Rename
import Mathlib.Data.List.Find

/-!
# Exemplar.Proofs.Sampler.Unshared

Names of type parameters that no other class has.  A name can only be mixed up
with the name of another parameter in the table, as there are no other names
in types and environments of a run (`Over`).  So if a renaming keeps apart all
the parameters of a table, nothing is mixed up, and other names for the
parameters of a class make no difference, if no other class has their old
names.

* `keepsApart_oldName` — the parameters of a table with new names for those of
  one class;
* `unmixed_of_over` — a place at which all names are kept apart;
* `unmixedRun_of_over` — a run of such places.
-/

namespace Exemplar

/-! ## names of parameters -/

/-- A renaming keeps names apart. -/
def KeepsApart (u : String → String) (names : List String) : Prop :=
  ∀ n ∈ names, ∀ m ∈ names, u n = u m → n = m

/-- The parameters of a type are among the names. -/
def Ty.Over (names : List String) (ty : Ty) : Prop := ∀ n ∈ ty.params, n ∈ names

/-- The parameters of a substitution and of its types are among the names. -/
def Substitution.Over (names : List String) (σ : Substitution) : Prop :=
  ∀ pair ∈ σ, pair.1 ∈ names ∧ pair.2.Over names

/-- The names of an environment and the parameters of its types are among the
names. -/
def Environment.Over (names : List String) (env : Environment Ty) : Prop :=
  ∀ frame ∈ env.frames, frame.1 ∈ names ∧ ∀ ty, frame.2 = some ty → ty.Over names

/-- The parameters of a class, and those of its types, are among the names. -/
structure ClassInfo.Over (names : List String) (info : ClassInfo) : Prop where
  typeParameters : ∀ n ∈ info.typeParameters, n ∈ names
  supertypes : ∀ sup ∈ info.supertypes, sup.Over names
  fields : ∀ field ∈ info.fields, field.type.Over names

section

variable {names : List String} {u : String → String}

theorem Ty.Closed.over {ty : Ty} (h : ty.Closed) (names : List String) : ty.Over names :=
  fun n hn => absurd hn (h.not_mem n)

theorem Ty.over_named_iff {name : String} {args : List Ty} :
    (Ty.named name args).Over names ↔ ∀ arg ∈ args, arg.Over names := by
  constructor
  · exact fun h arg harg n hn => h n (Ty.mem_params_named.mpr ⟨arg, harg, hn⟩)
  · intro h n hn
    obtain ⟨arg, harg, hn⟩ := Ty.mem_params_named.mp hn
    exact h arg harg n hn

/-- Replacing parameters by types over the names stays over them. -/
theorem Ty.Over.subst {ty : Ty} {σ : Substitution} (h : ty.Over names) (hσ : σ.Over names) :
    (ty.subst σ).Over names := by
  intro n hn
  obtain ⟨hn, _⟩ | ⟨m, _, b, hfind, hn⟩ := Ty.mem_params_subst hn
  · exact h n hn
  · exact (hσ _ (Substitution.mem_of_find? hfind)).2 n hn

theorem Environment.Over.resolve {env : Environment Ty} (h : env.Over names) {n : String}
    {found : Ty} (hfound : env.resolve n = some found) : found.Over names := by
  rw [Environment.resolve, Option.bind_eq_some_iff] at hfound
  obtain ⟨frame, hframe, hfound⟩ := hfound
  exact (h frame (List.mem_of_find?_eq_some hframe)).2 found hfound

/-! ## look-up -/

/-- Among names that are kept apart, new names find what the names find. -/
theorem find?_key_rename {α : Type} (hapart : KeepsApart u names) {pairs : List (String × α)}
    (hpairs : ∀ pair ∈ pairs, pair.1 ∈ names) {n : String} (hn : n ∈ names) (g : α → α) :
    (pairs.map fun pair => (u pair.1, g pair.2)).find? (·.1 = u n) =
      (pairs.find? (·.1 = n)).map fun pair => (u pair.1, g pair.2) := by
  rw [List.find?_map]
  congr 1
  refine List.find?_congr fun pair hpair => ?_
  rw [Function.comp_apply, decide_eq_decide]
  exact ⟨hapart _ (hpairs pair hpair) n hn, congrArg u⟩

/-- A renaming that keeps the names apart mixes up no name of an environment
over them. -/
theorem Environment.unmixed_of_over (hapart : KeepsApart u names) {env : Environment Ty}
    (henv : env.Over names) {n : String} (hn : n ∈ names) : env.Unmixed u n := by
  rw [Unmixed, resolve, rename, resolve,
    find?_key_rename hapart (fun frame hframe => (henv frame hframe).1) hn]
  cases env.frames.find? (·.1 = n) with
  | none | some frame => rfl

/-- Nor a name of a substitution over them. -/
theorem Substitution.unmixed_of_over (hapart : KeepsApart u names) {σ : Substitution}
    (hσ : σ.Over names) {n : String} (hn : n ∈ names) : σ.Unmixed u n := by
  rw [Unmixed, find?, rename, find?, ← List.map_reverse,
    find?_key_rename hapart (fun pair hpair => (hσ pair (List.mem_reverse.mp hpair)).1) hn]
  cases σ.reverse.find? (·.1 = n) with
  | none | some pair => rfl

/-! ## paths -/

/-- Nor a name along a path of such substitutions. -/
theorem Ty.unmixedAlong_of_over (hapart : KeepsApart u names) {path : List Substitution}
    (hpath : ∀ σ ∈ path, σ.Over names) {ty : Ty} (hty : ty.Over names) :
    ty.UnmixedAlong u path := by
  induction path generalizing ty with
  | nil => trivial
  | cons σ path ih =>
      have hσ := hpath σ List.mem_cons_self
      refine ⟨fun n hn => Substitution.unmixed_of_over hapart hσ (hty n hn), ?_⟩
      exact ih (fun τ hτ => hpath τ (List.mem_cons_of_mem _ hτ)) (hty.subst hσ)

/-- The types along such a path stay over the names. -/
theorem Ty.Over.foldl_subst {path : List Substitution} (hpath : ∀ σ ∈ path, σ.Over names) {ty : Ty}
    (hty : ty.Over names) : (path.foldl (fun ty σ => ty.subst σ) ty).Over names := by
  induction path generalizing ty with
  | nil => exact hty
  | cons σ path ih =>
      exact ih (fun τ hτ => hpath τ (List.mem_cons_of_mem _ hτ))
        (hty.subst (hpath σ List.mem_cons_self))

theorem ClassInfo.over_argumentsFor {info : ClassInfo} (hinfo : info.Over names) {args : List Ty}
    (hargs : ∀ arg ∈ args, arg.Over names) : (info.argumentsFor args).Over names := by
  rintro ⟨n, ty⟩ hpair
  have hn := List.mem_map_of_mem (f := Prod.fst) hpair
  rw [map_fst_argumentsFor] at hn
  refine ⟨hinfo.typeParameters n hn, ?_⟩
  cases mem_or_closed_of_mem_argumentsFor hpair with
  | inl hmem => exact hargs ty hmem
  | inr hclosed => exact hclosed.over names

namespace ClassTable

/-! ## tables -/

section

variable {table : ClassTable} (hover : ∀ info ∈ table.classes, info.Over names)

include hover

/-- On the way down from an ancestor there are only names of the table. -/
theorem over_of_mem_ancestors {info : ClassInfo} (hinfo : info ∈ table.classes) :
    ∀ ancestor ∈ table.ancestors info,
      ancestor.info ∈ table.classes ∧ ∀ σ ∈ ancestor.path, σ.Over names := by
  have hnil : ∀ σ ∈ ([] : List Substitution), σ.Over names := fun _ hσ =>
    absurd hσ List.not_mem_nil
  refine @forall_mem_ancestors table (fun ty path => ty.Over names ∧ ∀ σ ∈ path, σ.Over names) _
    ?_ info ⟨hinfo, hnil⟩ fun sup hsup => ⟨(hover info hinfo).supertypes sup hsup, hnil⟩
  rintro name args path found ⟨hargs, hpath⟩ hfound
  have hfound := mem_of_find? hfound
  have hpath : ∀ σ ∈ found.argumentsFor args :: path, σ.Over names := List.forall_mem_cons.mpr
    ⟨ClassInfo.over_argumentsFor (hover found hfound) (Ty.over_named_iff.mp hargs), hpath⟩
  exact ⟨⟨hfound, hpath⟩, fun sup hsup => ⟨(hover found hfound).supertypes sup hsup, hpath⟩⟩

/-- Fields, inherited ones included, are over the names. -/
theorem over_of_mem_allFields {info : ClassInfo} (hinfo : info ∈ table.classes)
    {field : FieldInfo Ty} (hfield : field ∈ table.allFields info) : field.type.Over names := by
  obtain ⟨ancestor, hancestor, hfield⟩ := List.mem_flatMap.mp hfield
  obtain ⟨declared, hdeclared, rfl⟩ := List.mem_map.mp hfield
  obtain ⟨hmem, hpath⟩ := over_of_mem_ancestors hover hinfo ancestor hancestor
  exact Ty.Over.foldl_subst hpath ((hover _ hmem).fields declared hdeclared)

end

/-! ## declarations -/

section

variable {decls decls' : List ClassDecl}

/-- A scope has only names of parameters that are declared. -/
theorem mem_typeParameters_of_mem_scopeOf {decl : ClassDecl} (hdecl : decl ∈ decls) {n : String}
    (hn : n ∈ scopeOf decls decl) : n ∈ decls.flatMap (·.typeParameters) := by
  obtain hn | hn := List.mem_append.mp hn
  · exact List.mem_flatMap.mpr ⟨decl, hdecl, hn⟩
  · obtain ⟨outer, _, hn⟩ := List.mem_flatMap.mp hn
    obtain ⟨decl, hdecl, _, hn⟩ := exists_decl_of_mem_parametersOf hn
    exact List.mem_flatMap.mpr ⟨decl, hdecl, hn⟩

/-- Types that are read in a class are over the parameters of all classes. -/
theorem over_of_readType {decl : ClassDecl} (hdecl : decl ∈ decls) {place : TypePlace}
    {text : String} {ty : Ty}
    (h : readType (Declarations.of decls).lookup (scopeOf decls decl) place text = .ok ty) :
    ty.Over (decls.flatMap (·.typeParameters)) := by
  obtain ⟨term, _, rfl⟩ := readType_eq_ok_iff.mp h
  exact fun n hn => mem_typeParameters_of_mem_scopeOf hdecl (TypeTerm.params_resolve _ _ term n hn)

/-- The classes of a table have only names of parameters that are declared. -/
theorem over_of_build {table : ClassTable} (h : build decls = .ok table) :
    ∀ info ∈ table.classes, info.Over (decls.flatMap (·.typeParameters)) := by
  intro info hinfo
  obtain ⟨decl, hdecl, hread⟩ := exists_decl_of_mem h hinfo
  obtain ⟨supertypes, fields, hsup, hfields, rfl⟩ := readClass_eq_ok_iff.mp hread
  constructor
  · exact fun n hn => List.mem_flatMap.mpr ⟨decl, hdecl, hn⟩
  · intro sup hsupertype
    obtain ⟨_, _, hread⟩ := exists_left_of_forall₂ hsup hsupertype
    exact over_of_readType hdecl hread
  · intro field hfield
    obtain ⟨_, _, hread⟩ := exists_left_of_forall₂ hfields hfield
    obtain ⟨ty, hty, _, rfl⟩ := readField_eq_ok_iff.mp hread
    exact over_of_readType hdecl hty

variable {owner : ClassDecl} {ρ : String → String}

/-- If no other class has an old name, the old names keep the new ones apart. -/
theorem keepsApart_oldName (h : Renaming owner ρ decls decls')
    (hnodup : (decls.map (·.name)).Nodup) (hunshared : ∀ decl ∈ decls, decl.name ≠ owner.name →
      ∀ n ∈ owner.typeParameters, n ∉ decl.typeParameters) :
    KeepsApart (oldName owner ρ) (decls'.flatMap (·.typeParameters)) := by
  have hcases : ∀ m ∈ decls'.flatMap (·.typeParameters),
      (oldName owner ρ m ∈ owner.typeParameters ∧ ρ (oldName owner ρ m) = m) ∨
        (oldName owner ρ m = m ∧ m ∉ owner.typeParameters) := by
    intro m hm
    obtain ⟨decl', hdecl', hm⟩ := List.mem_flatMap.mp hm
    obtain ⟨decl, hdecl, hrenamed⟩ := exists_left_of_forall₂ h.renamed hdecl'
    rw [hrenamed.typeParameters] at hm
    by_cases hname : decl.name = owner.name
    · rw [if_pos hname, List.inj_on_of_nodup_map hnodup hdecl h.declared hname] at hm
      obtain ⟨n, hn, rfl⟩ := List.mem_map.mp hm
      rw [oldName_new h hn]
      exact .inl ⟨hn, rfl⟩
    · rw [if_neg hname] at hm
      refine .inr ⟨oldName_of_forall_ne fun n hn heq => ?_, fun hown => ?_⟩
      · exact h.param n hn decl hdecl hname (heq ▸ hm)
      · exact hunshared decl hdecl hname m hown hm
  intro n hn m hm heq
  obtain ⟨hn, hnew⟩ | ⟨hn, hnot⟩ := hcases n hn
  · obtain ⟨_, hnew'⟩ | ⟨hm, hnot⟩ := hcases m hm
    · rw [← hnew, ← hnew', heq]
    · rw [heq, hm] at hn
      exact absurd hn hnot
  · obtain ⟨hm, _⟩ | ⟨hm, _⟩ := hcases m hm
    · rw [← heq, hn] at hm
      exact absurd hm hnot
    · rw [← hn, ← hm, heq]

end

end ClassTable

/-! ## places -/

namespace Sampler

/-- What an argument stands for is over the names. -/
theorem over_concrete {ty : Ty} (hty : ty.Over names) {env : Environment Ty}
    (henv : env.Over names) {found : Ty} (hfound : concrete env ty = some found) :
    found.Over names := by
  cases ty with
  | param n => exact henv.resolve hfound
  | primitive | array | named | wildcard | bounded =>
      cases hfound
      exact hty

theorem over_foldl_push (frames : List (String × Option Ty))
    (hframes : ∀ frame ∈ frames, frame.1 ∈ names ∧ ∀ ty, frame.2 = some ty → ty.Over names)
    {env : Environment Ty} (henv : env.Over names) :
    (frames.foldl (fun inner frame => inner.push frame.1 frame.2) env).Over names := by
  induction frames generalizing env with
  | nil => exact henv
  | cons frame frames ih =>
      refine ih (fun frame hframe => hframes frame (List.mem_cons_of_mem _ hframe)) ?_
      exact List.forall_mem_cons.mpr ⟨hframes frame List.mem_cons_self, henv⟩

variable {s : Sampler} {ty : Ty} {env : Environment Ty}
  (hover : ∀ info ∈ s.table.classes, info.Over names)

include hover

/-- The layer of a class has only names of the table. -/
theorem over_environmentFor (hty : ty.Over names) (henv : env.Over names) :
    (s.environmentFor ty env).Over names := by
  rw [environmentFor_eq_foldl]
  cases hclass : s.table.classOf? ty with
  | none => exact henv
  | some info =>
      obtain ⟨name, args, rfl⟩ : ∃ name args, ty = .named name args := by
        cases ty with
        | named name args => exact ⟨name, args, rfl⟩
        | primitive | array | param | wildcard | bounded => contradiction
      have hinfo := hover info (ClassTable.mem_of_find? hclass)
      refine over_foldl_push _ (fun frame hframe => ?_) henv
      unfold argumentsIn at hframe
      split at hframe
      · next given hgiven =>
          rw [ClassInfo.givenArguments, Option.ite_none_right_eq_some] at hgiven
          cases hgiven.2
          obtain ⟨hn, hfound⟩ := List.of_mem_zip hframe
          obtain ⟨arg, harg, heq⟩ := List.mem_map.mp hfound
          refine ⟨hinfo.typeParameters _ hn, fun found hsome => ?_⟩
          exact over_concrete (Ty.over_named_iff.mp hty arg harg) henv (heq.trans hsome)
      · obtain ⟨n, hn, rfl⟩ := List.mem_map.mp hframe
        exact ⟨hinfo.typeParameters n hn, fun _ hsome => by contradiction⟩

/-- So have the types that are looked into. -/
theorem over_of_mem_parts (hty : ty.Over names) (henv : env.Over names) {part : Ty}
    (hpart : part ∈ (s.plan env ty).parts) : part.Over names := by
  obtain ⟨item, rfl, rfl⟩ | ⟨n, rfl, hfound⟩ | ⟨name, args, rfl, hfrom⟩ := mem_parts_plan hpart
  · rw [Ty.Over, Ty.params_component]
    exact hty
  · exact henv.resolve hfound
  · obtain hmem | ⟨info, hinfo, field, hfield, rfl⟩ := hfrom
    · exact Ty.over_named_iff.mp hty part hmem
    · exact ClassTable.over_of_mem_allFields hover (ClassTable.mem_of_find? hinfo) hfield

/-- **Names that are kept apart** are not mixed up. -/
theorem unmixed_of_over (hapart : KeepsApart u names) (hty : ty.Over names)
    (henv : env.Over names) (htoken : s.TokenUnmixed u ty env) : s.Unmixed u ty env := by
  have hunmixed {n : String} (hn : n ∈ names) : env.Unmixed u n :=
    Environment.unmixed_of_over hapart henv hn
  constructor
  · rintro n rfl
    exact hunmixed (hty n (List.mem_singleton_self n))
  · intro info hinfo _ n hn
    cases ty with
    | named name args =>
        exact hunmixed (Ty.over_named_iff.mp hty _ hn n (List.mem_singleton_self n))
    | primitive | array | param | wildcard | bounded => contradiction
  · intro info hinfo ancestor hancestor field hfield _
    have hmem : info ∈ s.table.classes := by
      cases ty with
      | named name args => exact ClassTable.mem_of_find? hinfo
      | primitive | array | param | wildcard | bounded => contradiction
    obtain ⟨hinfo, hpath⟩ := ClassTable.over_of_mem_ancestors hover hmem ancestor hancestor
    exact Ty.unmixedAlong_of_over hapart hpath ((hover _ hinfo).fields field hfield)
  · exact htoken

/-! ## runs -/

variable {registry : Registry}

/-- The class tokens of a run show no parameter that gets another name. -/
def TokensUnmixed (s : Sampler) (registry : Registry) (u : String → String) (left : Nat) (ty : Ty)
    (outer : Environment Ty) : Prop :=
  s.Along registry (fun left ty outer => left ≠ 0 → registry.answer? ty = none →
    s.TokenUnmixed u ty outer) left ty outer

/-- **Runs over the names**: where the renaming keeps the names apart, only
class tokens can show a difference. -/
theorem unmixedRun_of_over (hapart : KeepsApart u names) {left : Nat} (hty : ty.Over names)
    (henv : env.Over names) (htokens : s.TokensUnmixed registry u left ty env) :
    s.UnmixedRun registry u left ty env := by
  induction left generalizing ty env with
  | zero => exact fun hzero => absurd rfl hzero
  | succ left ih =>
      refine ⟨fun hleft hanswer => ?_, fun hanswer part hpart => ?_⟩
      · exact unmixed_of_over hover hapart hty henv (htokens.here hleft hanswer)
      · have hinner := over_environmentFor hover hty henv
        exact ih (over_of_mem_parts hover hty hinner hpart) hinner (htokens.part hanswer hpart)

end Sampler

end

end Exemplar
