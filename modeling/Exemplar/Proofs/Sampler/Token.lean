import Exemplar.Proofs.ClassTable.Enclosing
import Exemplar.Proofs.ClassTable.Prelude
import Exemplar.Proofs.Registry.Rules
import Exemplar.Proofs.Sampler.Container
import Exemplar.Proofs.Sampler.Fixed
import Exemplar.Proofs.TypeTerm.Grammar

/-!
# Exemplar.Proofs.Sampler.Token

Class tokens.  The sample of a class token is a text that names a type.  Where
there is one is decided by the type as it is written, before a parameter is
replaced by what it stands for: a wildcard has no token, but a parameter that
stands for a wildcard has one.

A class is named by its text, and a nested class by the class around it and its
simple name with a dollar sign between them.  The class around a class is that
of its longest declared prefix, so parts of its name that are not declared are
left out.

* `run_sampleAt_tokenType` — the sample of a class token;
* `sampleAt_token_param_iff` — the token of a parameter;
* `tokenName_of_eq_some`, `dotted_tokenName` — the name of a nested class;
* `tokenSample_of_class` — tokens of classes;
* `exists_token_not_named` — classes that their tokens do not name.
-/

namespace Exemplar

/-! ## samples of class tokens -/

namespace ClassTable

/-- The class of class tokens is the built-in one in every table of documents. -/
theorem exists_find?_class {documents : List Document} {table : ClassTable}
    (hbuild : ofDocuments documents = .ok table) :
    ∃ info, table.find? "java.lang.Class" = some info ∧ info.kind = .ordinary ∧
      info.typeParameters = ["T"] ∧ info.supertypes = [] := by
  let decl : ClassDecl := libraryClass "java.lang.Class" .ordinary ["T"] [] []
  have hdecl : decl ∈ preludeClasses ++ documents.flatMap (·.classes) :=
    List.mem_append_left _ (by simp [decl, preludeClasses])
  obtain ⟨info, hfound, hread⟩ := exists_class_of_mem hbuild hdecl
  refine ⟨info, hfound, ?_⟩
  obtain ⟨supertypes, _, hsupertypes, _, rfl⟩ := readClass_eq_ok_iff.mp hread
  exact ⟨rfl, rfl, List.forall₂_nil_left_iff.mp hsupertypes⟩

end ClassTable

namespace Registry

theorem lookup_congr {text text' : String} (h : rawName text = rawName text') :
    lookup text = lookup text' := by
  rw [lookup, lookup, h]

end Registry

namespace Sampler

open ClassTable

/-- The type of class tokens for a type. -/
def tokenType (target : Ty) : Ty := .named "java.lang.Class" [target]

section

variable {documents : List Document} {s : Sampler}
  (hbuild : ofDocuments documents = .ok s.table)

include hbuild

/-- A class token is a value by itself. -/
theorem plan_tokenType (env : Environment Ty) (target : Ty) :
    s.plan env (tokenType target) = .value (s.sampleToken env target) := by
  obtain ⟨info, hfind, hkind, hparams, hsup⟩ := exists_find?_class hbuild
  have hcont : s.table.containerOf? "java.lang.Class" info.typeParameters.length =
      some .classToken := by
    rw [hparams]
    exact containerOf?_class hfind hsup
  have hconst : s.firstConstant? info = none := firstConstant?_eq_none s (by rw [hkind]; decide)
  exact plan_of_container hfind hconst hcont env [target]

/-- A class token has its own sample, if no rule stands before it. -/
theorem sampleAt_tokenType (left : Nat) (target : Ty) (env : Environment Ty) :
    s.sampleAt (left + 1) (tokenType target) env =
      orElse (tokenType target) (return s.sampleToken env target) := by
  rw [sampleAt_succ, plan_tokenType hbuild]
  rfl

/-- Without a rule for class tokens, they are sampled as such. -/
theorem run_sampleAt_tokenType {registry : Registry}
    (hrule : registry.rule? "java.lang.Class" = none) (left : Nat) (target : Ty)
    (env : Environment Ty) :
    (s.sampleAt (left + 1) (tokenType target) env).run registry =
      (s.sampleToken env target, registry) := by
  have hraw : rawName (tokenType target).text = "java.lang.Class" :=
    (Ty.rawName_text_named "java.lang.Class" (List.cons_ne_nil target [])).trans (by decide)
  rw [sampleAt_tokenType hbuild, orElse, StateT.run_bind,
    Registry.run_lookup_of_eq_none (hraw.symm ▸ hrule)]
  rfl

/-! ## tokens of parameters -/

/-- **A class token of a parameter** is the class token of the closed type that
the parameter stands for exactly if this is not a wildcard: a wildcard has no
class token, but a parameter that stands for one has. -/
theorem sampleAt_token_param_iff {env : Environment Ty} {n : String} {ty : Ty}
    (hbound : env.resolve n = some ty) (hclosed : ty.Closed) (left : Nat) :
    s.sampleAt (left + 1) (tokenType (.param n)) (s.environmentFor (tokenType (.param n)) env) =
        s.sampleAt (left + 1) (tokenType ty) (s.environmentFor (tokenType ty) env) ↔
      ty.isWildcard = false := by
  obtain ⟨info, hfind, _, hparams, _⟩ := exists_find?_class hbuild
  have hparam : s.sampleToken (s.environmentFor (tokenType (.param n)) env) (.param n) =
      some (.string (s.binaryName ty)) := by
    have hconcrete : concrete (s.environmentFor (tokenType (.param n)) env) (.param n) = some ty :=
      (concrete_environmentFor_singleton hfind (by rw [hparams]; rfl)).trans hbound
    rw [sampleToken_eq_ite, hconcrete]
    rfl
  have hty : s.sampleToken (s.environmentFor (tokenType ty) env) ty =
      if ty.isWildcard then none else some (.string (s.binaryName ty)) := by
    rw [sampleToken_eq_ite, concrete_of_closed hclosed, Option.getD_some]
  constructor
  · intro heq
    -- without rules the samples are the tokens themselves
    have hrule : (∅ : Registry).rule? "java.lang.Class" = none := rfl
    have hrun := run_sampleAt_tokenType hbuild hrule left (.param n)
      (s.environmentFor (tokenType (.param n)) env)
    rw [heq, run_sampleAt_tokenType hbuild hrule, hparam, hty] at hrun
    cases hwild : ty.isWildcard with
    | true =>
        rw [hwild, if_pos rfl] at hrun
        cases hrun
    | false => rfl
  · intro hwild
    have hlookup : Registry.lookup (tokenType (.param n)).text =
        Registry.lookup (tokenType ty).text :=
      Registry.lookup_congr (Ty.rawName_text_named_congr _ rfl)
    rw [sampleAt_tokenType hbuild, sampleAt_tokenType hbuild, hparam, hty, hwild, orElse, orElse,
      hlookup]
    rfl

end

/-- A parameter that stands for a class has the token of the class, and one
that stands for a wildcard has not the token of a wildcard. -/
theorem sampleAt_token_param_bound : ∃ s : Sampler, ofDocuments [] = .ok s.table ∧
    let string : Ty := .named "java.lang.String" []
    let token (bound ty : Ty) : Sampling := s.sampleAt 9 (tokenType ty)
      (s.environmentFor (tokenType ty) (Environment.empty.bind "T" bound))
    (Environment.empty.bind "T" string).resolve "T" = some string ∧ string.Closed ∧
      token string (.param "T") = token string string ∧
      token .wildcard (.param "T") ≠ token .wildcard .wildcard := by
  obtain ⟨table, hbuild⟩ : ∃ table, ofDocuments [] = .ok table :=
    exists_ofDocuments_iff.mpr ⟨fun _ h => absurd h List.not_mem_nil, List.nodup_nil⟩
  have hbound : ∀ ty : Ty, (Environment.empty.bind "T" ty).resolve "T" = some ty := fun ty =>
    Environment.resolve_push_self .empty "T" (some ty)
  refine ⟨⟨table, .full⟩, hbuild, hbound _, by decide, ?_, fun heq => ?_⟩
  · exact (sampleAt_token_param_iff hbuild (hbound _) (by decide) 8).mpr rfl
  · exact Bool.noConfusion ((sampleAt_token_param_iff hbuild (hbound _) (by decide) 8).mp heq)

/-! ## names of nested classes -/

/-- A name with dots in the place of dollar signs. -/
def dotted (name : String) : String :=
  String.ofList (name.toList.map fun c => if c = '$' then '.' else c)

/-- A name without type arguments behind it. -/
def beforeArguments (name : String) : String := String.ofList (name.toList.takeWhile (· ≠ '<'))

theorem dotted_append (a b : String) : dotted (a ++ b) = dotted a ++ dotted b := by
  simp [dotted]

theorem dotted_of_not_mem {name : String} (h : '$' ∉ name.toList) : dotted name = name := by
  have hmap : name.toList.map (fun c => if c = '$' then '.' else c) = name.toList.map id := by
    refine List.map_congr_left fun c hc => if_neg ?_
    rintro rfl
    exact h hc
  rw [dotted, hmap, List.map_id, String.ofList_toList]

theorem beforeArguments_of_not_mem {name : String} (h : '<' ∉ name.toList) :
    beforeArguments name = name := by
  rw [beforeArguments, ← nameChars, nameChars_of_not_mem h, String.ofList_toList]

/-- What stands before the arguments is the name of the class. -/
theorem beforeArguments_text {name : String} (h : '<' ∉ name.toList) (args : List Ty) :
    beforeArguments (Ty.named name args).text = name := by
  rw [beforeArguments, ← nameChars, Ty.nameChars_text, nameChars, ← beforeArguments,
    beforeArguments_of_not_mem h]

section

variable {documents : List Document} {table : ClassTable} {info outer : ClassInfo}
  (hbuild : ofDocuments documents = .ok table)

/-- The name of a class in class tokens. -/
def tokenName (table : ClassTable) (info : ClassInfo) (args : List Ty) : String :=
  (Sampler.mk table .full).binaryName (.named info.name args)

include hbuild

/-- A class that is nested in no other one is named by its text. -/
theorem tokenName_of_eq_none (hinfo : info ∈ table.classes) (hnone : table.enclosing? info = none)
    (args : List Ty) : tokenName table info args = (Ty.named info.name args).text := by
  refine binaryName_of_enclosing_eq_none (find?_name_of_mem hbuild hinfo) ?_
  rw [enclosing_eq_of_mem hbuild hinfo, (enclosing?_eq_none_iff hbuild hinfo).mp hnone]

/-- **The name of a nested class** is that of the class around it, a dollar
sign and its simple name. -/
theorem tokenName_of_eq_some (hinfo : info ∈ table.classes)
    (houter : table.enclosing? info = some outer) (args : List Ty) :
    tokenName table info args = tokenName table outer [] ++ "$" ++ info.simpleName := by
  have hmem := ((enclosing?_eq_some_iff hbuild hinfo).mp houter).1
  have hfound : table.classOf? (.named info.name args) = some info :=
    find?_name_of_mem hbuild hinfo
  have hfound' : table.classOf? (.named outer.name []) = some outer :=
    find?_name_of_mem hbuild hmem
  simp only [tokenName, binaryName, hfound, hfound',
    enclosingClasses_of_eq_some hbuild hinfo houter, List.reverse_cons]
  -- the outermost class is the one around this one, or the outermost one of that
  cases (table.enclosingClasses outer).reverse with
  | nil =>
      rw [Ty.text_named_nil]
      simp [outermostName, Visibility.full, String.append_assoc]
  | cons outermost middle => simp [String.append_assoc]

theorem lt_not_mem_of_mem (hinfo : info ∈ table.classes) : '<' ∉ info.name.toList := by
  intro hmem
  obtain ⟨decl, hdecl, hread⟩ := exists_decl_of_mem hbuild hinfo
  have hqualified := (build_eq_ok_iff.mp hbuild).1.1 decl hdecl
  rw [← name_of_readClass hread] at hqualified
  have hpart := (TypeTerm.qualifiedName_toList.mpr hqualified).isNamePart '<' hmem
  exact absurd hpart (by decide)

/-- **The class of a token**: without a gap in the name of a class its name in
class tokens has its own name behind the dollar signs. -/
theorem dotted_tokenName : ∀ info ∈ table.classes, table.Unbroken info →
    '$' ∉ info.name.toList → dotted (tokenName table info []) = info.name := by
  refine enclosing_induction hbuild ?_ ?_
  · intro info hinfo hnone _ hdollar
    rw [tokenName_of_eq_none hbuild hinfo hnone, Ty.text_named_nil, dotted_of_not_mem hdollar]
  · intro info hinfo outer hmem houter ih hunbroken hdollar
    -- the class around this one is named by all that stands before the simple name
    have hname := hunbroken.name_eq hbuild hinfo houter
    have hnot : '$' ∉ outer.name.toList ∧ '$' ∉ info.simpleName.toList := by
      rw [hname] at hdollar
      simp at hdollar
      tauto
    rw [tokenName_of_eq_some hbuild hinfo houter, dotted_append, dotted_append,
      ih (hunbroken.of_enclosing? hbuild hinfo houter) hnot.1, dotted_of_not_mem hnot.2]
    exact hname.symm

/-- A nested class has the same name with any arguments. -/
theorem tokenName_eq_nil (hinfo : info ∈ table.classes) {args : List Ty}
    (h : args = [] ∨ table.enclosing? info ≠ none) :
    tokenName table info args = tokenName table info [] := by
  obtain rfl | hnested := h
  · rfl
  · obtain ⟨outer, houter⟩ := Option.ne_none_iff_exists'.mp hnested
    rw [tokenName_of_eq_some hbuild hinfo houter, tokenName_of_eq_some hbuild hinfo houter]

/-- Arguments stand behind the name of a class, if anywhere. -/
theorem beforeArguments_tokenName (hinfo : info ∈ table.classes) (hunbroken : table.Unbroken info)
    (hdollar : '$' ∉ info.name.toList) (args : List Ty) :
    beforeArguments (tokenName table info args) = tokenName table info [] := by
  have hname := lt_not_mem_of_mem hbuild hinfo
  cases hnone : table.enclosing? info with
  | none =>
      rw [tokenName_of_eq_none hbuild hinfo hnone, tokenName_of_eq_none hbuild hinfo hnone,
        beforeArguments_text hname, Ty.text_named_nil]
  | some outer =>
      rw [tokenName_eq_nil hbuild hinfo (.inr (by rw [hnone]; exact Option.some_ne_none outer))]
      refine beforeArguments_of_not_mem fun hmem => hname ?_
      rw [← dotted_tokenName hbuild info hinfo hunbroken hdollar, dotted, String.toList_ofList]
      exact List.mem_map.mpr ⟨'<', hmem, by decide⟩

/-- The sample of the class token for a class with arguments, with the built-in
rules. -/
def tokenSample (table : ClassTable) (now : ClockReading) (info : ClassInfo) (args : List Ty) :
    Option Json :=
  (((Sampler.mk table .full).sample (tokenType (.named info.name args))).run
    (Registry.builtin now)).1

/-- The sample of a class token is its name. -/
theorem tokenSample_eq (now : ClockReading) (info : ClassInfo) (args : List Ty) :
    tokenSample table now info args = some (.string (tokenName table info args)) := by
  have hrule : (Registry.builtin now).rule? "java.lang.Class" = none :=
    Registry.rule?_builtin_of_not_mem now (by decide)
  rw [tokenSample, sample, maxDepth,
    run_sampleAt_tokenType (s := ⟨table, .full⟩) hbuild hrule 199 (.named info.name args)]
  rfl

/-- **Class tokens name classes**: the sample of the class token for a class,
with any arguments, is a text.  For a class that is nested in no other one it
is the text of the type; without arguments, and for a nested class, it is the
name of the class, with dots in the place of the dollar signs, if no part of
the name is left out.  Two such classes never share a text. -/
theorem tokenSample_of_class (now : ClockReading) :
    (∀ info ∈ table.classes, ∀ args, ∃ token,
      tokenSample table now info args = some (.string token) ∧
      (table.enclosing? info = none → token = (Ty.named info.name args).text) ∧
      ('$' ∉ info.name.toList → table.Unbroken info →
        args = [] ∨ table.enclosing? info ≠ none → dotted token = info.name)) ∧
    ∀ info ∈ table.classes, '$' ∉ info.name.toList → table.Unbroken info →
      ∀ info' ∈ table.classes, '$' ∉ info'.name.toList → table.Unbroken info' →
        ∀ args args', tokenSample table now info args = tokenSample table now info' args' →
          info = info' := by
  refine ⟨fun info hinfo args => ⟨_, tokenSample_eq hbuild now info args, fun hnone => ?_,
    fun hdollar hunbroken hargs => ?_⟩, ?_⟩
  · exact tokenName_of_eq_none hbuild hinfo hnone args
  · rw [tokenName_eq_nil hbuild hinfo hargs]
    exact dotted_tokenName hbuild info hinfo hunbroken hdollar
  · intro info hinfo hdollar hunbroken info' hinfo' hdollar' hunbroken' args args' heq
    rw [tokenSample_eq hbuild, tokenSample_eq hbuild, Option.some.injEq, Json.string.injEq] at heq
    have hname : info.name = info'.name := by
      rw [← dotted_tokenName hbuild info hinfo hunbroken hdollar,
        ← dotted_tokenName hbuild info' hinfo' hunbroken' hdollar',
        ← beforeArguments_tokenName hbuild hinfo hunbroken hdollar args, heq,
        beforeArguments_tokenName hbuild hinfo' hunbroken' hdollar']
    have hfound := find?_name_of_mem hbuild hinfo
    rw [hname, find?_name_of_mem hbuild hinfo'] at hfound
    exact (Option.some.inj hfound).symm

end

/-! ### classes in a class -/

/-- A class, a class in it, and one whose name leaves out a part. -/
def outerDecls : List ClassDecl :=
  [libraryClass "a.Outer" .ordinary ["T"] [] [], libraryClass "a.Outer.Inner" .ordinary [] [] [],
    libraryClass "a.Outer.Middle.Inner" .ordinary [] [] []]

/-- The declarations make a table. -/
theorem exists_ofDocuments_outerDecls : ∃ table, ofDocuments [⟨outerDecls⟩] = .ok table :=
  exists_ofDocuments_iff.mpr (by decide +kernel)

section

variable {table : ClassTable} (hbuild : ofDocuments [⟨outerDecls⟩] = .ok table)

include hbuild

theorem names_outerDecls : table.names = (preludeClasses ++ outerDecls).map (·.name) :=
  names_of_build hbuild

theorem exists_info_outerDecls (name : String) (hname : name ∈ outerDecls.map (·.name)) :
    ∃ info ∈ table.classes, info.name = name := by
  obtain ⟨decl, hdecl, rfl⟩ := List.mem_map.mp hname
  obtain ⟨info, hfound⟩ := exists_find?_of_mem hbuild (List.mem_append_right _ hdecl)
  exact ⟨info, mem_of_find? hfound, name_of_find? hfound⟩

end

/-- The token of the inner class is its name. -/
theorem exists_token_inner : ∃ table, ofDocuments [⟨outerDecls⟩] = .ok table ∧
    ∃ info ∈ table.classes, info.name = "a.Outer.Inner" ∧ table.Unbroken info ∧
      table.enclosing? info ≠ none ∧ ∃ token,
        tokenSample table .evening info [.wildcard] = some (.string token) ∧
          dotted token = "a.Outer.Inner" := by
  obtain ⟨table, hbuild⟩ := exists_ofDocuments_outerDecls
  obtain ⟨info, hinfo, hname⟩ := exists_info_outerDecls hbuild "a.Outer.Inner" (by decide)
  have hunbroken : table.Unbroken info := by
    rw [Unbroken, hname, names_outerDecls hbuild]
    decide +kernel
  have hnested : table.enclosing? info ≠ none := by
    rw [Ne, enclosing?_eq_none_iff hbuild hinfo, hname, names_outerDecls hbuild]
    decide +kernel
  obtain ⟨token, htoken, _, hdotted⟩ :=
    (tokenSample_of_class hbuild .evening).1 info hinfo [.wildcard]
  refine ⟨table, hbuild, info, hinfo, hname, hunbroken, hnested, token, htoken, ?_⟩
  rw [hdotted (by rw [hname]; decide) hunbroken (.inr hnested), hname]

/-- **Tokens that name no class**: the token for a class that is nested in no
other one has its arguments, and where a part of a name is left out two classes
have one token. -/
theorem exists_token_not_named : ∃ table, ofDocuments [⟨outerDecls⟩] = .ok table ∧
    (∃ info ∈ table.classes, '$' ∉ info.name.toList ∧ ∃ args token,
      tokenSample table .evening info args = some (.string token) ∧
        dotted token ≠ info.name) ∧
    ∃ info ∈ table.classes, ∃ info' ∈ table.classes, info ≠ info' ∧ '$' ∉ info.name.toList ∧
      '$' ∉ info'.name.toList ∧
      tokenSample table .evening info [] = tokenSample table .evening info' [] := by
  obtain ⟨table, hbuild⟩ := exists_ofDocuments_outerDecls
  have hnames := names_outerDecls hbuild
  obtain ⟨outer, houter, houtername⟩ := exists_info_outerDecls hbuild "a.Outer" (by decide)
  obtain ⟨inner, hinner, hinnername⟩ :=
    exists_info_outerDecls hbuild "a.Outer.Inner" (by decide)
  obtain ⟨deep, hdeep, hdeepname⟩ :=
    exists_info_outerDecls hbuild "a.Outer.Middle.Inner" (by decide)
  have htop : table.enclosing? outer = none := by
    rw [enclosing?_eq_none_iff hbuild houter, houtername, hnames]
    decide +kernel
  -- both links lead to the outer class
  have hlink : ∀ info ∈ table.classes,
      enclosingName? ((preludeClasses ++ outerDecls).map (·.name)) info.name = some "a.Outer" →
      table.enclosing? info = some outer := fun info hinfo h =>
    (enclosing?_eq_some_iff hbuild hinfo).mpr ⟨houter, by rw [hnames, houtername, h]⟩
  have hinnerlink := hlink inner hinner (by rw [hinnername]; decide +kernel)
  have hdeeplink := hlink deep hdeep (by rw [hdeepname]; decide +kernel)
  refine ⟨table, hbuild, ⟨outer, houter, by rw [houtername]; decide, [.wildcard], _,
    tokenSample_eq hbuild _ outer _, ?_⟩, inner, hinner, deep, hdeep, ?_,
    by rw [hinnername]; decide, by rw [hdeepname]; decide, ?_⟩
  · rw [tokenName_of_eq_none hbuild houter htop, houtername]
    decide
  · rintro rfl
    exact absurd (hinnername.symm.trans hdeepname) (by decide)
  · rw [tokenSample_eq hbuild, tokenSample_eq hbuild, tokenName_of_eq_some hbuild hinner hinnerlink,
      tokenName_of_eq_some hbuild hdeep hdeeplink, simpleName_of_mem hbuild hinner,
      simpleName_of_mem hbuild hdeep, hinnername, hdeepname]
    rfl

end Sampler

end Exemplar
