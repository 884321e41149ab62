import Exemplar.Proofs.ClassTable.BuildRename
import Exemplar.Proofs.Sampler.Field
import Exemplar.Proofs.Sampler.Unshared

/-!
# Exemplar.Proofs.Sampler.Parameters

The names of the type parameters of a class.  Declarations with other names
for them make a table with the same samples, if no name is mixed up with
another on the way: whatever a name finds in a run in the renamed table, its
old name has to find there, too.

* `sample_eq_of_renaming` — a root type in both tables;
* `sample_eq_of_unshared` — nothing is mixed up if no other class has an old
  name;
* `sample_ne_of_renaming` — an old name that is mixed up with that of a
  library class.

A type argument that a container holds is looked up inside the layer of the
container, although it is written outside of it.  There an old name can be the
name of a parameter of the container.
-/

namespace Exemplar

namespace Sampler

open ClassTable

section

variable {decls decls' : List ClassDecl} {owner : ClassDecl} {ρ : String → String}
  {registry : Registry}

/-- A name that changes has no rule, before or after. -/
theorem rule?_eq_none_of_oldName_ne (hrule : ∀ n ∈ owner.typeParameters,
      registry.rule? (rawName n) = none ∧ registry.rule? (rawName (ρ n)) = none) {m : String}
    (hm : oldName owner ρ m ≠ m) : registry.rule? (rawName m) = none ∧
      registry.rule? (rawName (oldName owner ρ m)) = none := by
  rw [oldName] at hm ⊢
  cases hfind : owner.typeParameters.find? (ρ · = m) with
  | none =>
      rw [hfind] at hm
      exact absurd rfl hm
  | some n =>
      have hnew : ρ n = m := by simpa using List.find?_some hfind
      have hnone := hrule n (List.mem_of_find?_eq_some hfind)
      rw [hnew] at hnone
      exact ⟨hnone.2, hnone.1⟩

/-- **Names of type parameters**: with new names for the type parameters of a
class, declarations still make a table, which reads each root text as the same
type.  A root type has the same sample in both tables, with every registry of
fixed values that has no rule for an old or a new name, if no name is mixed up
on the way. -/
theorem sample_eq_of_renaming {table : ClassTable} (h : Renaming owner ρ decls decls')
    (hbuild : build decls = .ok table) : ∃ table', build decls' = .ok table' ∧
      ∀ text, table'.readRoot text = table.readRoot text ∧
        ∀ ty, table.readRoot text = .ok ty → ∀ visibility registry, registry.IsFixed →
          (∀ n ∈ owner.typeParameters,
            registry.rule? (rawName n) = none ∧ registry.rule? (rawName (ρ n)) = none) →
          (Sampler.mk table' visibility).UnmixedRun registry (oldName owner ρ) maxDepth ty .empty →
          ((Sampler.mk table visibility).sample ty).run registry =
            ((Sampler.mk table' visibility).sample ty).run registry := by
  obtain ⟨table', hbuild', rfl⟩ := exists_build_of_renaming h hbuild
  have hnames : (table'.rename (oldName owner ρ)).names = table'.names := by
    rw [names_of_build hbuild, names_of_build hbuild', names_renaming h.renamed]
  refine ⟨table', hbuild', fun text => ⟨by rw [readRoot, readRoot, lookup, lookup, hnames], ?_⟩⟩
  intro ty hty visibility registry hfixed hrule hrun
  have hsame := run_sample_rename hfixed (fun _ => rule?_eq_none_of_oldName_ne hrule)
    (closed_of_readRoot hty) hrun
  exact hsame.symm

/-- **Names that no other class has**: new names for the type parameters of a
class make no difference in any run, if no other class has one of the old
names.  Only a class token may then show a name. -/
theorem sample_eq_of_unshared {table : ClassTable} (h : Renaming owner ρ decls decls')
    (hbuild : build decls = .ok table) (hunshared : ∀ decl ∈ decls, decl.name ≠ owner.name →
      ∀ n ∈ owner.typeParameters, n ∉ decl.typeParameters) :
    ∃ table', build decls' = .ok table' ∧ ∀ text ty, table.readRoot text = .ok ty →
      ∀ visibility registry, registry.IsFixed →
        (∀ n ∈ owner.typeParameters,
          registry.rule? (rawName n) = none ∧ registry.rule? (rawName (ρ n)) = none) →
        (Sampler.mk table' visibility).TokensUnmixed registry (oldName owner ρ) maxDepth ty .empty →
        ((Sampler.mk table visibility).sample ty).run registry =
          ((Sampler.mk table' visibility).sample ty).run registry := by
  obtain ⟨table', hbuild', rfl⟩ := exists_build_of_renaming h hbuild
  refine ⟨table', hbuild', fun text ty hty visibility registry hfixed hrule htokens => ?_⟩
  have hclosed := closed_of_readRoot hty
  have hapart := keepsApart_oldName h (build_eq_ok_iff.mp hbuild).1.2 hunshared
  have hrun := @unmixedRun_of_over _ _ ⟨table', visibility⟩ _ _ (over_of_build hbuild') registry
    hapart maxDepth (hclosed.over _) (fun _ hframe => by contradiction) htokens
  exact (run_sample_rename hfixed (fun _ => rule?_eq_none_of_oldName_ne hrule) hclosed hrun).symm

end

/-! ## a class with a map -/

/-- A class that holds a map in terms of its two parameters. -/
def entriesDecl (k v type : String) : ClassDecl where
  name := "Entries"
  kind := .ordinary
  typeParameters := [k, v]
  extended := []
  implemented := []
  enumConstants := []
  fields := [⟨"entries", type, false, none, []⟩]

def entriesInfo (k v key value : String) : ClassInfo where
  name := "Entries"
  simpleName := "Entries"
  kind := .ordinary
  typeParameters := [k, v]
  supertypes := []
  enumConstants := []
  fields := [⟨"entries", .named "java.util.Map" [.param key, .param value], none, [], false⟩]
  enclosing := none

/-- The declarations of maps and of the class. -/
def entriesDecls (k v type : String) : List ClassDecl :=
  [libraryClass "java.util.Map" .interface ["K", "V"] [] [], entriesDecl k v type]

/-- Other letters for keys and values. -/
def otherLetter (n : String) : String := if n = "K" then "X" else "Y"

/-- The class with other letters in its texts is a renaming of the class. -/
theorem renaming_entries {type type' key value : String}
    (htype : TypeTerm.parse type =
      .ok (.named "java.util.Map" [.named key [], .named value []]))
    (htype' : TypeTerm.parse type' =
      .ok (.named "java.util.Map" [.named (otherLetter key) [], .named (otherLetter value) []]))
    (hkey : key ∈ ["K", "V"]) (hvalue : value ∈ ["K", "V"])
    (howner : ∀ n ∈ ["K", "V"], ownerOf? (entriesDecls "K" "V" type) (entriesDecl "K" "V" type) n =
      some "Entries") :
    Renaming (entriesDecl "K" "V" type) otherLetter (entriesDecls "K" "V" type)
      (entriesDecls "X" "Y" type') := by
  have hother : ∀ n ∈ ["K", "V"], otherLetter n ∉ primitiveNames ∧ otherLetter n ∉ ["K", "V"] ∧
      ∀ m ∈ ["K", "V"], otherLetter n = otherLetter m → n = m := by decide
  have hnew : ∀ n ∈ ["K", "V"], newName (entriesDecls "K" "V" type)
      (entriesDecl "K" "V" type) otherLetter (entriesDecl "K" "V" type) n = otherLetter n :=
    fun n hn => if_pos ⟨(by decide : ∀ n ∈ ["K", "V"], n ∉ primitiveNames) n hn, howner n hn⟩
  refine ⟨List.mem_cons_of_mem _ List.mem_cons_self, fun n hn => (hother n hn).2.2,
    fun n hn => (hother n hn).1, ?_, ?_, ?_⟩
  · intro n hn decl hdecl hne
    obtain rfl | hdecl := List.mem_cons.mp hdecl
    · exact (hother n hn).2.1
    · exact absurd (congrArg ClassDecl.name (List.mem_singleton.mp hdecl)) hne
  · intro n _ decl hdecl text htext term hterm m hm hnot
    obtain rfl | hdecl := List.mem_cons.mp hdecl
    · contradiction
    · rw [List.mem_singleton.mp hdecl] at htext hnot
      rw [List.mem_singleton.mp htext, htype, Except.ok.injEq] at hterm
      subst hterm
      have hmem : m ∈ ["K", "V"] := by
        obtain rfl | hm := List.mem_cons.mp hm
        · exact hkey
        · exact List.mem_singleton.mp hm ▸ hvalue
      exact absurd (howner m hmem) hnot
  · refine .cons ⟨rfl, rfl, rfl, .nil, .nil, rfl, .nil⟩ (.cons ⟨rfl, rfl, rfl, .nil, .nil, rfl,
      .cons ⟨rfl, ?_, rfl, rfl, rfl⟩ .nil⟩ .nil)
    refine ⟨_, htype, htype'.trans ?_⟩
    rw [← hnew key hkey, ← hnew value hvalue]
    rfl

/-- The table of maps and of the class. -/
abbrev entriesTable (k v key value : String) : ClassTable :=
  ⟨[mapInfo, entriesInfo k v key value]⟩

theorem readRoot_entries (k v key value : String) :
    (entriesTable k v key value).readRoot "Entries<A,B>" =
      .ok (.named "Entries" [letterA, letterB]) := by
  have hnames : (entriesTable k v key value).names = ["java.util.Map", "Entries"] := rfl
  rw [readRoot, lookup, hnames]
  decide +kernel

section

variable {s : Sampler} {k v key value : String}
  (hentries : s.table.find? "Entries" = some (entriesInfo k v key value))
  (hmap : s.table.find? "java.util.Map" = some mapInfo)

include hentries

theorem environmentFor_entries : s.environmentFor (.named "Entries" [letterA, letterB]) .empty =
    ⟨[(v, some letterB), (k, some letterA)]⟩ := by
  have hclass : s.table.classOf? (.named "Entries" [letterA, letterB]) =
    some (entriesInfo k v key value) := hentries
  rw [environmentFor_eq_foldl, hclass]
  rfl

/-- The entries are an object with a map in it. -/
theorem plan_entries (env : Environment Ty) (args : List Ty) :
    s.plan env (.named "Entries" args) = .object
      [⟨"entries", .named "java.util.Map" [.param key, .param value], none, [], false⟩] := by
  have hcont : s.table.containerOf? "Entries" 2 = none := by simp [containerOf?, libraryOrigin]
  have hkind : (entriesInfo k v key value).kind ≠ .enumeration := by simp [entriesInfo]
  rw [plan_of_object hentries (firstConstant?_eq_none s hkind) hcont,
    allFields_of_supertypes_eq_nil rfl]
  rfl

omit hentries in
include hmap in
theorem plan_map (env : Environment Ty) (arg arg' : Ty) :
    s.plan env (.named "java.util.Map" [arg, arg']) = .map arg' :=
  plan_of_container hmap (firstConstant?_eq_none s (by decide)) (containerOf?_map s.table) env _

include hmap

/-- The value of the entry is what its parameter is inside of the map. -/
theorem run_sample_entries {found : Ty} {json : Json}
    (hvalue : (s.environmentFor (.named "java.util.Map" [.param key, .param value])
      ⟨[(v, some letterB), (k, some letterA)]⟩).resolve value = some found)
    (hrule : letters.rule? (rawName value) = none) (hanswer : letters.answer? found = some json) :
    (s.sample (.named "Entries" [letterA, letterB])).run letters =
      (some (.object [("entries", .object [(mapKey, json)])]), letters) := by
  have hparam : letters.answer? (.param value) = none :=
    Registry.answer?_eq_none_of_rule? (by rw [Ty.rawName_text_param, hrule])
  have hnone : letters.answer? (.named "java.util.Map" [.param key, .param value]) = none := by
    refine Registry.answer?_eq_none_of_rule? ?_
    rw [Ty.rawName_text_named _ (List.cons_ne_nil _ _)]
    rfl
  refine run_sampleAt_of_field isFixed_letters (by rfl) (plan_entries hentries _ _) rfl rfl ?_
  rw [environmentFor_entries hentries]
  exact run_sampleAt_of_map isFixed_letters hnone (plan_map hmap _ _ _)
    ((run_sampleAt_param s isFixed_letters hparam hvalue 197).trans
      (run_sampleAt_of_answer? s isFixed_letters hanswer 196 _))

end

/-- No name is mixed up in a map from keys to values. -/
theorem unmixedRun_entries : (Sampler.mk (entriesTable "X" "Y" "X" "Y") .full).UnmixedRun letters
    (oldName (entriesDecl "K" "V" "java.util.Map<K,V>") otherLetter) maxDepth
    (.named "Entries" [letterA, letterB]) .empty := by
  generalize hs : Sampler.mk (entriesTable "X" "Y" "X" "Y") .full = s
  have hentries : s.table.find? "Entries" = some (entriesInfo "X" "Y" "X" "Y") := hs ▸ rfl
  have hmap : s.table.find? "java.util.Map" = some mapInfo := hs ▸ rfl
  refine .of_plan (fun _ _ => unmixed_of_supertypes_eq_nil hentries rfl (by simp) rfl)
    (plan_entries hentries _ _) fun part hpart => ?_
  rw [List.mem_singleton.mp hpart, environmentFor_entries hentries]
  refine .of_plan (fun _ _ => unmixed_of_supertypes_eq_nil hmap rfl (fun n hn => ?_) rfl)
    (plan_map hmap _ _ _) fun part hpart => ?_
  · obtain ⟨rfl⟩ | ⟨rfl⟩ : n = "X" ∨ n = "Y" := by simpa using hn
    · rfl
    · rfl
  · rw [List.mem_singleton.mp hpart]
    have hclass : s.table.classOf? (.named "java.util.Map" [.param "X", .param "Y"]) =
      some mapInfo := hmap
    rw [environmentFor_eq_foldl, hclass]
    -- the layer of the map has the old name, too, but for the same type
    refine .of_param (fun _ _ => unmixed_param rfl) (by rfl)
      (.of_answer? (fun _ hnone => ?_) answer?_b)
    rw [answer?_b] at hnone
    contradiction

/-- The entries of a map from keys to values are the same with other letters. -/
theorem sample_entries_eq :
    Renaming (entriesDecl "K" "V" "java.util.Map<K,V>") otherLetter
      (entriesDecls "K" "V" "java.util.Map<K,V>") (entriesDecls "X" "Y" "java.util.Map<X,Y>") ∧
    build (entriesDecls "K" "V" "java.util.Map<K,V>") = .ok (entriesTable "K" "V" "K" "V") ∧
    build (entriesDecls "X" "Y" "java.util.Map<X,Y>") = .ok (entriesTable "X" "Y" "X" "Y") ∧
    ((Sampler.mk (entriesTable "K" "V" "K" "V") .full).sample
        (.named "Entries" [letterA, letterB])).run letters =
      ((Sampler.mk (entriesTable "X" "Y" "X" "Y") .full).sample
        (.named "Entries" [letterA, letterB])).run letters := by
  have hrenaming : Renaming (entriesDecl "K" "V" "java.util.Map<K,V>") otherLetter
      (entriesDecls "K" "V" "java.util.Map<K,V>") (entriesDecls "X" "Y" "java.util.Map<X,Y>") :=
    @renaming_entries _ _ "K" "V" (by decide +kernel) (by decide +kernel) (by decide) (by decide)
      (by decide +kernel)
  have hbuild : build (entriesDecls "K" "V" "java.util.Map<K,V>") =
      .ok (entriesTable "K" "V" "K" "V") := by decide +kernel
  have hbuild' : build (entriesDecls "X" "Y" "java.util.Map<X,Y>") =
      .ok (entriesTable "X" "Y" "X" "Y") := by decide +kernel
  obtain ⟨table', htable', hsame⟩ := sample_eq_of_renaming hrenaming hbuild
  rw [hbuild', Except.ok.injEq] at htable'
  subst htable'
  exact ⟨hrenaming, hbuild, hbuild', (hsame "Entries<A,B>").2 _ (readRoot_entries _ _ _ _) .full
    letters isFixed_letters (by decide +kernel) unmixedRun_entries⟩

/-- **A name that is mixed up**: the entries of a map from values to keys are
other ones with other letters, as the first parameter of the map has the name
of the second argument. -/
theorem sample_ne_of_renaming :
    Renaming (entriesDecl "K" "V" "java.util.Map<V,K>") otherLetter
      (entriesDecls "K" "V" "java.util.Map<V,K>") (entriesDecls "X" "Y" "java.util.Map<Y,X>") ∧
    build (entriesDecls "K" "V" "java.util.Map<V,K>") = .ok (entriesTable "K" "V" "V" "K") ∧
    build (entriesDecls "X" "Y" "java.util.Map<Y,X>") = .ok (entriesTable "X" "Y" "Y" "X") ∧
    ((Sampler.mk (entriesTable "K" "V" "V" "K") .full).sample
        (.named "Entries" [letterA, letterB])).run letters ≠
      ((Sampler.mk (entriesTable "X" "Y" "Y" "X") .full).sample
        (.named "Entries" [letterA, letterB])).run letters := by
  refine ⟨@renaming_entries _ _ "V" "K" (by decide +kernel) (by decide +kernel) (by decide)
    (by decide) (by decide +kernel), by decide +kernel, by decide +kernel, ?_⟩
  rw [@run_sample_entries ⟨entriesTable "K" "V" "V" "K", .full⟩ "K" "V" "V" "K" rfl rfl letterB
      _ rfl rfl answer?_b,
    @run_sample_entries ⟨entriesTable "X" "Y" "Y" "X", .full⟩ "X" "Y" "Y" "X" rfl rfl letterA
      _ rfl rfl answer?_a]
  intro heq
  have hvalue := congrArg Prod.fst heq
  simp at hvalue

end Sampler

end Exemplar
