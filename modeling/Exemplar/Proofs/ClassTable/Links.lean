import Exemplar.Proofs.ClassTable.Enclosing
import Exemplar.Proofs.ClassTable.Lookup
import Mathlib.Data.List.TakeWhile

/-!
# Exemplar.Proofs.ClassTable.Links

Following links.  Two walks lead from a class outwards: its texts are read in
the scope that is found by going from name to name, each time to the longest
declared prefix, and a class token is put together by going from class to class
along the links that the classes keep.  Each step of the first one cuts a name
at its last dot until a declared name is left.  Every step makes the name
shorter, so both walks end, and they meet the same classes: those whose names
are declared prefixes, each once and the longest first.

* `Walk` — the values that links lead to;
* `walk_beforeLastDot?` — cutting at the last dot meets all dotted prefixes;
* `walk_enclosingName?`, `walk_enclosing?` — the walks over names and classes;
* `enclosingClasses_declaredPrefixes` — what they meet.
-/

namespace Exemplar

/-! ## walks -/

/-- From a value on links are followed until there is none; these are the
values that they lead to, in order. -/
inductive Walk {α : Type} (next : α → Option α) : α → List α → Prop where
  | stop {a : α} : next a = none → Walk next a []
  | step {a b : α} {rest : List α} : next a = some b → Walk next b rest → Walk next a (b :: rest)

/-- What every link says of its two ends, a walk says of any two values. -/
theorem Walk.pairwise {α : Type} {next : α → Option α} {R : α → α → Prop} [IsTrans α R]
    (hnext : ∀ a b, next a = some b → R a b) {a : α} {values : List α} (h : Walk next a values) :
    (a :: values).Pairwise R := by
  induction h with
  | stop => exact List.pairwise_singleton R _
  | @step a b rest hlink _ ih =>
      have hab := hnext a b hlink
      refine List.pairwise_cons.mpr ⟨fun c hc => ?_, ih⟩
      obtain rfl | hc := List.mem_cons.mp hc
      · exact hab
      · exact IsTrans.trans _ _ _ hab ((List.pairwise_cons.mp ih).1 c hc)

/-! ## names -/

/-- What stands before the last dot of a name. -/
def beforeLastDot? (name : String) : Option String :=
  match name.toList.reverse.dropWhile (· ≠ '.') with
  | [] => none
  | _ :: before => some (String.ofList before.reverse)

/-- A name without points has nothing before its last one. -/
theorem beforeLastDot?_eq_none {name : String} (h : '.' ∉ name.toList) :
    beforeLastDot? name = none := by
  have hall : name.toList.reverse.dropWhile (· ≠ '.') = [] := by
    refine List.dropWhile_eq_nil_iff.mpr fun c hc => decide_eq_true ?_
    rintro rfl
    exact h (List.mem_reverse.mp hc)
  simp only [beforeLastDot?, hall]

theorem beforeLastDot?_eq_some {name : String} {before last : List Char}
    (hname : name.toList = before ++ '.' :: last) (h : '.' ∉ last) :
    beforeLastDot? name = some (String.ofList before) := by
  have hlast : ∀ c ∈ last.reverse, decide (c ≠ '.') = true := by
    intro c hc
    refine decide_eq_true ?_
    rintro rfl
    exact h (List.mem_reverse.mp hc)
  have hcut : name.toList.reverse.dropWhile (· ≠ '.') = '.' :: before.reverse := by
    rw [hname, List.reverse_append, List.reverse_cons, List.append_assoc, List.singleton_append,
      List.dropWhile_append_of_pos hlast, List.dropWhile_cons_of_neg (by decide)]
  simp only [beforeLastDot?, hcut, List.reverse_reverse]

/-- **Cutting at the last dot**, again and again, meets all dotted prefixes. -/
theorem walk_beforeLastDot? (name : String) : Walk beforeLastDot? name (dottedPrefixes name) := by
  induction hn : name.toList.length using Nat.strongRecOn generalizing name with
  | ind n ih =>
      by_cases hdot : '.' ∈ name.toList
      · obtain ⟨before, last, hname, hlast, hall⟩ := exists_last_dot hdot
        have hshort : (String.ofList before).toList.length < n := by
          rw [← hn, hname, String.toList_ofList, List.length_append, List.length_cons]
          omega
        have hprefixes : dottedPrefixes name =
            String.ofList before :: dottedPrefixes (String.ofList before) := by
          rw [dottedPrefixes, hall, List.map_cons, dottedPrefixes, String.toList_ofList]
        rw [hprefixes]
        exact .step (beforeLastDot?_eq_some hname hlast) (ih _ hshort _ rfl)
      · rw [dottedPrefixes, dottedPrefixChars_eq_nil hdot, List.map_nil]
        exact .stop (beforeLastDot?_eq_none hdot)

/-- The first name is longer than the second one. -/
def Longer (name other : String) : Prop := other.length < name.length

instance : IsTrans String Longer := ⟨fun _ _ _ h h' => Nat.lt_trans h' h⟩

/-- A name is longer than its prefixes. -/
theorem longer_of_mem_dottedPrefixes {p name : String} (h : p ∈ dottedPrefixes name) :
    Longer name p := by
  have hlength := (mem_dottedPrefixes.mp h).length_le
  rw [List.length_append, List.length_singleton] at hlength
  exact hlength

section

variable {names : List String} {name : String}

/-- **The walk over names**: from declared prefix to declared prefix. -/
theorem walk_enclosingName? (names : List String) (name : String) :
    Walk (enclosingName? names) name (enclosingNames names name) := by
  induction hn : (enclosingNames names name).length generalizing name with
  | zero =>
      rw [List.eq_nil_of_length_eq_zero hn]
      refine .stop (Option.eq_none_iff_forall_ne_some.mpr fun outer houter => ?_)
      rw [enclosingNames_of_eq_some houter] at hn
      contradiction
  | succ n ih =>
      cases houter : enclosingName? names name with
      | none =>
          rw [enclosingNames_of_eq_none houter] at hn
          contradiction
      | some outer =>
          rw [enclosingNames_of_eq_some houter] at hn ⊢
          exact .step houter (ih outer (Nat.succ.inj hn))

/-- Its names are shorter and shorter. -/
theorem pairwise_longer_enclosingNames (names : List String) (name : String) :
    (enclosingNames names name).Pairwise Longer :=
  ((walk_enclosingName? names name).pairwise fun _ _ h =>
    longer_of_mem_dottedPrefixes (mem_of_enclosingName? h).2).of_cons

/-- The enclosing names are the prefixes that are names. -/
theorem mem_enclosingNames_iff {outer : String} :
    outer ∈ enclosingNames names name ↔ outer ∈ names ∧ outer ∈ dottedPrefixes name := by
  rw [enclosingNames, List.mem_filter, decide_eq_true_iff, and_comm]

end

namespace ClassTable

/-! ## classes -/

section

variable {decls : List ClassDecl} {table : ClassTable} {info : ClassInfo}
  (hbuild : build decls = .ok table)

include hbuild

/-- **The walk over classes**: the links are followed to their end. -/
theorem walk_enclosing? : ∀ info ∈ table.classes,
    Walk table.enclosing? info (table.enclosingClasses info) := by
  refine enclosing_induction hbuild ?_ ?_
  · intro info hinfo hnone
    rw [enclosingClasses_of_eq_none hbuild hinfo hnone]
    exact .stop hnone
  · intro info hinfo outer _ houter ih
    rw [enclosingClasses_of_eq_some hbuild hinfo houter]
    exact .step houter ih

/-- Both walks meet the same classes. -/
theorem map_name_enclosingClasses (hinfo : info ∈ table.classes) :
    (table.enclosingClasses info).map (·.name) = enclosingNames table.names info.name := by
  rw [enclosingClasses_eq hbuild hinfo]
  have hdeclared : ∀ outer ∈ enclosingNames table.names info.name, outer ∈ table.names :=
    fun outer houter => (mem_enclosingNames_iff.mp houter).1
  generalize enclosingNames table.names info.name = names at hdeclared
  induction names with
  | nil => rfl
  | cons outer rest ih =>
      obtain ⟨houter, hrest⟩ := List.forall_mem_cons.mp hdeclared
      obtain ⟨found, hfound, rfl⟩ := List.mem_map.mp houter
      rw [List.filterMap_cons_some (find?_name_of_mem hbuild hfound), List.map_cons, ih hrest]

/-- The classes around a class are those whose names are dotted prefixes. -/
theorem mem_enclosingClasses_iff (hinfo : info ∈ table.classes) {outer : ClassInfo} :
    outer ∈ table.enclosingClasses info ↔
      outer ∈ table.classes ∧ outer.name ∈ dottedPrefixes info.name := by
  rw [enclosingClasses_eq hbuild hinfo, List.mem_filterMap]
  constructor
  · rintro ⟨name, hname, hfound⟩
    rw [← name_of_find? hfound] at hname
    exact ⟨mem_of_find? hfound, (mem_enclosingNames_iff.mp hname).2⟩
  · rintro ⟨houter, hprefix⟩
    refine ⟨outer.name, mem_enclosingNames_iff.mpr ⟨?_, hprefix⟩, find?_name_of_mem hbuild houter⟩
    exact List.mem_map_of_mem houter

end

/-- All type texts of a declaration are read in a scope. -/
structure ReadIn (known : NameLookup) (scope : List String) (decl : ClassDecl)
    (info : ClassInfo) : Prop where
  supertypes : List.Forall₂ (fun text ty =>
    readType known scope (.supertype decl.name) text = .ok ty)
    (decl.extended ++ decl.implemented) info.supertypes
  fields : List.Forall₂ (fun field read => readField known scope decl.name field = .ok read)
    decl.fields info.fields

/-- **The classes around a class**: the links from it end, and they lead to the
declared classes whose names are proper dotted prefixes of its name, each once,
the longest one first; no matter which parts between them are not declared.
The walk over names, which finds the scope, meets the same classes, and the
texts of the class are read in the scope of its own type parameters and theirs,
in this order. -/
theorem enclosingClasses_declaredPrefixes {decls : List ClassDecl} {table : ClassTable}
    {info : ClassInfo} (hbuild : build decls = .ok table) (hinfo : info ∈ table.classes) :
    Walk table.enclosing? info (table.enclosingClasses info) ∧
    (∀ outer, outer ∈ table.enclosingClasses info ↔
      outer ∈ table.classes ∧ outer.name.toList ++ ['.'] <+: info.name.toList) ∧
    ((table.enclosingClasses info).map (·.name)).Pairwise Longer ∧
    Walk (enclosingName? table.names) info.name ((table.enclosingClasses info).map (·.name)) ∧
    (∃ cuts, Walk beforeLastDot? info.name cuts ∧
      (table.enclosingClasses info).map (·.name) = cuts.filter (· ∈ table.names)) ∧
    ∃ decl ∈ decls, decl.name = info.name ∧ ReadIn table.lookup
      (info.typeParameters ++ (table.enclosingClasses info).flatMap (·.typeParameters))
      decl info := by
  have hnames := map_name_enclosingClasses hbuild hinfo
  refine ⟨walk_enclosing? hbuild info hinfo, fun outer => ?_, ?_, ?_, ?_, ?_⟩
  · rw [mem_enclosingClasses_iff hbuild hinfo, mem_dottedPrefixes]
  · rw [hnames]
    exact pairwise_longer_enclosingNames table.names info.name
  · rw [hnames]
    exact walk_enclosingName? table.names info.name
  · exact ⟨_, walk_beforeLastDot? info.name, hnames⟩
  · obtain ⟨decl, hdecl, hread⟩ := exists_decl_of_mem hbuild hinfo
    have hscope := scopeOf_eq_scope hbuild hinfo hread
    obtain ⟨supertypes, fields, hsup, hfields, hinfo⟩ := readClass_eq_ok_iff.mp hread
    rw [hscope, lookup_of_build hbuild] at hsup hfields
    have hsupertypes : info.supertypes = supertypes := by rw [hinfo]
    have hfieldInfos : info.fields = fields := by rw [hinfo]
    exact ⟨decl, hdecl, (name_of_readClass hread).symm, hsupertypes ▸ hsup, hfieldInfos ▸ hfields⟩

/-! ### a class in a class -/

/-- A class, one in it, and one in that with an undeclared part between. -/
def linkDecls : List ClassDecl :=
  [libraryClass "a.Outer" .ordinary ["T"] [] [],
    libraryClass "a.Outer.Inner" .ordinary ["U"] [] [],
    libraryClass "a.Outer.Inner.Gap.Leaf" .ordinary ["V"] ["Outer<U>"] []]

def linkOuter : ClassInfo := ⟨"a.Outer", "Outer", .ordinary, ["T"], [], [], [], none⟩

def linkInner : ClassInfo :=
  ⟨"a.Outer.Inner", "Inner", .ordinary, ["U"], [], [], [], some "a.Outer"⟩

def linkLeaf : ClassInfo :=
  ⟨"a.Outer.Inner.Gap.Leaf", "Leaf", .ordinary, ["V"], [.named "a.Outer" [.param "U"]], [], [],
    some "a.Outer.Inner"⟩

/-- The classes of the declarations. -/
def linkTable : ClassTable := ⟨[linkOuter, linkInner, linkLeaf]⟩

/-- The undeclared part is passed over, and the supertype is read in the scope
of all three classes. -/
theorem enclosingClasses_linkLeaf :
    build linkDecls = .ok linkTable ∧ linkLeaf ∈ linkTable.classes ∧
      Walk linkTable.enclosing? linkLeaf [linkInner, linkOuter] ∧
      Walk (enclosingName? linkTable.names) linkLeaf.name ["a.Outer.Inner", "a.Outer"] ∧
      ∃ decl ∈ linkDecls, decl.name = "a.Outer.Inner.Gap.Leaf" ∧
        ReadIn linkTable.lookup ["V", "U", "T"] decl linkLeaf := by
  have hbuild : build linkDecls = .ok linkTable := by decide +kernel
  have hleaf : linkLeaf ∈ linkTable.classes := by simp [linkTable]
  obtain ⟨hwalk, _, _, hnames, _, hread⟩ := enclosingClasses_declaredPrefixes hbuild hleaf
  have hchain : linkTable.enclosingClasses linkLeaf = [linkInner, linkOuter] := by rfl
  rw [hchain] at hwalk hnames hread
  exact ⟨hbuild, hleaf, hwalk, hnames, hread⟩

end ClassTable

end Exemplar
