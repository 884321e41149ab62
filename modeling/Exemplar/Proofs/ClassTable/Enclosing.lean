import Exemplar.Proofs.ClassTable.Scope
import Mathlib.Data.List.Perm.Subperm

/-!
# Exemplar.Proofs.ClassTable.Enclosing

The classes around a class.  A class of a built table keeps one link, to its
longest declared prefix.  The prefixes of that prefix are those that come after
it among the prefixes of the class, so that going from link to link meets every
declared prefix, longest first, however many undeclared parts are between them.

* `dottedPrefixes_eq` — the prefixes of a prefix;
* `enclosingNames_of_eq_some` — the declared prefixes by links;
* `enclosingClasses_eq` — the classes around a class;
* `Unbroken.name_eq` — the name of a class with no undeclared part;
* `scope` — the type parameters of a class and of the classes around it, which
  is where its texts are read.
-/

namespace Exemplar

/-! ## prefixes of prefixes -/

/-- The prefixes of a longer name: those that go beyond the point, this one, and
those before it. -/
theorem dottedPrefixChars_append (p rest : List Char) :
    dottedPrefixChars (p ++ '.' :: rest) =
      (dottedPrefixChars rest).map (fun longer => p ++ '.' :: longer) ++
        p :: dottedPrefixChars p := by
  induction p with
  | nil => simp [dottedPrefixChars]
  | cons c p ih =>
      rw [List.cons_append, dottedPrefixChars, ih, dottedPrefixChars, List.map_append,
        List.map_cons, List.map_map, List.append_assoc, List.cons_append]
      rfl

theorem dottedPrefixChars_eq_nil {s : List Char} (h : '.' ∉ s) : dottedPrefixChars s = [] := by
  induction s with
  | nil => rfl
  | cons c rest ih =>
      have hc : c ≠ '.' := fun heq => h (heq ▸ List.mem_cons_self)
      rw [dottedPrefixChars, ih fun hmem => h (List.mem_cons_of_mem c hmem), if_neg hc]
      rfl

theorem nodup_dottedPrefixChars (s : List Char) : (dottedPrefixChars s).Nodup := by
  induction s with
  | nil => exact List.nodup_nil
  | cons c rest ih =>
      rw [dottedPrefixChars, List.nodup_append]
      refine ⟨ih.map (List.cons_injective), by split <;> simp, fun p hp q hq => ?_⟩
      obtain ⟨_, _, rfl⟩ := List.mem_map.mp hp
      split at hq
      · rw [List.mem_singleton.mp hq]
        exact List.cons_ne_nil _ _
      · contradiction

/-- A name has each prefix once. -/
theorem nodup_dottedPrefixes (name : String) : (dottedPrefixes name).Nodup :=
  (nodup_dottedPrefixChars name.toList).map fun _ _ h => String.ofList_injective h

/-- **The prefixes of a prefix** come after it. -/
theorem dottedPrefixes_eq {p name : String} (h : p ∈ dottedPrefixes name) :
    ∃ longer, p ∉ longer ∧ dottedPrefixes name = longer ++ p :: dottedPrefixes p := by
  obtain ⟨rest, hrest⟩ := mem_dottedPrefixes.mp h
  have hname : name.toList = p.toList ++ '.' :: rest := by
    rw [← hrest, List.append_assoc, List.singleton_append]
  have heq : dottedPrefixes name = ((dottedPrefixChars rest).map
      fun longer => p.toList ++ '.' :: longer).map String.ofList ++ p :: dottedPrefixes p := by
    rw [dottedPrefixes, hname, dottedPrefixChars_append, List.map_append, List.map_cons,
      String.ofList_toList, dottedPrefixes]
  refine ⟨_, ?_, heq⟩
  have hnodup := nodup_dottedPrefixes name
  rw [heq, List.nodup_append] at hnodup
  exact fun hmem => hnodup.2.2 p hmem p List.mem_cons_self rfl

/-- The longest prefix ends before the last dot. -/
theorem exists_last_dot {s : List Char} (h : '.' ∈ s) : ∃ before last,
    s = before ++ '.' :: last ∧ '.' ∉ last ∧
      dottedPrefixChars s = before :: dottedPrefixChars before := by
  -- the last dot is the first one from the end
  obtain ⟨last, before, hsplit, hlast⟩ := List.eq_append_cons_of_mem (List.mem_reverse.mpr h)
  have hs : s = before.reverse ++ '.' :: last.reverse := by
    rw [← List.reverse_reverse s, hsplit]
    simp
  have hnot : '.' ∉ last.reverse := fun hmem => hlast (List.mem_reverse.mp hmem)
  refine ⟨before.reverse, last.reverse, hs, hnot, ?_⟩
  rw [hs, dottedPrefixChars_append, dottedPrefixChars_eq_nil hnot, List.map_nil, List.nil_append]

/-- Behind its longest prefix a name has its simple name. -/
theorem exists_eq_append_simpleName {name : String} (h : dottedPrefixes name ≠ []) :
    ∃ p, name = p ++ "." ++ simpleName name ∧ dottedPrefixes name = p :: dottedPrefixes p := by
  have hdot : '.' ∈ name.toList := by
    refine Decidable.not_not.mp fun hnot => h ?_
    rw [dottedPrefixes, dottedPrefixChars_eq_nil hnot]
    rfl
  obtain ⟨before, last, hname, hnot, hall⟩ := exists_last_dot hdot
  have hsimple : simpleName name = String.ofList last := by
    rw [simpleName, segments, hname, splitAtChar_append_separator, splitAtChar_of_not_mem hnot]
    simp
  refine ⟨String.ofList before, ?_, ?_⟩
  · rw [hsimple, ← String.toList_inj]
    simpa using hname
  · rw [dottedPrefixes, hall, List.map_cons, dottedPrefixes, String.toList_ofList]

section

variable {names : List String} {name outer : String}

/-- The enclosing name is one of the names, and a prefix. -/
theorem mem_of_enclosingName? (h : enclosingName? names name = some outer) :
    outer ∈ names ∧ outer ∈ dottedPrefixes name := by
  have hfound := List.find?_some h
  exact ⟨of_decide_eq_true hfound, List.mem_of_find?_eq_some h⟩

theorem enclosingNames_of_eq_none (h : enclosingName? names name = none) :
    enclosingNames names name = [] :=
  List.filter_eq_nil_iff.mpr (List.find?_eq_none.mp h)

/-- **The declared prefixes by links**: the longest one, and then its own. -/
theorem enclosingNames_of_eq_some (h : enclosingName? names name = some outer) :
    enclosingNames names name = outer :: enclosingNames names outer := by
  obtain ⟨houter, hstart⟩ := mem_of_enclosingName? h
  obtain ⟨longer, hnot, heq⟩ := dottedPrefixes_eq hstart
  -- no longer prefix is declared, as that one would have been found
  have hlonger : longer.find? (· ∈ names) = none := by
    cases hfind : longer.find? (· ∈ names) with
    | none => rfl
    | some found =>
        rw [enclosingName?, heq, List.find?_append, hfind, Option.some_or, Option.some.injEq] at h
        exact absurd (h ▸ List.mem_of_find?_eq_some hfind) hnot
  rw [enclosingNames, heq, List.filter_append,
    List.filter_eq_nil_iff.mpr (List.find?_eq_none.mp hlonger), List.nil_append, List.filter_cons,
    if_pos (decide_eq_true houter), enclosingNames]

/-- There are no more declared prefixes than names. -/
theorem length_enclosingNames_le (names : List String) (name : String) :
    (enclosingNames names name).length ≤ names.length := by
  have hnodup : (enclosingNames names name).Nodup := (nodup_dottedPrefixes name).filter _
  refine (hnodup.subperm fun outer houter => ?_).length_le
  exact of_decide_eq_true (List.mem_filter.mp houter).2

end

namespace ClassTable

/-! ## the classes around a class -/

section

variable {decls : List ClassDecl} {table : ClassTable} {info outer : ClassInfo}
  (hbuild : build decls = .ok table)

include hbuild

/-- The link of a class leads to its longest declared prefix. -/
theorem enclosing_eq_of_mem (hinfo : info ∈ table.classes) :
    info.enclosing = enclosingName? table.names info.name := by
  obtain ⟨decl, _, hread⟩ := exists_decl_of_mem hbuild hinfo
  obtain ⟨_, _, _, _, rfl⟩ := readClass_eq_ok_iff.mp hread
  rw [names_of_build hbuild]

/-- The enclosing class is the class of the enclosing name. -/
theorem enclosing?_eq_some_iff (hinfo : info ∈ table.classes) :
    table.enclosing? info = some outer ↔
      outer ∈ table.classes ∧ enclosingName? table.names info.name = some outer.name := by
  rw [enclosing?, enclosing_eq_of_mem hbuild hinfo, Option.bind_eq_some_iff]
  constructor
  · rintro ⟨name, hname, hfound⟩
    exact ⟨mem_of_find? hfound, (name_of_find? hfound).symm ▸ hname⟩
  · exact fun ⟨houter, hname⟩ => ⟨outer.name, hname, find?_name_of_mem hbuild houter⟩

/-- There is a link exactly where there is a declared prefix. -/
theorem enclosing?_eq_none_iff (hinfo : info ∈ table.classes) :
    table.enclosing? info = none ↔ enclosingName? table.names info.name = none := by
  rw [enclosing?, enclosing_eq_of_mem hbuild hinfo, Option.bind_eq_none_iff]
  refine ⟨fun h => ?_, fun h name hname => ?_⟩
  · by_contra hsome
    obtain ⟨name, hname⟩ := Option.ne_none_iff_exists'.mp hsome
    obtain ⟨found, hfound, rfl⟩ := List.mem_map.mp (mem_of_enclosingName? hname).1
    cases (h _ hname).symm.trans (find?_name_of_mem hbuild hfound)
  · cases h.symm.trans hname

/-- With enough steps the walk over links finds the classes of all enclosing
names. -/
theorem enclosingUpTo_eq {fuel : Nat} (hinfo : info ∈ table.classes)
    (hfuel : (enclosingNames table.names info.name).length ≤ fuel) :
    table.enclosingUpTo fuel info =
      (enclosingNames table.names info.name).filterMap table.find? := by
  induction fuel generalizing info with
  | zero =>
      rw [List.eq_nil_of_length_eq_zero (Nat.le_zero.mp hfuel)]
      rfl
  | succ fuel ih =>
      rw [enclosingUpTo]
      cases houter : table.enclosing? info with
      | none =>
          rw [enclosingNames_of_eq_none ((enclosing?_eq_none_iff hbuild hinfo).mp houter)]
          rfl
      | some outer =>
          obtain ⟨hmem, hname⟩ := (enclosing?_eq_some_iff hbuild hinfo).mp houter
          rw [enclosingNames_of_eq_some hname] at hfuel ⊢
          rw [List.filterMap_cons_some (find?_name_of_mem hbuild hmem),
            ← ih hmem (Nat.le_of_succ_le_succ hfuel)]

/-- **The classes around a class** are those of its declared prefixes, the
longest one first. -/
theorem enclosingClasses_eq (hinfo : info ∈ table.classes) :
    table.enclosingClasses info =
      (enclosingNames table.names info.name).filterMap table.find? := by
  refine enclosingUpTo_eq hbuild hinfo ?_
  have hlength := length_enclosingNames_le table.names info.name
  rwa [names, List.length_map] at hlength

theorem enclosingClasses_of_eq_none (hinfo : info ∈ table.classes)
    (h : table.enclosing? info = none) : table.enclosingClasses info = [] := by
  rw [enclosingClasses_eq hbuild hinfo,
    enclosingNames_of_eq_none ((enclosing?_eq_none_iff hbuild hinfo).mp h), List.filterMap_nil]

/-- Around a class are the class of its link and the classes around that one. -/
theorem enclosingClasses_of_eq_some (hinfo : info ∈ table.classes)
    (h : table.enclosing? info = some outer) :
    table.enclosingClasses info = outer :: table.enclosingClasses outer := by
  obtain ⟨houter, hname⟩ := (enclosing?_eq_some_iff hbuild hinfo).mp h
  rw [enclosingClasses_eq hbuild hinfo, enclosingNames_of_eq_some hname,
    List.filterMap_cons_some (find?_name_of_mem hbuild houter), enclosingClasses_eq hbuild houter]

/-- Induction from the outermost class inwards. -/
theorem enclosing_induction {P : ClassInfo → Prop}
    (houtermost : ∀ info ∈ table.classes, table.enclosing? info = none → P info)
    (hinner : ∀ info ∈ table.classes, ∀ outer ∈ table.classes,
      table.enclosing? info = some outer → P outer → P info) :
    ∀ info ∈ table.classes, P info := by
  intro info hinfo
  induction hn : (table.enclosingClasses info).length generalizing info with
  | zero =>
      refine houtermost info hinfo (Option.eq_none_iff_forall_ne_some.mpr fun outer houter => ?_)
      rw [enclosingClasses_of_eq_some hbuild hinfo houter] at hn
      contradiction
  | succ n ih =>
      cases houter : table.enclosing? info with
      | none => exact houtermost info hinfo houter
      | some outer =>
          have hmem := ((enclosing?_eq_some_iff hbuild hinfo).mp houter).1
          rw [enclosingClasses_of_eq_some hbuild hinfo houter] at hn
          exact hinner info hinfo outer hmem houter (ih outer hmem (Nat.succ.inj hn))

end

/-! ## names without gaps -/

/-- No part is left out between a class and those around it: a prefix of the
name with a declared prefix of its own is declared. -/
def Unbroken (table : ClassTable) (info : ClassInfo) : Prop :=
  ∀ p ∈ dottedPrefixes info.name, ∀ outer ∈ dottedPrefixes p, outer ∈ table.names → p ∈ table.names

instance (table : ClassTable) (info : ClassInfo) : Decidable (table.Unbroken info) :=
  inferInstanceAs (Decidable (∀ p ∈ dottedPrefixes info.name, _))

section

variable {decls : List ClassDecl} {table : ClassTable} {info outer : ClassInfo}
  (hbuild : build decls = .ok table) (hinfo : info ∈ table.classes)

include hbuild hinfo

theorem simpleName_of_mem : info.simpleName = simpleName info.name := by
  obtain ⟨decl, _, hread⟩ := exists_decl_of_mem hbuild hinfo
  obtain ⟨_, _, _, _, rfl⟩ := readClass_eq_ok_iff.mp hread
  rfl

variable (houter : table.enclosing? info = some outer)

include houter

/-- Without a gap a class is named by the class around it and its simple name. -/
theorem Unbroken.name_eq (h : table.Unbroken info) :
    info.name = outer.name ++ "." ++ info.simpleName := by
  obtain ⟨hmem, hname⟩ := (enclosing?_eq_some_iff hbuild hinfo).mp houter
  obtain ⟨hdeclared, hprefix⟩ := mem_of_enclosingName? hname
  obtain ⟨p, heq, hall⟩ := exists_eq_append_simpleName (List.ne_nil_of_mem hprefix)
  have hp : p ∈ table.names := by
    rw [hall, List.mem_cons] at hprefix
    obtain rfl | hprefix := hprefix
    · exact hdeclared
    · exact h p (hall ▸ List.mem_cons_self) outer.name hprefix hdeclared
  rw [enclosingName?, hall, List.find?_cons_of_pos (by simpa using hp), Option.some.injEq] at hname
  rw [← hname, simpleName_of_mem hbuild hinfo]
  exact heq

/-- The class around an unbroken one is unbroken. -/
theorem Unbroken.of_enclosing? (h : table.Unbroken info) : table.Unbroken outer := by
  obtain ⟨_, hname⟩ := (enclosing?_eq_some_iff hbuild hinfo).mp houter
  obtain ⟨longer, _, hall⟩ := dottedPrefixes_eq (mem_of_enclosingName? hname).2
  refine fun p hp => h p ?_
  rw [hall]
  exact List.mem_append_right _ (List.mem_cons_of_mem _ hp)

end

/-! ## scopes -/

/-- The type parameters in scope in a class: its own, then those of the classes
around it, the innermost one first. -/
def scope (table : ClassTable) (info : ClassInfo) : List String :=
  info.typeParameters ++ (table.enclosingClasses info).flatMap (·.typeParameters)

section

variable {decls : List ClassDecl} {table : ClassTable} {info : ClassInfo}
  (hbuild : build decls = .ok table)

include hbuild

/-- The class of a name has the type parameters of the declaration. -/
theorem parametersOf_eq (name : String) :
    parametersOf decls name = ((table.find? name).map (·.typeParameters)).getD [] := by
  have hnodup := (build_eq_ok_iff.mp hbuild).1.2
  have hfind : (decls.find? (·.name = name)).map (·.typeParameters) =
      (table.find? name).map (·.typeParameters) := by
    cases hdecl : decls.find? (·.name = name) with
    | some decl =>
        obtain ⟨hmem, rfl⟩ := (find?_key_eq_some_iff hnodup).mp hdecl
        obtain ⟨found, hfound, hread⟩ := exists_class_of_mem hbuild hmem
        obtain ⟨_, _, _, _, rfl⟩ := readClass_eq_ok_iff.mp hread
        rw [hfound]
        rfl
    | none =>
        cases hfound : table.find? name with
        | none => rfl
        | some found =>
            obtain ⟨other, hother, hname, _⟩ := exists_decl_of_find? hbuild hfound
            exact absurd (decide_eq_true hname) (List.find?_eq_none.mp hdecl other hother)
  rw [parametersOf, hfind]

/-- **Where texts are read**: the scope of a declaration is that of its class. -/
theorem scopeOf_eq_scope {decl : ClassDecl} (hinfo : info ∈ table.classes)
    (hread : readClass (.of decls) decl = .ok info) : scopeOf decls decl = table.scope info := by
  have hname := name_of_readClass hread
  have hown : info.typeParameters = decl.typeParameters := by
    obtain ⟨_, _, _, _, rfl⟩ := readClass_eq_ok_iff.mp hread
    rfl
  rw [scopeOf, scope, hown, enclosingClasses_eq hbuild hinfo, hname, names_of_build hbuild]
  congr 1
  induction enclosingNames (decls.map (·.name)) decl.name with
  | nil => rfl
  | cons outer rest ih =>
      rw [List.flatMap_cons, ih, parametersOf_eq hbuild, List.filterMap_cons]
      cases table.find? outer with
      | none => rfl
      | some found => rfl

end

end ClassTable

end Exemplar
