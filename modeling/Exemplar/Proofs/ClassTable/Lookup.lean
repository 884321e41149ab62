import Exemplar.Proofs.ClassTable.Build
import Exemplar.Proofs.Json.Entries
import Mathlib.Data.List.Nodup
import Mathlib.Data.List.Perm.Basic

/-!
# Exemplar.Proofs.ClassTable.Lookup

Looking up class names.  While a table is made, a simple name is looked up in
an index of all names; the names of a finished table are gone through up to
the second hit.  Both ways answer by one rule (`Knows`): a class is declared if
its name is one of the names, and a simple name is found if exactly one of the
names has it.  The rule leaves only one answer, which does not depend on the
order of the names.

* `namesOf_ofNames` — the index has all names with a simple name;
* `onlyHit?_eq_some_iff` — the search finds the only name with a simple name;
* `Knows.eq_of_perm` — there is only one way to know the same names;
* `qualify_eq_iff` — what a name stands for, said of the names alone;
* `lookup_of` — the index answers like the search;
* `lookup_of_build` — declarations and their table know the same.
-/

namespace Exemplar

/-- A lookup knows class names: a class is declared if its name is one of them,
and a simple name is found if exactly one of them has it. -/
structure NameLookup.Knows (known : NameLookup) (names : List String) : Prop where
  isDeclared_iff : ∀ name, known.isDeclared name = true ↔ name ∈ names
  bySimpleName?_eq_some_iff : ∀ simple name, known.bySimpleName? simple = some name ↔
    names.filter (simpleName · = simple) = [name]

namespace NameLookup.Knows

variable {known known' : NameLookup} {names names' : List String}

/-- A class that is found by its simple name is one of the classes, and has
that simple name. -/
theorem mem_of_bySimpleName? (h : known.Knows names) {simple name : String}
    (hfound : known.bySimpleName? simple = some name) :
    name ∈ names ∧ simpleName name = simple := by
  have hfilter := (h.bySimpleName?_eq_some_iff simple name).mp hfound
  have hmem : name ∈ names.filter (simpleName · = simple) :=
    hfilter ▸ List.mem_singleton_self name
  simpa using List.mem_filter.mp hmem

/-- What is known of names does not depend on their order. -/
theorem perm (h : known.Knows names) (hperm : names.Perm names') : known.Knows names' where
  isDeclared_iff name := (h.isDeclared_iff name).trans hperm.mem_iff
  bySimpleName?_eq_some_iff simple name := by
    rw [h.bySimpleName?_eq_some_iff, ← List.perm_singleton, ← List.perm_singleton]
    exact (hperm.filter _).congr_left [name]

/-- **There is only one way** to know the same names, in whatever order. -/
theorem eq_of_perm (h : known.Knows names) (h' : known'.Knows names')
    (hperm : names.Perm names') : known = known' := by
  have hknown := h.perm hperm
  ext name
  · rw [Bool.eq_iff_iff, hknown.isDeclared_iff, h'.isDeclared_iff]
  · rw [hknown.bySimpleName?_eq_some_iff, h'.bySimpleName?_eq_some_iff]

end NameLookup.Knows

/-! ## what names stand for -/

/-- The only one of the names with a simple name. -/
def IsOnlyHit (names : List String) (simple name : String) : Prop :=
  name ∈ names ∧ simpleName name = simple ∧
    ∀ other ∈ names, simpleName other = simple → other = name

/-- Among different names, the hits are one name alone if it is the only hit. -/
theorem filter_eq_singleton_iff {names : List String} (hnodup : names.Nodup)
    {simple name : String} :
    names.filter (simpleName · = simple) = [name] ↔ IsOnlyHit names simple name := by
  rw [← List.perm_singleton,
    List.perm_ext_iff_of_nodup (hnodup.filter _) (List.nodup_singleton name)]
  simp only [List.mem_filter, List.mem_singleton, decide_eq_true_iff]
  constructor
  · intro h
    obtain ⟨hmem, hsimple⟩ := (h name).mpr rfl
    exact ⟨hmem, hsimple, fun other hother hsame => (h other).mp ⟨hother, hsame⟩⟩
  · rintro ⟨hmem, hsimple, honly⟩ other
    exact ⟨fun h => honly other h.1 h.2, fun h => h ▸ ⟨hmem, hsimple⟩⟩

/-- The class that a name stands for among class names, by the first meaning
that the name has: the class of a name with a dot, a class of `java.lang`, the
only class with the simple name, and the name itself. -/
inductive StandsFor (names : List String) (name : String) : String → Prop where
  | dotted : '.' ∈ name.toList → StandsFor names name name
  | javaLang : '.' ∉ name.toList → "java.lang." ++ name ∈ names ∨ name ∈ javaLangNames →
      StandsFor names name ("java.lang." ++ name)
  | simple {found : String} : '.' ∉ name.toList →
      ¬ ("java.lang." ++ name ∈ names ∨ name ∈ javaLangNames) → IsOnlyHit names name found →
      StandsFor names name found
  | itself : '.' ∉ name.toList → ¬ ("java.lang." ++ name ∈ names ∨ name ∈ javaLangNames) →
      (∀ found, ¬ IsOnlyHit names name found) → StandsFor names name name

section

variable {known : NameLookup} {names : List String} {name : String}

/-- The order of meanings, where the two ways to be in `java.lang` are one case. -/
theorem qualify_eq_ite (hknown : known.Knows names) (name : String) :
    qualify known name =
      if '.' ∈ name.toList then name
      else if "java.lang." ++ name ∈ names ∨ name ∈ javaLangNames then "java.lang." ++ name
      else (known.bySimpleName? name).getD name := by
  simp only [qualify, Bool.cond_eq_ite, Bool.or_eq_true, decide_eq_true_eq, hknown.isDeclared_iff]

/-- **What a name stands for** follows from the names alone, if they are known
and different from each other. -/
theorem qualify_eq_iff (hknown : known.Knows names) (hnodup : names.Nodup) {target : String} :
    qualify known name = target ↔ StandsFor names name target := by
  have hfound (found : String) :
      known.bySimpleName? name = some found ↔ IsOnlyHit names name found :=
    (hknown.bySimpleName?_eq_some_iff name found).trans (filter_eq_singleton_iff hnodup)
  rw [qualify_eq_ite hknown]
  constructor
  · rintro rfl
    split
    · next hdot => exact .dotted hdot
    · next hdot =>
        split
        · next hlang => exact .javaLang hdot hlang
        · next hlang =>
            cases hsimple : known.bySimpleName? name with
            | some found => exact .simple hdot hlang ((hfound found).mp hsimple)
            | none =>
                refine .itself hdot hlang fun found honly => ?_
                rw [← hfound, hsimple] at honly
                contradiction
  · intro h
    cases h with
    | dotted hdot => rw [if_pos hdot]
    | javaLang hdot hlang => rw [if_neg hdot, if_pos hlang]
    | simple hdot hlang honly =>
        rw [if_neg hdot, if_neg hlang, (hfound _).mpr honly, Option.getD_some]
    | itself hdot hlang hnone =>
        have hsimple : known.bySimpleName? name = none :=
          Option.eq_none_iff_forall_ne_some.mpr fun found h => hnone found ((hfound found).mp h)
        rw [if_neg hdot, if_neg hlang, hsimple, Option.getD_none]

end

/-! ## the index -/

namespace SimpleNames

/-- Adding a name puts it behind the other names with its simple name. -/
theorem namesOf_add (index : SimpleNames) (name simple : String) :
    (index.add name).namesOf simple =
      index.namesOf simple ++ if simpleName name = simple then [name] else [] := by
  rw [namesOf, add, Json.entry?_insertEntry]
  by_cases h : simpleName name = simple
  · rw [if_pos h, if_pos h, h]
  · rw [if_neg h, if_neg h, List.append_nil, namesOf]

theorem namesOf_foldl_add (names : List String) (index : SimpleNames) (simple : String) :
    (names.foldl add index).namesOf simple =
      index.namesOf simple ++ names.filter (simpleName · = simple) := by
  induction names generalizing index with
  | nil => exact (List.append_nil _).symm
  | cons name names ih =>
      rw [List.foldl_cons, ih, namesOf_add, List.append_assoc]
      by_cases h : simpleName name = simple <;> simp [h]

/-- **The index** has all the names with a simple name, in order. -/
theorem namesOf_ofNames (names : List String) (simple : String) :
    (ofNames names).namesOf simple = names.filter (simpleName · = simple) :=
  namesOf_foldl_add names ⟨[]⟩ simple

/-- One entry is unique when it is the whole list of hits. -/
theorem unique?_eq_some_iff {index : SimpleNames} {simple name : String} :
    index.unique? simple = some name ↔ index.namesOf simple = [name] := by
  rw [unique?, namesOf]
  match Json.entry? index.hits simple with
  | none => simp
  | some [] => simp
  | some [found] => simp
  | some (_ :: _ :: _) => simp

end SimpleNames

/-! ## the search -/

section

variable {simple name : String} {names rest : List String}

/-- The scan finds nothing when there is no hit. -/
theorem nextHit?_eq_none_iff :
    nextHit? simple names = none ↔ names.filter (simpleName · = simple) = [] := by
  induction names with
  | nil => simp [nextHit?]
  | cons first names ih =>
      rw [nextHit?]
      by_cases h : simpleName first = simple <;> simp [h, ih]

/-- The hits behind the first one are those among the names behind it. -/
theorem filter_of_nextHit? (h : nextHit? simple names = some (name, rest)) :
    names.filter (simpleName · = simple) = name :: rest.filter (simpleName · = simple) := by
  induction names with
  | nil => contradiction
  | cons first names ih =>
      rw [nextHit?] at h
      by_cases hfirst : simpleName first = simple
      · rw [if_pos hfirst] at h
        cases h
        exact List.filter_cons_of_pos (decide_eq_true hfirst)
      · rw [if_neg hfirst] at h
        rw [List.filter_cons_of_neg (by simpa using hfirst), ih h]

/-- **The search** finds the only name with a simple name. -/
theorem onlyHit?_eq_some_iff :
    onlyHit? names simple = some name ↔ names.filter (simpleName · = simple) = [name] := by
  rw [onlyHit?]
  split
  · next hnone => simp [nextHit?_eq_none_iff.mp hnone]
  · next first rest hfirst =>
      rw [filter_of_nextHit? hfirst]
      split
      · next hnone => simp [nextHit?_eq_none_iff.mp hnone]
      · next second hsecond => simp [filter_of_nextHit? hsecond]

/-- The lookup by search knows the names that it goes through. -/
theorem NameLookup.knows_ofNames (names : List String) : (ofNames names).Knows names where
  isDeclared_iff _ := decide_eq_true_iff
  bySimpleName?_eq_some_iff _ _ := onlyHit?_eq_some_iff

end

namespace ClassTable

/-! ## declarations and tables -/

/-- The lookup among declarations knows their names. -/
theorem knows_of (decls : List ClassDecl) :
    (Declarations.of decls).lookup.Knows (decls.map (·.name)) where
  isDeclared_iff name := by
    show decls.any (·.name = name) = true ↔ _
    rw [List.any_eq_true, List.mem_map]
    simp
  bySimpleName?_eq_some_iff simple name := by
    rw [← SimpleNames.namesOf_ofNames, ← SimpleNames.unique?_eq_some_iff]
    rfl

section

variable {decls decls' : List ClassDecl} {table : ClassTable}

/-- **The index answers like the search** among the names of the declarations. -/
theorem lookup_of (decls : List ClassDecl) :
    (Declarations.of decls).lookup = .ofNames (decls.map (·.name)) :=
  (knows_of decls).eq_of_perm (NameLookup.knows_ofNames _) (.refl _)

/-- Declarations of the same names know the same, in whatever order. -/
theorem lookup_of_perm (h : (decls.map (·.name)).Perm (decls'.map (·.name))) :
    (Declarations.of decls).lookup = (Declarations.of decls').lookup :=
  (knows_of decls).eq_of_perm (knows_of decls') h

/-- **The two lookups agree**: a finished table knows what the declarations know
that it is made of. -/
theorem lookup_of_build (hbuild : build decls = .ok table) :
    (Declarations.of decls).lookup = table.lookup := by
  rw [lookup_of, lookup, names_of_build hbuild]

end

end ClassTable

end Exemplar
