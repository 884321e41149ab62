import Exemplar.Proofs.ClassTable.Lookup
import Exemplar.Proofs.ClassTable.Prelude
import Exemplar.Proofs.ClassTable.Scope
import Exemplar.Proofs.TypeTerm.Parser

/-!
# Exemplar.Proofs.ClassTable.CanonicalText

The canonical text of a type reads back as that type.  Reading settles every
name: a name that is left in a type means itself when it is read again, since
it is primitive, a parameter in scope, or a class name that has a dot or fits
no other class (`qualify_qualify`).  Such types are `Settled`, and they are
exactly the types that are read from some text.

* `Ty.term` — the written type that the canonical text spells;
* `Ty.Settled` — types whose names mean themselves;
* `settled_iff_exists_readType` — these are the types that are read;
* `readType_text` — the canonical text of a type that is read.
-/

namespace Exemplar

/-! ## class names -/

/-- A name without points is its own simple name. -/
theorem simpleName_of_not_mem {name : String} (h : '.' ∉ name.toList) : simpleName name = name := by
  rw [simpleName, segments, splitAtChar_of_not_mem h]
  exact String.ofList_toList

theorem isQualifiedName_javaLang {name : String} (h : isQualifiedName name = true) :
    isQualifiedName ("java.lang." ++ name) = true := by
  have hlang : TypeTerm.QualifiedName
      ("java".toList ++ '.' :: ("lang".toList ++ '.' :: name.toList)) :=
    .dot (by decide) (.dot (by decide) (TypeTerm.qualifiedName_toList.mpr h))
  have htext : "java.lang." ++ name =
      String.ofList ("java".toList ++ '.' :: ("lang".toList ++ '.' :: name.toList)) := by
    rw [← String.toList_inj, String.toList_append]
    simp
  rw [htext]
  exact TypeTerm.qualifiedName_iff.mp hlang

section

variable {known : NameLookup} {names : List String} {name : String}

/-- A name with a dot stands for itself. -/
theorem qualify_of_mem (h : '.' ∈ name.toList) : qualify known name = name := if_pos h

/-- A name without a dot stands for itself or for a name with one. -/
theorem qualify_eq_or_mem (hknown : known.Knows names) (name : String) :
    qualify known name = name ∨ '.' ∈ (qualify known name).toList := by
  rw [qualify_eq_ite hknown]
  split
  · exact .inl rfl
  · split
    · exact .inr (by simp)
    · cases hunique : known.bySimpleName? name with
      | none => exact .inl rfl
      | some found =>
          by_cases hdot : '.' ∈ found.toList
          · exact .inr hdot
          · have hsimple := (hknown.mem_of_bySimpleName? hunique).2
            rw [simpleName_of_not_mem hdot] at hsimple
            exact .inl hsimple

/-- The class that a name stands for stands for itself. -/
theorem qualify_qualify (hknown : known.Knows names) (name : String) :
    qualify known (qualify known name) = qualify known name := by
  obtain heq | hdot := qualify_eq_or_mem hknown name
  · rw [heq, heq]
  · exact qualify_of_mem hdot

/-- The class that a qualified name stands for has a qualified name, too. -/
theorem isQualifiedName_qualify (hknown : known.Knows names)
    (hnames : ∀ name ∈ names, isQualifiedName name = true) (h : isQualifiedName name = true) :
    isQualifiedName (qualify known name) = true := by
  rw [qualify_eq_ite hknown]
  split
  · exact h
  · split
    · exact isQualifiedName_javaLang h
    · cases hunique : known.bySimpleName? name with
      | none => exact h
      | some found => exact hnames found (hknown.mem_of_bySimpleName? hunique).1

end

theorem dot_not_mem_of_primitive : ∀ name ∈ primitiveNames, '.' ∉ name.toList := by decide

theorem isQualifiedName_of_primitive : ∀ name ∈ primitiveNames, isQualifiedName name = true := by
  decide

/-! ## canonical texts -/

namespace Ty

mutual

/-- The written type that the canonical text of a type spells. -/
def term : Ty → TypeTerm
  | primitive name | param name => .named name []
  | array item => .array item.term
  | named name args => .named name (termList args)
  | wildcard => .wildcard
  | bounded bound => .bounded bound.term

/-- The written types of arguments. -/
def termList : List Ty → List TypeTerm
  | [] => []
  | arg :: args => arg.term :: termList args

end

/-- A type whose names mean themselves among the classes that are known and the
type parameters in scope.  Array suffixes stand where the grammar has them. -/
inductive Settled (known : NameLookup) (scope : List String) : Ty → Prop where
  | primitive {name : String} : name ∈ primitiveNames → Settled known scope (.primitive name)
  | param {name : String} : isQualifiedName name = true → name ∉ primitiveNames →
      name ∈ scope → Settled known scope (.param name)
  | named {name : String} {args : List Ty} : isQualifiedName name = true →
      qualify known name = name → (args = [] → name ∉ primitiveNames ∧ name ∉ scope) →
      (∀ arg ∈ args, Settled known scope arg) → Settled known scope (.named name args)
  | array {item : Ty} : item.term.isBounded = false → Settled known scope item →
      Settled known scope (.array item)
  | wildcard : Settled known scope .wildcard
  | bounded {bound : Ty} : Settled known scope bound → Settled known scope (.bounded bound)

variable {known : NameLookup} {scope : List String} {ty : Ty}

/-! ### the text of a settled type -/

/-- The text is a type of the grammar, with suffixes in their places. -/
structure Spells (ty : Ty) : Prop where
  derives : TypeTerm.Derives ty.chars ty.term
  innermost : ty.term.Innermost

theorem spells_name {name : String} (h : isQualifiedName name = true) :
    TypeTerm.Derives name.toList (.named name []) := by
  have hderives := TypeTerm.Derives.named .nil (TypeTerm.qualifiedName_toList.mpr h)
  rwa [String.ofList_toList] at hderives

/-- The arguments after `<`. -/
theorem spells_args {arg : Ty} {args : List Ty} (harg : arg.Spells)
    (hargs : ∀ arg ∈ args, arg.Spells) :
    TypeTerm.DerivesArgs (arg.chars ++ (moreChars args ++ ['>'])) (arg.term :: termList args) ∧
      TypeTerm.InnermostAll (arg.term :: termList args) := by
  induction args generalizing arg with
  | nil => exact ⟨.last harg.derives .nil, harg.innermost, trivial⟩
  | cons next args ih =>
      obtain ⟨hnext, hargs⟩ := List.forall_mem_cons.mp hargs
      obtain ⟨hderives, hinner⟩ := ih hnext hargs
      refine ⟨?_, harg.innermost, hinner⟩
      have hmore := TypeTerm.DerivesArgs.more harg.derives .nil hderives
      simpa only [moreChars, termList, List.nil_append, List.cons_append, List.append_assoc]
        using hmore

/-- A class with arguments spells its type when each argument does. -/
theorem spells_generic {name : String} (h : isQualifiedName name = true) {arg : Ty}
    {args : List Ty} (hargs : ∀ arg' ∈ arg :: args, arg'.Spells) :
    (named name (arg :: args)).Spells := by
  obtain ⟨harg, hargs⟩ := List.forall_mem_cons.mp hargs
  obtain ⟨hderives, hinner⟩ := spells_args harg hargs
  have hgeneric := TypeTerm.Derives.generic .nil (TypeTerm.qualifiedName_toList.mpr h) hderives
  constructor
  · simpa only [chars_named_cons, term, termList, List.nil_append, List.cons_append,
      List.append_assoc, String.ofList_toList] using hgeneric
  · rwa [term, termList, TypeTerm.Innermost]

theorem Spells.bounded {bound : Ty} (h : bound.Spells) : (Ty.bounded bound).Spells where
  derives := by
    have hblank : isBlank ' ' = true := by decide
    have hblanks : Blanks [' '] := by
      intro c hc
      rwa [List.mem_singleton.mp hc]
    have hkeyword : "extends" ∈ TypeTerm.boundKeywords := by decide
    have hbounded := TypeTerm.Derives.bounded .nil hblanks hkeyword hblank h.derives
    simpa [chars_bounded, term] using hbounded
  innermost := h.innermost

/-- What is settled spells its type. -/
theorem Settled.spells (h : ty.Settled known scope) : ty.Spells := by
  induction h with
  | primitive hname => exact ⟨spells_name (isQualifiedName_of_primitive _ hname), trivial⟩
  | param hname => exact ⟨spells_name hname, trivial⟩
  | @named name args hname _ _ _ ih =>
      cases args with
      | nil => exact ⟨spells_name hname, trivial⟩
      | cons arg args => exact spells_generic hname ih
  | array hbounded _ ih => exact ⟨.array ih.derives .nil .nil, hbounded, ih.innermost⟩
  | wildcard => exact ⟨.wildcard .nil, trivial⟩
  | bounded _ ih => exact ih.bounded

/-- **Text of a settled type**: it is parsed to the term of the type. -/
theorem Settled.parse_text (h : ty.Settled known scope) :
    TypeTerm.parse ty.text = .ok ty.term := by
  have htext : ty.text.toList = ty.chars ++ [] := by
    rw [text, String.toList_ofList, List.append_nil]
  exact TypeTerm.parse_of_derives htext h.spells.derives h.spells.innermost .nil

/-! ### the meaning of a settled type -/

theorem resolveList_termList {args : List Ty}
    (h : ∀ arg ∈ args, arg.term.resolve known scope = arg) :
    TypeTerm.resolveList known scope (termList args) = args := by
  induction args with
  | nil => rfl
  | cons arg args ih =>
      obtain ⟨harg, hargs⟩ := List.forall_mem_cons.mp h
      rw [termList, TypeTerm.resolveList, harg, ih hargs]

/-- The names of a settled type mean themselves. -/
theorem Settled.resolve_term (h : ty.Settled known scope) :
    ty.term.resolve known scope = ty := by
  induction h with
  | primitive hname => exact if_pos ⟨rfl, hname⟩
  | param _ hprimitive hscope =>
      rw [term, TypeTerm.resolve, if_neg fun h => hprimitive h.2, if_pos ⟨rfl, hscope⟩]
  | @named name args _ hqualify hfree _ ih =>
      rw [term, TypeTerm.resolve, hqualify, resolveList_termList ih]
      cases args with
      | nil =>
          obtain ⟨hprimitive, hscope⟩ := hfree rfl
          rw [if_neg fun h => hprimitive h.2, if_neg fun h => hscope h.2]
      | cons arg args =>
          rw [if_neg fun h => Bool.false_ne_true h.1, if_neg fun h => Bool.false_ne_true h.1]
  | array _ _ ih => rw [term, TypeTerm.resolve, ih]
  | wildcard => rfl
  | bounded _ ih => rw [term, TypeTerm.resolve, ih]

end Ty

/-! ## types that are read -/

namespace TypeTerm

variable {known : NameLookup} {names scope : List String}

/-- Terms are resolved one by one. -/
theorem resolveList_eq_map (known : NameLookup) (scope : List String) (terms : List TypeTerm) :
    resolveList known scope terms = terms.map (resolve known scope) := by
  induction terms with
  | nil => rfl
  | cons term terms ih => rw [resolveList, ih, List.map_cons]

/-- A bounded wildcard stays one, and nothing else becomes one. -/
theorem isBounded_term_resolve (term : TypeTerm) :
    (term.resolve known scope).term.isBounded = term.isBounded := by
  cases term with
  | named name args =>
      rw [resolve]
      split
      · rfl
      · split <;> rfl
  | array | wildcard | bounded => rfl

/-- A name is settled by its meaning. -/
theorem settled_resolve_named (hknown : known.Knows names)
    (hnames : ∀ name ∈ names, isQualifiedName name = true)
    (hscope : ∀ name ∈ scope, '.' ∉ name.toList) {name : List Char} (hname : QualifiedName name)
    {args : List TypeTerm} (hargs : ∀ arg ∈ args, (arg.resolve known scope).Settled known scope) :
    ((TypeTerm.named (String.ofList name) args).resolve known scope).Settled known scope := by
  have hqualified := qualifiedName_iff.mp hname
  rw [resolve]
  split
  · next hprimitive => exact .primitive hprimitive.2
  · next hprimitive =>
      split
      · next hparam => exact .param hqualified (fun h => hprimitive ⟨hparam.1, h⟩) hparam.2
      · next hparam =>
          rw [resolveList_eq_map]
          refine .named (isQualifiedName_qualify hknown hnames hqualified)
            (qualify_qualify hknown _) ?_ ?_
          · intro hnil
            have hempty : args.isEmpty = true := by simpa using hnil
            obtain heq | hdot := qualify_eq_or_mem hknown (String.ofList name)
            · rw [heq]
              exact ⟨fun h => hprimitive ⟨hempty, h⟩, fun h => hparam ⟨hempty, h⟩⟩
            · exact ⟨fun h => dot_not_mem_of_primitive _ h hdot, fun h => hscope _ h hdot⟩
          · exact List.forall_mem_map.mpr hargs

mutual

/-- **Reading settles**: the meaning of a type of the grammar is settled. -/
theorem Derives.settled_resolve (hknown : known.Knows names)
    (hnames : ∀ name ∈ names, isQualifiedName name = true)
    (hscope : ∀ name ∈ scope, '.' ∉ name.toList) : {s : List Char} → {term : TypeTerm} →
      Derives s term → term.Innermost → (term.resolve known scope).Settled known scope
  | _, _, .wildcard _, _ => .wildcard
  | _, _, .bounded _ _ _ _ hbound, hinner =>
      .bounded (hbound.settled_resolve hknown hnames hscope hinner)
  | _, _, .named _ hname, _ =>
      settled_resolve_named hknown hnames hscope hname fun _ h => absurd h List.not_mem_nil
  | _, _, .generic _ hname hargs, hinner =>
      settled_resolve_named hknown hnames hscope hname
        (hargs.settled_resolve hknown hnames hscope hinner)
  | _, _, .array hitem _ _, hinner =>
      .array ((isBounded_term_resolve _).trans hinner.1)
        (hitem.settled_resolve hknown hnames hscope hinner.2)

/-- Arguments are settled once their names have a meaning. -/
theorem DerivesArgs.settled_resolve (hknown : known.Knows names)
    (hnames : ∀ name ∈ names, isQualifiedName name = true)
    (hscope : ∀ name ∈ scope, '.' ∉ name.toList) : {s : List Char} → {args : List TypeTerm} →
      DerivesArgs s args → InnermostAll args →
        ∀ arg ∈ args, (arg.resolve known scope).Settled known scope
  | _, _, .last harg _, hinner =>
      List.forall_mem_singleton.mpr (harg.settled_resolve hknown hnames hscope hinner.1)
  | _, _, .more harg _ hargs, hinner =>
      List.forall_mem_cons.mpr ⟨harg.settled_resolve hknown hnames hscope hinner.1,
        hargs.settled_resolve hknown hnames hscope hinner.2⟩

end

end TypeTerm

namespace ClassTable

variable {known : NameLookup} {names scope : List String} {place : TypePlace} {text : String}
  {ty : Ty}

/-- A settled type is read from its canonical text. -/
theorem readType_text_of_settled (h : ty.Settled known scope) (place : TypePlace) :
    readType known scope place ty.text = .ok ty :=
  readType_eq_ok_iff.mpr ⟨ty.term, h.parse_text, h.resolve_term.symm⟩

section

variable (hknown : known.Knows names) (hnames : ∀ name ∈ names, isQualifiedName name = true)
  (hscope : ∀ name ∈ scope, '.' ∉ name.toList)

include hknown hnames hscope

/-- Among qualified names, every type that is read is settled. -/
theorem settled_of_readType (h : readType known scope place text = .ok ty) :
    ty.Settled known scope := by
  obtain ⟨term, hparse, rfl⟩ := readType_eq_ok_iff.mp h
  obtain ⟨_, _, _, hderives, hinner, _⟩ := TypeTerm.parse_eq_ok hparse
  exact hderives.settled_resolve hknown hnames hscope hinner

/-- **The types that are read** are the settled ones. -/
theorem settled_iff_exists_readType (place : TypePlace) :
    ty.Settled known scope ↔ ∃ text, readType known scope place text = .ok ty :=
  ⟨fun h => ⟨ty.text, readType_text_of_settled h place⟩,
    fun ⟨_, h⟩ => settled_of_readType hknown hnames hscope h⟩

end

/-- **The canonical text** of a type that is read reads back as that type, in
a built table and in every scope of type parameters without dots; so no other
type that is read there has the same canonical text. -/
theorem readType_text {decls : List ClassDecl} {table : ClassTable}
    (hbuild : build decls = .ok table) (hscope : ∀ name ∈ scope, '.' ∉ name.toList)
    (h : readType table.lookup scope place text = .ok ty) :
    (∀ place', readType table.lookup scope place' ty.text = .ok ty) ∧
      ∀ place' text' ty', readType table.lookup scope place' text' = .ok ty' →
        ty'.text = ty.text → ty' = ty := by
  have hnames : ∀ name ∈ table.names, isQualifiedName name = true := by
    rw [names_of_build hbuild]
    exact List.forall_mem_map.mpr (build_eq_ok_iff.mp hbuild).1.1
  have hknown := NameLookup.knows_ofNames table.names
  have hback := readType_text_of_settled (settled_of_readType hknown hnames hscope h)
  refine ⟨hback, fun place' text' ty' h' htext => ?_⟩
  have hback' :=
    readType_text_of_settled (settled_of_readType hknown hnames hscope h') place'
  rw [htext, hback place'] at hback'
  cases hback'
  rfl

/-- Among the built-in classes, with blanks, a simple name and a bound of the
other kind. -/
theorem readType_text_map :
    ∃ table, build preludeClasses = .ok table ∧ (∀ name ∈ ["K"], '.' ∉ name.toList) ∧
      ∃ ty, readType table.lookup ["K"] .root " Map< K, ? super Number [ ]>" = .ok ty ∧
        ty.text = "java.util.Map<K,? extends java.lang.Number[]>" ∧
        readType table.lookup ["K"] .root "java.util.Map<K,? extends java.lang.Number[]>" =
          .ok ty := by
  obtain ⟨table, hbuild⟩ : ∃ table, build preludeClasses = .ok table :=
    exists_build_iff.mpr ⟨⟨isQualifiedName_of_mem_prelude, nodup_names_prelude⟩,
      readable_of_mem_prelude⟩
  have hscope : ∀ name ∈ ["K"], '.' ∉ name.toList := by decide
  have hread : readType table.lookup ["K"] .root " Map< K, ? super Number [ ]>" =
      .ok (.named "java.util.Map"
        [.param "K", .bounded (.array (.named "java.lang.Number" []))]) := by
    rw [lookup, names_of_build hbuild]
    decide +kernel
  refine ⟨table, hbuild, hscope, _, hread, by decide, ?_⟩
  exact (readType_text hbuild hscope hread).1 .root

end ClassTable

end Exemplar
