import Exemplar.Proofs.ClassTable.Enclosing
import Exemplar.Proofs.ClassTable.FirstVisits
import Exemplar.Proofs.ClassTable.RootTypes

/-!
# Exemplar.Proofs.ClassTable.Borrowed

The type parameters that inherited fields bring along.  The types of a class
speak of its own parameters and of those of the classes around it, which it
borrows.  On the way down to a class the own parameters of a supertype are
always replaced, by its arguments or by the root class; what a supertype
borrows stays as it is.  So a borrowed parameter comes down by its name alone:
it is right where that name means the parameter of the same class, it dangles
where the name means nothing, and where it means another parameter it is taken
for that one.

* `owner?` — the class whose parameter a name is;
* `mentions_or_borrowed_of_mem_params` — where the parameters of fields come from;
* `mem_scope_of_mem_params` — they are in scope, unless a name changes its meaning;
* `exists_field_of_borrows` — what a supertype borrows does come down.
-/

namespace Exemplar

/-! ## names in classes -/

/-- The types of a class speak of a type parameter. -/
def ClassInfo.Mentions (info : ClassInfo) (n : String) : Prop := ∃ ty ∈ info.types, n ∈ ty.params

/-- The types of a class speak of a type parameter that is not its own. -/
def ClassInfo.Borrows (info : ClassInfo) (n : String) : Prop :=
  info.Mentions n ∧ n ∉ info.typeParameters

namespace ClassInfo

variable {info : ClassInfo} {n : String}

/-- A class mentions the parameters in the types of its fields. -/
theorem mentions_of_mem_fields {field : FieldInfo Ty} (hfield : field ∈ info.fields)
    (hn : n ∈ field.type.params) : info.Mentions n :=
  ⟨field.type, List.mem_append_right _ (List.mem_map_of_mem hfield), hn⟩

/-- A class mentions the parameters in its supertypes. -/
theorem mentions_of_mem_supertypes {sup : Ty} (hsup : sup ∈ info.supertypes)
    (hn : n ∈ sup.params) : info.Mentions n :=
  ⟨sup, List.mem_append_left _ hsup, hn⟩

end ClassInfo

namespace ClassTable

/-- The class whose type parameter a name is in a class: the class itself, or
the innermost one around it that has a parameter of the name. -/
def owner? (table : ClassTable) (info : ClassInfo) (n : String) : Option String :=
  ((info :: table.enclosingClasses info).find? (n ∈ ·.typeParameters)).map (·.name)

/-- The names in scope are those with an owner. -/
theorem mem_scope_iff {table : ClassTable} {info : ClassInfo} {n : String} :
    n ∈ table.scope info ↔ ∃ owner, table.owner? info n = some owner := by
  rw [← Option.ne_none_iff_exists', owner?, Ne, Option.map_eq_none_iff, List.find?_eq_none]
  simp [scope, imp_iff_not_or]

section

variable {decls : List ClassDecl} {table : ClassTable} {info : ClassInfo} {n : String}
  (hbuild : build decls = .ok table)

include hbuild

/-- The types of a class speak of parameters in scope only. -/
theorem mem_scope_of_mentions (hinfo : info ∈ table.classes) (h : info.Mentions n) :
    n ∈ table.scope info := by
  obtain ⟨decl, _, hread⟩ := exists_decl_of_mem hbuild hinfo
  obtain ⟨ty, hty, hn⟩ := h
  obtain ⟨_, _, term, _, rfl⟩ := exists_left_of_forall₂ (forall₂_types_of_readClass hread) hty
  rw [← scopeOf_eq_scope hbuild hinfo hread]
  exact TypeTerm.params_resolve _ _ term n hn

/-! ## the way down -/

/-- A class, or one that it inherits from, borrows a parameter. -/
def BorrowedBelow (table : ClassTable) (info : ClassInfo) (n : String) : Prop :=
  ∃ found ∈ table.classes, Relation.ReflTransGen table.Extends info.name found.name ∧
    found.Borrows n

/-- The way down from every ancestor takes the types of the ancestor to types
that speak of what the class itself speaks of, and of what is borrowed. -/
theorem takes_of_mem_ancestors (hinfo : info ∈ table.classes) :
    ∀ ancestor ∈ table.ancestors info,
      Takes ancestor.path (fun n => ancestor.info.Mentions n ∨ table.BorrowedBelow info n)
        (fun n => info.Mentions n ∨ table.BorrowedBelow info n) := by
  -- a supertype on the stack is one of a class that the class inherits from
  refine @forall_mem_ancestors table (fun sup path =>
    (∃ below ∈ table.classes, Relation.ReflTransGen table.Extends info.name below.name ∧
      sup ∈ below.supertypes) ∧
    Takes path (fun n => n ∈ sup.params ∨ table.BorrowedBelow info n)
      (fun n => info.Mentions n ∨ table.BorrowedBelow info n)) _ ?_ info (fun _ hty => hty)
    fun sup hsup => ⟨⟨info, hinfo, .refl, hsup⟩, fun ty hty n hn =>
      (hty n hn).imp_left (ClassInfo.mentions_of_mem_supertypes hsup)⟩
  rintro name args path found ⟨⟨below, hbelow, hreach, hsup⟩, htakes⟩ hfound
  have hmem := mem_of_find? hfound
  have hreach : Relation.ReflTransGen table.Extends info.name found.name := by
    refine hreach.tail ⟨below, find?_name_of_mem hbuild hbelow, args, ?_⟩
    rwa [name_of_find? hfound]
  have hdown : Takes (found.argumentsFor args :: path)
      (fun n => found.Mentions n ∨ table.BorrowedBelow info n)
      (fun n => info.Mentions n ∨ table.BorrowedBelow info n) := by
    refine (takes_argumentsFor htakes fun n hn => .inl hn).imp fun n hn => ?_
    by_cases hown : n ∈ found.typeParameters
    · exact .inl hown
    · exact .inr (.inr (hn.elim (fun h => ⟨found, hmem, hreach, h, hown⟩) id))
  exact ⟨hdown, fun sup hsup => ⟨⟨found, hmem, hreach, hsup⟩,
    hdown.imp fun n => Or.imp_left (ClassInfo.mentions_of_mem_supertypes hsup)⟩⟩

/-- **Where the parameters of fields come from**: the class itself speaks of
them, or a class that it inherits from borrows them. -/
theorem mentions_or_borrowed_of_mem_params (hinfo : info ∈ table.classes) {field : FieldInfo Ty}
    (hfield : field ∈ table.allFields info) (hn : n ∈ field.type.params) :
    info.Mentions n ∨ table.BorrowedBelow info n := by
  obtain ⟨ancestor, hancestor, hfield⟩ := List.mem_flatMap.mp hfield
  obtain ⟨declared, hdeclared, rfl⟩ := List.mem_map.mp hfield
  exact takes_of_mem_ancestors hbuild hinfo ancestor hancestor declared.type
    (fun m hm => .inl (ClassInfo.mentions_of_mem_fields hdeclared hm)) n hn

/-- **The parameters of fields are in scope**: a type parameter in the type of a
field, inherited or not, is one of the class or of a class around it, and it is
the parameter that some class which the field can come from speaks of; unless
the name is that of a parameter which a class that is inherited from borrows
from a class around it, and which the name does not mean below. -/
theorem mem_scope_of_mem_params (hinfo : info ∈ table.classes) {field : FieldInfo Ty}
    (hfield : field ∈ table.allFields info) (hn : n ∈ field.type.params)
    (hsame : ∀ found ∈ table.classes, Relation.ReflTransGen table.Extends info.name found.name →
      found.Borrows n → table.owner? found n = table.owner? info n) :
    n ∈ table.scope info ∧ ∃ found ∈ table.classes,
      Relation.ReflTransGen table.Extends info.name found.name ∧ found.Mentions n ∧
        table.owner? found n = table.owner? info n := by
  obtain hmentions | ⟨found, hfound, hreach, hborrows⟩ :=
    mentions_or_borrowed_of_mem_params hbuild hinfo hfield hn
  · exact ⟨mem_scope_of_mentions hbuild hinfo hmentions, info, hinfo, .refl, hmentions, rfl⟩
  · have hmeans := hsame found hfound hreach hborrows
    refine ⟨?_, found, hfound, hreach, hborrows.1, hmeans⟩
    rw [mem_scope_iff, ← hmeans, ← mem_scope_iff]
    exact mem_scope_of_mentions hbuild hfound hborrows.1

end

/-! ### two classes nested in one -/

/-- A class with a parameter, in which are two others; the one extends the other. -/
def nestDecls : List ClassDecl :=
  [bearerDecl "Outer" "T" [] [] "top" "T",
    bearerDecl "Outer.Base" "U" [] [] "held" "Map<T,U>",
    bearerDecl "Outer.Sub" "V" ["Base<V[]>"] [] "own" "V"]

/-- A class that is nested in another. -/
def nested (info : ClassInfo) (outer : String) : ClassInfo where
  name := outer ++ "." ++ info.name
  simpleName := info.simpleName
  kind := info.kind
  typeParameters := info.typeParameters
  supertypes := info.supertypes
  enumConstants := info.enumConstants
  fields := info.fields
  enclosing := some outer

def nestBase : ClassInfo :=
  nested (bearer "Base" "U" [] "held" (.named "Map" [.param "T", .param "U"])) "Outer"

def nestSub : ClassInfo :=
  nested (bearer "Sub" "V" [.named "Outer.Base" [.array (.param "V")]] "own" (.param "V")) "Outer"

/-- The classes of the declarations. -/
def nestTable : ClassTable :=
  ⟨[bearer "Outer" "T" [] "top" (.param "T"), nestBase, nestSub]⟩

/-- The parameter of the class around both comes down with the field. -/
theorem mem_scope_nestSub :
    build nestDecls = .ok nestTable ∧ nestSub ∈ nestTable.classes ∧
      ∃ field ∈ nestTable.allFields nestSub, field.name = "held" ∧
        field.type = .named "Map" [.param "T", .array (.param "V")] ∧ "T" ∈ field.type.params ∧
        "T" ∉ nestSub.typeParameters ∧ "T" ∈ nestTable.scope nestSub := by
  have hbuild : build nestDecls = .ok nestTable := by decide +kernel
  have hsub : nestSub ∈ nestTable.classes := by simp [nestTable]
  have hfield : ∃ field ∈ nestTable.allFields nestSub, field.name = "held" ∧
      field.type = .named "Map" [.param "T", .array (.param "V")] := by
    have hvisit : (⟨nestBase, [[("U", .array (.param "V"))]]⟩ : Ancestor) ∈
        nestTable.ancestors nestSub := by
      have hsupertypes : nestSub.supertypes.map (·, ([] : List Substitution)) =
          [(.named "Outer.Base" [.array (.param "V")], [])] := rfl
      have hfound : nestTable.classOf? (.named "Outer.Base" [.array (.param "V")]) =
          some nestBase := rfl
      rw [ancestors, hsupertypes, ancestorsFrom_visit hfound (by decide)]
      exact List.mem_cons_of_mem _ List.mem_cons_self
    exact ⟨_, List.mem_flatMap.mpr ⟨_, hvisit, List.mem_map_of_mem List.mem_cons_self⟩, rfl, rfl⟩
  obtain ⟨field, hmem, hname, htype⟩ := hfield
  have hn : "T" ∈ field.type.params := by
    rw [htype]
    decide
  have howner : ∀ found ∈ nestTable.classes,
      nestTable.owner? found "T" = nestTable.owner? nestSub "T" := by decide
  exact ⟨hbuild, hsub, field, hmem, hname, htype, hn, by decide,
    (mem_scope_of_mem_params hbuild hsub hmem hn fun found hfound _ _ => howner found hfound).1⟩

/-! ### what is borrowed comes down -/

/-- **What a supertype borrows comes down**: a parameter that the first
supertype of a class borrows for the type of a field stands in the type of the
inherited field, whatever its name means in the class. -/
theorem exists_field_of_borrows {table : ClassTable} {info found : ClassInfo} {sup : Ty}
    {rest : List Ty} (hsup : info.supertypes = sup :: rest)
    (hfound : table.classOf? sup = some found) (hne : found.name ≠ info.name)
    {declared : FieldInfo Ty} (hdeclared : declared ∈ found.fields) {n : String}
    (hn : n ∈ declared.type.params) (hown : n ∉ found.typeParameters) :
    ∃ field ∈ table.allFields info, field.name = declared.name ∧ n ∈ field.type.params := by
  have hfresh : found.name ∉ [info.name] := fun hmem => hne (List.mem_singleton.mp hmem)
  have hvisit : ⟨found, [found.argumentsFor sup.arguments]⟩ ∈ table.ancestors info := by
    rw [ancestors, hsup, List.map_cons, ancestorsFrom_visit hfound hfresh]
    exact List.mem_cons_of_mem _ List.mem_cons_self
  have hfind : (found.argumentsFor sup.arguments).find? n = none := by
    rwa [Substitution.find?_eq_none_iff, ClassInfo.map_fst_argumentsFor]
  exact ⟨_, List.mem_flatMap.mpr ⟨_, hvisit, List.mem_map_of_mem hdeclared⟩, rfl,
    Ty.mem_params_subst_of_find? hn hfind⟩

end ClassTable

end Exemplar
