import Exemplar.Proofs.ClassTable.FirstVisits
import Exemplar.Proofs.Json.Entries
import Exemplar.Proofs.Sampler.Field

/-!
# Exemplar.Proofs.Sampler.Object

Objects, entry by entry.  The fields of a class are put into its object one
after the other, and several of them can have one key: a class can declare a
field that it also inherits, and annotations can give two fields one name.  An
entry keeps the place of the first field of its key and has the value of the
last one; so the value of an inherited field replaces that of a declared one.

* `fieldValue?` — the value of a field at a depth, if it has one;
* `run_sampleFields_of_fixed` — the entries are those of the fields, put one
  after the other;
* `exists_entries_of_byFields` — the keys of an object and what they hold;
* `exists_inherited_over_declared` — an inherited field comes last.
-/

namespace Exemplar

/-- The value of a field, where types have the given samples. -/
def FieldInfo.valueBy (sample? : Ty → Option Json) (field : FieldInfo Ty) : Option Json :=
  field.initialValue?.or (sample? field.type)

/-- The entries of the fields that have a value. -/
def FieldInfo.entriesBy (value? : FieldInfo Ty → Option Json) (fields : List (FieldInfo Ty)) :
    List (String × Json) :=
  fields.filterMap fun field => (value? field).map (field.key, ·)

namespace FieldInfo

section

variable {value? : FieldInfo Ty → Option Json} {field : FieldInfo Ty}

theorem entriesBy_of_eq_none (h : value? field = none) (rest : List (FieldInfo Ty)) :
    entriesBy value? (field :: rest) = entriesBy value? rest := by
  rw [entriesBy, List.filterMap_cons, h]
  rfl

theorem entriesBy_of_eq_some {value : Json} (h : value? field = some value)
    (rest : List (FieldInfo Ty)) :
    entriesBy value? (field :: rest) = (field.key, value) :: entriesBy value? rest := by
  rw [entriesBy, List.filterMap_cons, h]
  rfl

end

variable (value? : FieldInfo Ty → Option Json) (fields : List (FieldInfo Ty))

/-- The keys are those of the fields with a value, in order. -/
theorem map_fst_entriesBy : (entriesBy value? fields).map (·.1) =
    (fields.filter fun field => (value? field).isSome).map (·.key) := by
  induction fields with
  | nil => rfl
  | cons field rest ih =>
      cases hvalue : value? field with
      | none => rw [entriesBy_of_eq_none hvalue, ih, List.filter_cons_of_neg (by simp [hvalue])]
      | some value =>
          rw [entriesBy_of_eq_some hvalue, List.map_cons, ih,
            List.filter_cons_of_pos (by simp [hvalue]), List.map_cons]

/-- Under a key stands the value of the first field with that key and a value. -/
theorem entry?_entriesBy (key : String) : Json.entry? (entriesBy value? fields) key =
    fields.findSome? fun field => if field.key = key then value? field else none := by
  induction fields with
  | nil => rfl
  | cons field rest ih =>
      rw [List.findSome?_cons]
      cases hvalue : value? field with
      | none => rw [entriesBy_of_eq_none hvalue, ih, ite_self]
      | some value =>
          rw [entriesBy_of_eq_some hvalue, Json.entry?]
          by_cases hkey : field.key = key
          · rw [if_pos hkey, List.find?_cons_of_pos (by simpa using hkey)]
            rfl
          · rw [if_neg hkey, List.find?_cons_of_neg (by simpa using hkey)]
            exact ih

/-- Under a key is the value of the last field of the key. -/
theorem entry?_putEntries_entriesBy (key : String) :
    Json.entry? (Json.putEntries [] (entriesBy value? fields)) key =
      fields.reverse.findSome? fun field => if field.key = key then value? field else none := by
  rw [Json.entry?_putEntries, entriesBy, ← List.filterMap_reverse]
  exact Option.or_none.trans (entry?_entriesBy value? fields.reverse key)

end FieldInfo

namespace Sampler

/-! ## fields, put one after the other -/

/-- Without static fields, and where samples leave the registry as it is, the
entries of the fields are put one after the other. -/
theorem run_sampleFields_of_fixed {step : Ty → Sampling} {r : Registry}
    (hkeep : ∀ ty, ((step ty).run r).2 = r) {fields : List (FieldInfo Ty)}
    (hstatic : ∀ field ∈ fields, field.isStatic = false) (done : List (String × Json)) :
    (sampleFields step fields done).run r = (some (Json.putEntries done
      (FieldInfo.entriesBy (FieldInfo.valueBy fun ty => ((step ty).run r).1) fields)), r) := by
  set sample? : Ty → Option Json := fun ty => ((step ty).run r).1
  induction fields generalizing done with
  | nil => rfl
  | cons field rest ih =>
      obtain ⟨hs, hstatic⟩ := List.forall_mem_cons.mp hstatic
      cases hv : field.initialValue? with
      | some value =>
          have hvalue : FieldInfo.valueBy sample? field = some value := by
            rw [FieldInfo.valueBy, hv, Option.some_or]
          rw [run_sampleFields_of_eq_some hs hv, ih hstatic,
            FieldInfo.entriesBy_of_eq_some hvalue]
          rfl
      | none =>
          have hvalue : FieldInfo.valueBy sample? field = sample? field.type := by
            rw [FieldInfo.valueBy, hv, Option.none_or]
          rw [run_sampleFields_of_eq_none hs hv, hkeep, ih hstatic]
          cases hsample : ((step field.type).run r).1 with
          | none => rw [FieldInfo.entriesBy_of_eq_none (hvalue.trans hsample)]
          | some value =>
              rw [FieldInfo.entriesBy_of_eq_some (hvalue.trans hsample)]
              rfl

/-! ## classes -/

/-- A class is sampled by its fields: no rule, no constant and no container
stands before them. -/
structure ByFields (s : Sampler) (registry : Registry) (info : ClassInfo) (args : List Ty) :
    Prop where
  found : s.table.find? info.name = some info
  answer? : registry.answer? (.named info.name args) = none
  constant? : s.firstConstant? info = none
  container? : s.table.containerOf? info.name info.typeParameters.length = none

/-- The value of a field with a depth left for it, in the environment of its
class: the initializer, or else the sample of the type. -/
def fieldValue? (s : Sampler) (registry : Registry) (left : Nat) (env : Environment Ty) :
    FieldInfo Ty → Option Json :=
  FieldInfo.valueBy fun ty => ((s.sampleAt left ty (s.environmentFor ty env)).run registry).1

section

variable {s : Sampler} {registry : Registry} {info : ClassInfo} {args : List Ty}

/-- A class that is sampled by its fields shows an entry for each of them. -/
theorem run_sampleAt_of_byFields (h : s.ByFields registry info args) (hfixed : registry.IsFixed)
    (hstatic : ∀ field ∈ s.table.allFields info, field.isStatic = false) (left : Nat)
    (env : Environment Ty) :
    (s.sampleAt (left + 1) (.named info.name args) env).run registry =
      (if (s.table.allFields info).isEmpty ∧ left + 1 ≠ maxDepth then none
        else some (.object (Json.putEntries []
          (FieldInfo.entriesBy (s.fieldValue? registry left env) (s.table.allFields info)))),
        registry) := by
  have hfields := run_sampleFields_of_fixed (r := registry)
    (fun ty => run_sampleAt_snd s hfixed left ty (s.environmentFor ty env)) hstatic []
  rw [run_sampleAt_of_plan hfixed h.answer? (plan_of_object h.found h.constant? h.container? env
    args), Plan.run, sampleObject]
  simp only [decide_eq_true_eq]
  split
  · rfl
  · rw [StateT.run_bind, hfields]
    rfl

/-- **The object of a class**: it has the keys of the fields that have a value,
each once, where the first such field has its place, the declared fields before
the inherited ones; and under each key is the value of the last such field.
Only without depth, and without fields below the root, is there no object. -/
theorem exists_entries_of_byFields (h : s.ByFields registry info args) (hfixed : registry.IsFixed)
    (hstatic : ∀ field ∈ s.table.allFields info, field.isStatic = false) (left : Nat)
    (env : Environment Ty) :
    (∃ inherited, s.table.allFields info = info.fields ++ inherited) ∧
    ∃ entries : List (String × Json),
      (s.sampleAt left (.named info.name args) env).run registry =
        (if left = 0 ∨ (s.table.allFields info).isEmpty ∧ left ≠ maxDepth then none
          else some (.object entries), registry) ∧
      (entries.map (·.1)).Nodup ∧
      entries.map (·.1) = (((s.table.allFields info).filter fun field =>
        (s.fieldValue? registry (left - 1) env field).isSome).map (·.key)).eraseDups ∧
      ∀ key, Json.entry? entries key = (s.table.allFields info).reverse.findSome? fun field =>
        if field.key = key then s.fieldValue? registry (left - 1) env field else none := by
  refine ⟨s.table.exists_allFields_eq_append info, Json.putEntries [] (FieldInfo.entriesBy
    (s.fieldValue? registry (left - 1) env) (s.table.allFields info)), ?_,
    Json.nodup_putEntries _, ?_, FieldInfo.entry?_putEntries_entriesBy _ _⟩
  · cases left with
    | zero => rfl
    | succ left =>
        rw [run_sampleAt_of_byFields h hfixed hstatic]
        simp
  · rw [Json.map_fst_putEntries, FieldInfo.map_fst_entriesBy]

end

/-! ### a field that is declared and inherited -/

open ClassTable

/-- A class that declares a field which it also inherits. -/
def entryDecls : List ClassDecl :=
  [bearerDecl "Base" "T" [] [] "id" "A", bearerDecl "Sub" "T" ["Base<T>"] [] "id" "B"]

def entryBase : ClassInfo := bearer "Base" "T" [] "id" letterA

def entrySub : ClassInfo := bearer "Sub" "T" [.named "Base" [.param "T"]] "id" letterB

section

variable {s : Sampler}

theorem byFields_entrySub (hsub : s.table.find? "Sub" = some entrySub) :
    s.ByFields letters entrySub [letterA] :=
  ⟨hsub, rfl, firstConstant?_eq_none s (by decide), rfl⟩

theorem allFields_entrySub (hbase : s.table.find? "Base" = some entryBase) :
    s.table.allFields entrySub =
      [⟨"id", letterB, none, [], false⟩, ⟨"id", letterA, none, [], false⟩] := by
  have hsupertypes : entrySub.supertypes.map (·, ([] : List Substitution)) =
      [(.named "Base" [.param "T"], [])] := rfl
  have hnone : entryBase.supertypes = [] := rfl
  have hfound : s.table.classOf? (.named "Base" [.param "T"]) = some entryBase := hbase
  rw [allFields, ancestors, hsupertypes, ancestorsFrom_visit hfound (by decide), hnone,
    List.map_nil, List.nil_append, ancestorsFrom]
  rfl

theorem isStatic_entrySub (hbase : s.table.find? "Base" = some entryBase) :
    ∀ field ∈ s.table.allFields entrySub, field.isStatic = false := by
  rw [allFields_entrySub hbase]
  decide

end

theorem fieldValue?_letters (s : Sampler) (left : Nat) (env : Environment Ty) :
    s.fieldValue? letters (left + 1) env ⟨"id", letterB, none, [], false⟩ = some (.string "b") ∧
    s.fieldValue? letters (left + 1) env ⟨"id", letterA, none, [], false⟩ = some (.string "a") := by
  have hvalue : ∀ {ty : Ty} {value : Json}, letters.answer? ty = some value →
      s.fieldValue? letters (left + 1) env ⟨"id", ty, none, [], false⟩ = some value := by
    intro ty value hanswer
    rw [fieldValue?, FieldInfo.valueBy,
      run_sampleAt_of_answer? s isFixed_letters hanswer left (s.environmentFor ty env)]
    rfl
  exact ⟨hvalue answer?_b, hvalue answer?_a⟩

/-- The object has one entry, with the value of the inherited field. -/
theorem exists_entries_entrySub :
    let s : Sampler := ⟨⟨[entryBase, entrySub]⟩, .full⟩
    build entryDecls = .ok s.table ∧ s.ByFields letters entrySub [letterA] ∧ letters.IsFixed ∧
      (∀ field ∈ s.table.allFields entrySub, field.isStatic = false) ∧
      ∃ entries : List (String × Json),
        (s.sampleAt 9 (.named "Sub" [letterA]) .empty).run letters =
          (some (.object entries), letters) ∧
        entries.map (·.1) = ["id"] ∧ Json.entry? entries "id" = some (.string "a") := by
  intro s
  have hbase : s.table.find? "Base" = some entryBase := rfl
  have hclass : s.ByFields letters entrySub [letterA] := byFields_entrySub rfl
  have hstatic := isStatic_entrySub hbase
  have hfields := allFields_entrySub hbase
  obtain ⟨hb, ha⟩ := fieldValue?_letters s 7 .empty
  obtain ⟨_, entries, hrun, _, hkeys, hvalues⟩ :=
    exists_entries_of_byFields hclass isFixed_letters hstatic 9 .empty
  refine ⟨by decide +kernel, hclass, isFixed_letters, hstatic, entries, ?_, ?_, ?_⟩
  · rw [hfields] at hrun
    exact hrun
  · rw [hkeys, hfields]
    simp only [List.filter, hb, ha]
    decide
  · rw [hvalues, hfields]
    exact (List.findSome?_cons ..).trans (by rw [ha]; rfl)

/-- **An inherited field comes last**: in a table of a document the entry for a
class does not hold the value of the first field of its key, which the class
declares, but that of the inherited one. -/
theorem exists_inherited_over_declared : ∃ s : Sampler,
    ofDocuments [⟨entryDecls⟩] = .ok s.table ∧ s.ByFields letters entrySub [letterA] ∧
      letters.IsFixed ∧ (∀ field ∈ s.table.allFields entrySub, field.isStatic = false) ∧
      ∃ entries first, (s.sampleAt 9 (.named "Sub" [letterA]) .empty).run letters =
          (some (.object entries), letters) ∧
        (s.table.allFields entrySub).findSome? (fun field =>
          if field.key = "id" then s.fieldValue? letters 8 .empty field else none) = some first ∧
        Json.entry? entries "id" ≠ some first := by
  obtain ⟨table, hbuild⟩ : ∃ table, ofDocuments [⟨entryDecls⟩] = .ok table :=
    exists_ofDocuments_iff.mpr (by decide +kernel)
  have hfind : ∀ {decl info}, decl ∈ entryDecls →
      readClass (.of (preludeClasses ++ entryDecls)) decl = .ok info →
      table.find? decl.name = some info := fun hdecl hread =>
    (find?_eq_some_iff_of_build hbuild).mpr ⟨_, List.mem_append_right _ hdecl, rfl, hread⟩
  have hbase : table.find? "Base" = some entryBase := hfind (.head _) (by decide +kernel)
  have hsub : table.find? "Sub" = some entrySub := hfind (.tail _ (.head _)) (by decide +kernel)
  let s : Sampler := ⟨table, .full⟩
  have hclass : s.ByFields letters entrySub [letterA] := byFields_entrySub hsub
  have hstatic := @isStatic_entrySub s hbase
  obtain ⟨hb, ha⟩ := fieldValue?_letters s 7 .empty
  refine ⟨s, hbuild, hclass, isFixed_letters, hstatic, _, .string "b",
    run_sampleAt_of_byFields hclass isFixed_letters hstatic 8 .empty, ?_, ?_⟩
  · rw [allFields_entrySub hbase, List.findSome?_cons, hb]
    rfl
  · rw [FieldInfo.entry?_putEntries_entriesBy, allFields_entrySub hbase]
    have hlast : [⟨"id", letterA, none, [], false⟩, ⟨"id", letterB, none, [], false⟩].findSome?
        (fun field : FieldInfo Ty =>
          if field.key = "id" then s.fieldValue? letters 8 .empty field else none) =
        some (.string "a") := by
      rw [List.findSome?_cons, ha]
      rfl
    exact fun heq => absurd (hlast.symm.trans heq) (by simp)

end Sampler

end Exemplar
