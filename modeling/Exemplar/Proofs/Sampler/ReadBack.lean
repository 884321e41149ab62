import Exemplar.Proofs.Json.Indented
import Exemplar.Proofs.Registry.Rules
import Exemplar.Proofs.Sampler.Fixed

/-!
# Exemplar.Proofs.Sampler.ReadBack

Samples are read back from their texts.  A sample repeats no keys if the values
of the registry do not, whatever characters the keys and texts in it have, so
it is legible if its doubles are.  The compact and the indented text of a sample
are read as the sample, if its brackets may all be open at once.

* `Sampler.value`, `Sampler.text` — the sample of a type, and its text;
* `distinctKeys_value` — samples repeat no keys;
* `read_text_eq_ok_iff` — reading samples back.
-/

namespace Exemplar

/-! ## keys -/

/-- Every operation on samples keeps keys different from each other. -/
theorem assembles_distinctKeys : Json.Assembles Json.DistinctKeys Json.DistinctKeys where
  keep _ h := h
  null := .null
  string text := .string text
  array _ h := .array h
  object _ hnodup h := .object hnodup h

namespace Sampler

/-- The sample of a type; null stands for no value. -/
def value (s : Sampler) (registry : Registry) (ty : Ty) : Json :=
  (((s.sample ty).run registry).1).getD .null

/-- The text of a sample. -/
def text (s : Sampler) (registry : Registry) (style : Style) (ty : Ty) : String :=
  (s.value registry ty).render style

section

variable {decls : List ClassDecl} {s : Sampler} {registry : Registry} {ty : Ty}

/-- Samples repeat no keys. -/
theorem distinctKeys_value (hbuild : ClassTable.build decls = .ok s.table)
    (hrules : registry.All (Registry.IsFixedWith Json.DistinctKeys)) :
    (s.value registry ty).DistinctKeys := by
  have hsample : Yields (Registry.All (Registry.IsFixedWith Json.DistinctKeys)) Json.DistinctKeys
      (s.sample ty) := by
    refine sampleAt_yields (Q := fun _ => Json.DistinctKeys) (fun _ => assembles_distinctKeys) ?_
      (fun text _ => Registry.lookup_yields_fixed text) _ _ _
    intro info hinfo field hfield value hvalue _
    obtain ⟨_, _, _, _, hinitial, hcheck⟩ :=
      exists_fieldDecl_of_initialValue? hbuild hinfo hfield hvalue
    exact ClassTable.scalar_of_checkInitializer hcheck hinitial .null .bool (fun n _ => .number n)
      .string
  rw [value]
  cases hrun : ((s.sample ty).run registry).1 with
  | none => exact .null
  | some value => exact (hsample registry hrules).2 value hrun

/-- **Samples are read back** from their texts in both styles, keys in order, if
their brackets may all be open at once and their doubles are read back. -/
theorem read_text_eq_ok_iff (hbuild : ClassTable.build decls = .ok s.table)
    (hrules : registry.All (Registry.IsFixedWith Json.DistinctKeys))
    (hdoubles : ∀ x ∈ (s.value registry ty).doubles, x.ReadsBack) (style : Style) :
    Json.read (s.text registry style ty) = .ok (s.value registry ty) ↔
      (s.value registry ty).nesting ≤ nestingLimit := by
  have hlegible := Json.legible_of_distinctKeys (distinctKeys_value hbuild hrules) hdoubles
  exact Json.read_render_eq_ok_iff hlegible style

end

/-! ## a key and a text with special characters -/

/-- A name in quotes, before a tab. -/
def quotedName : Marker :=
  ⟨"com.fasterxml.jackson.annotation.JsonProperty", [("value", "my \"text\"\t")]⟩

/-- A class with such a key, a text of two lines, and a list of amounts. -/
def letterInfo : ClassInfo where
  name := "Letter"
  simpleName := "Letter"
  kind := .ordinary
  typeParameters := []
  supertypes := []
  enumConstants := []
  fields := [
    ⟨"text", .named "java.lang.String" [], some (.string "one\ntwo"), [quotedName], false⟩,
    ⟨"amounts", .array (.primitive "double"), none, [], false⟩]
  enclosing := none

/-- Its declaration. -/
def letterDecl : ClassDecl where
  name := "Letter"
  kind := .ordinary
  typeParameters := []
  extended := []
  implemented := []
  enumConstants := []
  fields := [
    ⟨"text", "String", false, some (.string "one\ntwo"), [quotedName]⟩,
    ⟨"amounts", "double[]", false, none, []⟩]

/-- A rule for doubles. -/
def zeroRule : Registry := ⟨[("double", .fixed .doubleZero)]⟩

theorem value_letter : (Sampler.mk ⟨[letterInfo]⟩ .full).value zeroRule (.named "Letter" []) =
    .object [("my \"text\"\t", .string "one\ntwo"), ("amounts", .array [.doubleZero])] := by
  have hfixed : zeroRule.IsFixed := Registry.isFixed_of_forall (by decide)
  have hnone : zeroRule.answer? (.named "Letter" []) = none :=
    Registry.answer?_eq_none_of_rule? (by decide)
  have hplan : ∀ env, (Sampler.mk ⟨[letterInfo]⟩ .full).plan env (.named "Letter" []) =
      .object letterInfo.fields := by
    intro env
    have hcont : ClassTable.containerOf? ⟨[letterInfo]⟩ "Letter" 0 = none := by
      simp [ClassTable.containerOf?, ClassTable.libraryOrigin]
    rw [Sampler.plan_of_object rfl (Sampler.firstConstant?_eq_none _ (by decide)) hcont,
      ClassTable.allFields_of_supertypes_eq_nil rfl]
  rw [value, sample, maxDepth, run_sampleAt_of_plan hfixed hnone (hplan _)]
  rfl

theorem distinctKeys_zeroRule : zeroRule.All (Registry.IsFixedWith Json.DistinctKeys) := by
  intro name rule hrule
  have hentry : ∀ entry ∈ zeroRule.rules, entry.2 = .fixed .doubleZero := by simp [zeroRule]
  obtain ⟨entry, hfind, rfl⟩ := Option.map_eq_some_iff.mp hrule
  exact ⟨_, hentry entry (List.mem_of_find?_eq_some hfind), .number _⟩

/-- A letter is read back from both texts. -/
theorem read_text_letter :
    ClassTable.build [letterDecl] = .ok ⟨[letterInfo]⟩ ∧
      zeroRule.All (Registry.IsFixedWith Json.DistinctKeys) ∧
      ∀ style, Json.read ((Sampler.mk ⟨[letterInfo]⟩ .full).text zeroRule style
          (.named "Letter" [])) =
        .ok (.object [("my \"text\"\t", .string "one\ntwo"),
          ("amounts", .array [.doubleZero])]) := by
  have hbuild : ClassTable.build [letterDecl] = .ok ⟨[letterInfo]⟩ := by decide +kernel
  refine ⟨hbuild, distinctKeys_zeroRule, fun style => ?_⟩
  rw [← value_letter]
  refine (read_text_eq_ok_iff hbuild distinctKeys_zeroRule ?_ style).mpr ?_
  · rw [value_letter]
    intro x hx
    rw [List.mem_singleton.mp hx]
    exact readsBack_doubleZero
  · rw [value_letter]
    decide

end Sampler

end Exemplar
