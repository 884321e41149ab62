import Exemplar.Proofs.ClassTable.Initializer
import Exemplar.Proofs.Json.Entries
import Exemplar.Proofs.Sampler.Plan

/-!
# Exemplar.Proofs.Sampler.Values

What holds of all samples.  A sample is put together from the samples of parts
by few operations: a list, a null, a text, an object whose keys are different
from each other.  So a property of samples is shown by saying how it goes
through these operations (`Json.Assembles`), that initializers have it, and
that the registry's values have it; the depth that is left may count in the
property.

* `Sampler.Yields` — a computation keeps a property of the registry, and its
  value has a property;
* `Plan.run_yields` — one step;
* `sampleAt_yields` — all samples.
-/

namespace Exemplar

/-! ## values of plans -/

namespace Sampler

/-- A class token is a string. -/
theorem sampleToken_eq_some {s : Sampler} {env : Environment Ty} {target : Ty} {value : Json}
    (h : s.sampleToken env target = some value) : ∃ text, value = .string text := by
  cases target with
  | wildcard | bounded => contradiction
  | primitive | array | named | param => exact ⟨_, (Option.some.inj h).symm⟩

/-- A type that is not looked into has a text for its sample, or nothing in it. -/
theorem plan_eq_value {s : Sampler} {env : Environment Ty} {ty : Ty} {value : Json}
    (h : s.plan env ty = .value (some value)) :
    value = .null ∨ value = .array [] ∨ value = .object [] ∨ ∃ text, value = .string text := by
  cases ty with
  | primitive | wildcard | bounded | array => simp [plan] at h
  | param n => cases hfound : env.resolve n <;> simp [plan, hfound] at h
  | named name args =>
      rw [plan, planClass] at h
      split at h
      · cases h
        exact .inr (.inr (.inl rfl))
      · split at h
        · cases h
          exact .inr (.inr (.inr ⟨_, rfl⟩))
        · split at h
          · unfold planContainer at h
            split at h <;> try simp only [Plan.value.injEq, Option.some.injEq, reduceCtorEq] at h
            · exact .inr (.inl h.symm)
            · exact .inl h.symm
            · exact .inr (.inr (.inr (sampleToken_eq_some h)))
            · exact .inr (.inr (.inl h.symm))
          · contradiction

/-- The fields that are put into an object are those of a class, or none. -/
theorem plan_eq_object {s : Sampler} {env : Environment Ty} {ty : Ty}
    {fields : List (FieldInfo Ty)} (h : s.plan env ty = .object fields) :
    fields = [] ∨ ∃ info ∈ s.table.classes, fields = s.table.allFields info := by
  cases ty with
  | primitive | wildcard | bounded | array => contradiction
  | param n =>
      cases hfound : env.resolve n with
      | none =>
          rw [plan, hfound] at h
          cases h
          exact .inl rfl
      | some bound => simp [plan, hfound] at h
  | named name args =>
      rw [plan, planClass] at h
      split at h
      · contradiction
      · next info hinfo =>
          split at h
          · contradiction
          · split at h
            · unfold planContainer at h
              split at h <;> contradiction
            · cases h
              exact .inr ⟨info, ClassTable.mem_of_find? hinfo, rfl⟩

/-- A field's own value is the initializer of a declaration, and it passed the
check. -/
theorem exists_fieldDecl_of_initialValue? {decls : List ClassDecl} {table : ClassTable}
    (hbuild : ClassTable.build decls = .ok table) {info : ClassInfo} (hinfo : info ∈ table.classes)
    {field : FieldInfo Ty} (hfield : field ∈ table.allFields info) {value : Json}
    (hvalue : value ∈ field.initialValue?) :
    ∃ decl ∈ decls, ∃ fieldDecl ∈ decl.fields, fieldDecl.initializer = some value ∧
      ClassTable.checkInitializer decl.name fieldDecl = .ok () := by
  obtain ⟨decl, hdecl, fieldDecl, hmem, hinitial, hcheck⟩ :=
    ClassTable.exists_fieldDecl_of_mem_allFields hbuild hinfo hfield
  refine ⟨decl, hdecl, fieldDecl, hmem, hinitial.trans ?_, hcheck⟩
  rw [FieldInfo.initialValue?] at hvalue
  split at hvalue
  · contradiction
  · contradiction
  · next found _ hfound =>
      cases hvalue
      exact hfound

end Sampler

/-! ## properties of samples -/

/-- Values with one property are put together to values with another. -/
structure Json.Assembles (Q Q' : Json → Prop) : Prop where
  keep : ∀ value, Q value → Q' value
  null : Q .null
  string : ∀ text, Q' (.string text)
  array : ∀ items, (∀ item ∈ items, Q item) → Q' (.array items)
  object : ∀ entries : List (String × Json), (entries.map (·.1)).Nodup →
    (∀ entry ∈ entries, Q entry.2) → Q' (.object entries)

namespace Sampler

/-- A computation of a sample keeps a property of the registry, and its value
has a property. -/
def Yields (P : Registry → Prop) (Q : Json → Prop) (sampling : Sampling) : Prop :=
  ∀ r, P r → P (sampling.run r).2 ∧ ∀ value ∈ (sampling.run r).1, Q value

section

variable {P : Registry → Prop} {Q Q' : Json → Prop} {step : Ty → Sampling}

theorem yields_return {found : Option Json} (h : ∀ value ∈ found, Q value) :
    Yields P Q (return found) := fun _ hr => ⟨hr, h⟩

/-- What is made of a sample. -/
theorem Yields.map {sampling : Sampling} (h : Yields P Q sampling) {f : Option Json → Option Json}
    (hf : ∀ found : Option Json, (∀ value ∈ found, Q value) → ∀ value ∈ f found, Q' value) :
    Yields P Q' (do return f (← sampling)) := by
  intro r hr
  obtain ⟨hkeep, hvalue⟩ := h r hr
  exact ⟨hkeep, hf _ hvalue⟩

/-- A rule as the last resort yields what it and the sample yield. -/
theorem Yields.orElse {ty : Ty} {sampling : Sampling} (hrule : Yields P Q (Registry.lookup ty.text))
    (h : Yields P Q sampling) : Yields P Q (orElse ty sampling) := by
  intro r hr
  obtain ⟨hkeep, hvalue⟩ := hrule r hr
  rw [Sampler.orElse, StateT.run_bind]
  cases hrun : (Registry.lookup ty.text).run r with
  | mk found r₁ =>
      rw [hrun] at hkeep hvalue
      cases found with
      | none => exact h r₁ hkeep
      | some value => exact ⟨hkeep, hvalue⟩

/-- A rule before the sample does so, too. -/
theorem Yields.withRule {ty : Ty} {sampling : Sampling}
    (hrule : Yields P Q (Registry.lookup ty.text)) (h : Yields P Q sampling) :
    Yields P Q (withRule ty sampling) := by
  rw [Sampler.withRule]
  split
  · exact hrule.orElse h
  · exact h

/-! ## one step -/

/-- The entries for fields have different keys, and each holds an initializer
or a sample. -/
theorem sampleFields_yields {fields : List (FieldInfo Ty)}
    (hstep : ∀ ty ∈ sampledTypes fields, Yields P Q (step ty))
    (hinitial : ∀ field ∈ fields, ∀ value ∈ field.initialValue?, Q value) :
    ∀ entries, (entries.map (·.1)).Nodup → (∀ entry ∈ entries, Q entry.2) → ∀ r, P r →
      P ((sampleFields step fields entries).run r).2 ∧
      ∀ found ∈ ((sampleFields step fields entries).run r).1,
        (found.map (·.1)).Nodup ∧ ∀ entry ∈ found, Q entry.2 := by
  induction fields with
  | nil =>
      intro entries hnodup hentries r hr
      refine ⟨hr, fun found hfound => ?_⟩
      cases hfound
      exact ⟨hnodup, hentries⟩
  | cons field rest ih =>
      intro entries hnodup hentries r hr
      have hput : ∀ value, Q value → ∀ entry ∈ Json.insertEntry field.key value entries,
          Q entry.2 := by
        intro value hvalue entry hentry
        obtain rfl | hentry := Json.mem_insertEntry hentry
        · exact hvalue
        · exact hentries entry hentry
      obtain ⟨hfield, hinitial⟩ := List.forall_mem_cons.mp hinitial
      cases hs : field.isStatic with
      | true =>
          rw [run_sampleFields_of_isStatic hs]
          exact ⟨hr, fun found hfound => by contradiction⟩
      | false =>
          cases hv : field.initialValue? with
          | some value =>
              rw [sampledTypes_of_eq_some hs hv] at hstep
              rw [run_sampleFields_of_eq_some hs hv]
              exact ih hstep hinitial _ (Json.nodup_insertEntry hnodup)
                (hput value (hfield value hv)) r hr
          | none =>
              rw [sampledTypes_of_eq_none hs hv] at hstep
              obtain ⟨hsampled, hstep⟩ := List.forall_mem_cons.mp hstep
              obtain ⟨hkeep, hvalue⟩ := hsampled r hr
              rw [run_sampleFields_of_eq_none hs hv]
              cases hfound : ((step field.type).run r).1 with
              | none => exact ih hstep hinitial entries hnodup hentries _ hkeep
              | some value =>
                  exact ih hstep hinitial _ (Json.nodup_insertEntry hnodup)
                    (hput value (hvalue value hfound)) _ hkeep

/-- An object yields what its parts are assembled to. -/
theorem sampleObject_yields (hQ : Json.Assembles Q Q') {fields : List (FieldInfo Ty)}
    (hstep : ∀ ty ∈ sampledTypes fields, Yields P Q (step ty))
    (hinitial : ∀ field ∈ fields, ∀ value ∈ field.initialValue?, Q value) (isRoot : Bool) :
    Yields P Q' (sampleObject step isRoot fields) := by
  intro r hr
  rw [sampleObject]
  split
  · exact ⟨hr, fun value hvalue => by contradiction⟩
  · obtain ⟨hkeep, hfound⟩ := sampleFields_yields hstep hinitial [] List.nodup_nil
      (fun _ h => absurd h List.not_mem_nil) r hr
    refine ⟨hkeep, fun value hvalue => ?_⟩
    obtain ⟨found, hmem, rfl⟩ := Option.map_eq_some_iff.mp hvalue
    exact hQ.object found (hfound found hmem).1 (hfound found hmem).2

end

end Sampler

/-- **One step**: what the samples of the parts are like says what the plan's
value is like. -/
theorem Plan.run_yields {P : Registry → Prop} {Q Q' : Json → Prop} {step : Ty → Sampling}
    (hQ : Json.Assembles Q Q') {plan : Plan}
    (hvalue : ∀ value, plan = .value (some value) → Q' value)
    (hinitial : ∀ fields, plan = .object fields →
      ∀ field ∈ fields, ∀ value ∈ field.initialValue?, Q value)
    (hstep : ∀ ty ∈ plan.parts, Sampler.Yields P Q (step ty)) (isRoot : Bool) :
    Sampler.Yields P Q' (plan.run step isRoot) := by
  have hgetD : ∀ found : Option Json, (∀ value ∈ found, Q value) → Q (found.getD .null) := by
    intro found hfound
    cases found with
    | none => exact hQ.null
    | some value => exact hfound value rfl
  cases plan with
  | value found => exact Sampler.yields_return fun value h => hvalue value (congrArg _ h)
  | list item =>
      refine (hstep item (List.mem_singleton_self item)).map fun found hfound value h => ?_
      cases h
      exact hQ.array _ fun item hitem => hfound item (Option.mem_toList.mp hitem)
  | optional inner =>
      refine (hstep inner (List.mem_singleton_self inner)).map fun found hfound value h => ?_
      cases h
      exact hQ.keep _ (hgetD found hfound)
  | map item =>
      refine (hstep item (List.mem_singleton_self item)).map fun found hfound value h => ?_
      cases h
      refine hQ.object _ (List.nodup_singleton _) fun entry hentry => ?_
      rw [List.mem_singleton.mp hentry]
      exact hgetD found hfound
  | bound ty =>
      intro r hr
      obtain ⟨hkeep, hfound⟩ := hstep ty (List.mem_singleton_self ty) r hr
      exact ⟨hkeep, fun value h => hQ.keep value (hfound value h)⟩
  | object fields => exact Sampler.sampleObject_yields hQ hstep (hinitial fields rfl) isRoot

namespace Sampler

/-- **All samples**: a property that goes through every operation, and that
initializers and the registry's values have, is a property of all samples. -/
theorem sampleAt_yields {s : Sampler} {P : Registry → Prop} {Q : Nat → Json → Prop}
    (hQ : ∀ left, Json.Assembles (Q left) (Q (left + 1)))
    (hinitial : ∀ info ∈ s.table.classes, ∀ field ∈ s.table.allFields info,
      ∀ value ∈ field.initialValue?, ∀ left, Q left value)
    (hrule : ∀ text left, Yields P (Q (left + 1)) (Registry.lookup text)) (left : Nat) (ty : Ty)
    (env : Environment Ty) : Yields P (Q left) (s.sampleAt left ty env) := by
  induction left generalizing ty env with
  | zero => exact yields_return fun _ h => by contradiction
  | succ left ih =>
      rw [sampleAt_succ]
      refine (hrule ty.text left).withRule
        (Plan.run_yields (hQ left) ?_ ?_ (fun part _ => ih part _) _)
      · intro value hplan
        obtain rfl | rfl | rfl | ⟨text, rfl⟩ := plan_eq_value hplan
        · exact (hQ left).keep _ (hQ left).null
        · exact (hQ left).array [] fun _ h => absurd h List.not_mem_nil
        · exact (hQ left).object [] List.nodup_nil fun _ h => absurd h List.not_mem_nil
        · exact (hQ left).string text
      · intro fields hplan field hfield value hvalue
        obtain rfl | ⟨info, hinfo, rfl⟩ := plan_eq_object hplan
        · contradiction
        · exact hinitial info hinfo field hfield value hvalue left

end Sampler

end Exemplar
