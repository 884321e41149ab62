import Exemplar.Proofs.Json.Pruning
import Exemplar.Proofs.Sampler.Closed
import Exemplar.Proofs.Sampler.Fixed
import Exemplar.Proofs.Sampler.Values

/-!
# Exemplar.Proofs.Sampler.Pruning

What less depth does to a sample.  Where the depth ends, a list is left empty,
a map and an optional value hold null, an object has no entry for the field,
and a parameter has no value; so a sample with less depth is one with more
depth, with parts cut off.

* `Plan.run_pruning` — one step: parts with something cut off are put together
  to a value with something cut off;
* `pruning_sampleAt` — all samples, with fixed rules and different keys in
  each class.
-/

namespace Exemplar

/-! ## what stands in the place of a missing value -/

section

variable {found found' : Option Json}

/-- An optional value and the entry of a map are null without a value. -/
theorem Json.PruningOption.getD_null (h : PruningOption found found') :
    Pruning (found.getD .null) (found'.getD .null) := by
  cases found with
  | none => exact .null _
  | some value =>
      obtain ⟨value', hvalue', hpruning⟩ := h value rfl
      rw [Option.mem_def.mp hvalue']
      exact hpruning

/-- A list is empty without an item. -/
theorem Json.PruningOption.listOf (h : PruningOption found found') :
    Pruning (Sampler.listOf found) (Sampler.listOf found') := by
  cases found with
  | none => exact .empty _
  | some value =>
      obtain ⟨value', hvalue', hpruning⟩ := h value rfl
      rw [Option.mem_def.mp hvalue']
      exact .item hpruning

end

/-! ## one step -/

namespace Sampler

/-- From a registry that both leave as it is, the first computation gives the
value of the second one with parts cut off. -/
structure Cuts (r : Registry) (cut whole : Sampling) : Prop where
  keeps : (cut.run r).2 = r
  keeps_whole : (whole.run r).2 = r
  pruning : Json.PruningOption (cut.run r).1 (whole.run r).1

section

variable {r : Registry} {step step' : Ty → Sampling}

/-- The entries for fields with different keys.  A field without a value is
left out on one side or on both, and what comes after it keeps its place. -/
theorem sampleFields_pruning {fields : List (FieldInfo Ty)}
    (hstep : ∀ ty ∈ sampledTypes fields, Cuts r (step ty) (step' ty)) :
    ∀ {entries entries' : List (String × Json)},
      (entries'.map (·.1) ++ fields.map (·.key)).Nodup → Json.PruningEntries entries entries' →
      ∀ found ∈ ((sampleFields step fields entries).run r).1,
        ∃ found' ∈ ((sampleFields step' fields entries').run r).1,
          Json.PruningEntries found found' := by
  induction fields with
  | nil =>
      intro entries entries' _ hentries found hfound
      cases hfound
      exact ⟨entries', rfl, hentries⟩
  | cons field rest ih =>
      intro entries entries' hnodup hentries
      -- the key of the field is used up, whether the whole has a value for it or not
      have hnew := Json.not_mem_of_nodup_append hnodup
      have hskip := (List.nodup_cons.mp (List.nodup_middle.mp hnodup)).2
      have hput := Json.nodup_insertEntry_append hnodup
      cases hs : field.isStatic with
      | true =>
          rw [run_sampleFields_of_isStatic hs]
          intro found hfound
          contradiction
      | false =>
          cases hv : field.initialValue? with
          | some value =>
              rw [sampledTypes_of_eq_some hs hv] at hstep
              rw [run_sampleFields_of_eq_some hs hv, run_sampleFields_of_eq_some hs hv]
              exact ih hstep (hput value) (hentries.insertEntry hnew (.refl value))
          | none =>
              rw [sampledTypes_of_eq_none hs hv] at hstep
              obtain ⟨⟨hcut, hwhole, hpruning⟩, hstep⟩ := List.forall_mem_cons.mp hstep
              rw [run_sampleFields_of_eq_none hs hv, run_sampleFields_of_eq_none hs hv, hcut,
                hwhole]
              cases hvalue : ((step field.type).run r).1 with
              | none =>
                  cases ((step' field.type).run r).1 with
                  | none => exact ih hstep hskip hentries
                  | some whole =>
                      exact ih hstep (hput whole) (hentries.insertEntry_right hnew whole)
              | some value =>
                  obtain ⟨whole, hmem, hcuts⟩ := hpruning value hvalue
                  rw [show ((step' field.type).run r).1 = some whole from hmem]
                  exact ih hstep (hput whole) (hentries.insertEntry hnew hcuts)

/-- An object; where the sample with less depth is a root, the other one is. -/
theorem sampleObject_pruning {fields : List (FieldInfo Ty)}
    (hkeys : (fields.map (·.key)).Nodup)
    (hstep : ∀ ty ∈ sampledTypes fields, Cuts r (step ty) (step' ty))
    {isRoot isRoot' : Bool} (hroot : isRoot = true → isRoot' = true) :
    Json.PruningOption ((sampleObject step isRoot fields).run r).1
      ((sampleObject step' isRoot' fields).run r).1 := by
  intro value hvalue
  rw [sampleObject] at hvalue ⊢
  by_cases hnone : fields.isEmpty = true ∧ ¬ isRoot = true
  · rw [if_pos hnone] at hvalue
    contradiction
  · have hnone' : ¬ (fields.isEmpty = true ∧ ¬ isRoot' = true) := fun h =>
      hnone ⟨h.1, fun hr => h.2 (hroot hr)⟩
    rw [if_neg hnone] at hvalue
    rw [if_neg hnone']
    obtain ⟨found, hmem, rfl⟩ := Option.map_eq_some_iff.mp hvalue
    have hkeys' : (([] : List (String × Json)).map (·.1) ++ fields.map (·.key)).Nodup := hkeys
    obtain ⟨found', hmem', hfound⟩ := sampleFields_pruning hstep hkeys' .nil found hmem
    exact ⟨.object found', Option.map_eq_some_iff.mpr ⟨found', hmem', rfl⟩, .object hfound⟩

end

end Sampler

/-- **One step**: parts with something cut off are put together to a value
with something cut off. -/
theorem Plan.run_pruning {r : Registry} {step step' : Ty → Sampling} {plan : Plan}
    (hkeys : ∀ fields, plan = .object fields → (fields.map (·.key)).Nodup)
    (hstep : ∀ ty ∈ plan.parts, Sampler.Cuts r (step ty) (step' ty))
    {isRoot isRoot' : Bool} (hroot : isRoot = true → isRoot' = true) :
    Json.PruningOption ((plan.run step isRoot).run r).1 ((plan.run step' isRoot').run r).1 := by
  cases plan with
  | value v => exact Json.PruningOption.refl v
  | list item =>
      have hitem := (hstep item (List.mem_singleton_self item)).pruning
      intro value hvalue
      cases hvalue
      exact ⟨_, rfl, hitem.listOf⟩
  | optional inner =>
      have hinner := (hstep inner (List.mem_singleton_self inner)).pruning
      intro value hvalue
      cases hvalue
      exact ⟨_, rfl, hinner.getD_null⟩
  | map item =>
      have hitem := (hstep item (List.mem_singleton_self item)).pruning
      intro value hvalue
      cases hvalue
      exact ⟨_, rfl, .object (.keep hitem.getD_null .nil)⟩
  | bound ty => exact (hstep ty (List.mem_singleton_self ty)).pruning
  | object fields => exact Sampler.sampleObject_pruning (hkeys fields rfl) hstep hroot

namespace Sampler

/-! ## samples -/

section

variable {s : Sampler} {registry : Registry}

/-- All samples, by the depth that is left. -/
theorem pruning_sampleAt_of_le
    (hkeys : ∀ info ∈ s.table.classes, ((s.table.allFields info).map (·.key)).Nodup)
    (hfixed : registry.IsFixed) {left left' : Nat} (hle : left ≤ left') (hmax : left' ≤ maxDepth)
    (ty : Ty) (env : Environment Ty) :
    Json.PruningOption ((s.sampleAt left ty env).run registry).1
      ((s.sampleAt left' ty env).run registry).1 := by
  induction left generalizing left' ty env with
  | zero =>
      intro value hvalue
      contradiction
  | succ left ih =>
      obtain ⟨left', rfl⟩ : ∃ n, left' = n + 1 := ⟨left' - 1, by omega⟩
      rw [sampleAt_succ, sampleAt_succ, run_withRule hfixed, run_withRule hfixed]
      cases registry.answer? ty with
      | some value => exact Json.PruningOption.refl (some value)
      | none =>
          refine Plan.run_pruning (fun fields hplan => ?_) (fun part _ => ?_) fun hroot => ?_
          · obtain rfl | ⟨info, hinfo, rfl⟩ := plan_eq_object hplan
            · exact List.nodup_nil
            · exact hkeys info hinfo
          · exact ⟨run_sampleAt_snd s hfixed _ _ _, run_sampleAt_snd s hfixed _ _ _,
              ih (by omega) (by omega) part _⟩
          · have hdepth := of_decide_eq_true hroot
            exact decide_eq_true (by omega)

/-- **Less depth only prunes**: where no class has two fields with one key and
all rules are fixed values, the sample of a type further down is the sample
further up with parts cut off, and there is none where there is none further
up. -/
theorem pruning_sampleAt
    (hkeys : ∀ info ∈ s.table.classes, ((s.table.allFields info).map (·.key)).Nodup)
    (hfixed : registry.IsFixed) {depth depth' : Nat} (hle : depth ≤ depth') (ty : Ty)
    (env : Environment Ty) :
    Json.PruningOption ((s.sampleAt (maxDepth - depth') ty env).run registry).1
      ((s.sampleAt (maxDepth - depth) ty env).run registry).1 :=
  pruning_sampleAt_of_le hkeys hfixed (Nat.sub_le_sub_left hle maxDepth)
    (Nat.sub_le maxDepth depth) ty env

/-- Pages within a page, two steps before the end and one step before it. -/
theorem pruning_sampleAt_page :
    (∀ info ∈ pageTable.classes, ((pageTable.allFields info).map (·.key)).Nodup) ∧
    Registry.empty.IsFixed ∧ 198 ≤ 199 ∧
      let s : Sampler := ⟨pageTable, .full⟩
      let page : Ty := .named "Page" [.named "Page" []]
      Json.PruningOption
        ((s.sampleAt (maxDepth - 199) page (s.environmentFor page .empty)).run .empty).1
        ((s.sampleAt (maxDepth - 198) page (s.environmentFor page .empty)).run .empty).1 := by
  have hkeys : ∀ info ∈ pageTable.classes,
      ((pageTable.allFields info).map (·.key)).Nodup := by
    intro info hinfo
    rw [List.mem_singleton.mp hinfo, ClassTable.allFields_of_supertypes_eq_nil rfl]
    decide
  have hfixed : Registry.empty.IsFixed :=
    Registry.isFixed_of_forall fun entry h => absurd h List.not_mem_nil
  refine ⟨hkeys, hfixed, by decide, ?_⟩
  exact pruning_sampleAt (s := ⟨pageTable, .full⟩) hkeys hfixed (by decide) _ _

end

end Sampler

end Exemplar
