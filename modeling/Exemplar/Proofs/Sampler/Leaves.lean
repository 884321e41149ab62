import Exemplar.Proofs.Sampler.Shape

/-!
# Exemplar.Proofs.Sampler.Leaves

Where the rules of a registry stand in a sample, and in which order they are
asked.  Which rules are asked does not depend on what they answer, so a sample
is a `Template`: a value in which some places are left to the rules.  Rules are
asked for these places one after the other in the order of the text, once for
each, if every field that is looked into keeps its place in its object; that is
so where no field is static and no two fields of a class have one key.

* `Template.fill` — rules are asked from left to right;
* `Plan.exists_template` — one step;
* `sampleAt_exists_template` — all samples;
* `sampleAt_counter` — the numbers of a counter are the numbers at its places.
-/

namespace Exemplar

/-- A value with places for the values of rules. -/
inductive Template where
  | value (value : Json)
  | answer (name : String)
  | array (items : List Template)
  | object (entries : List (String × Template))

/-! ## asking rules -/

namespace Registry

/-- The value of the rule of a name, which goes on to its next value. -/
def take (name : String) : StateM Registry Json := fun registry =>
  match registry.rule? name with
  | none => (.null, registry)
  | some rule => (rule.value, registry.register name rule.next)

section

variable {registry r : Registry} {name : String} {rule : Rule}

/-- A name with a rule gives its value, and the rule goes on. -/
theorem run_take_of_eq_some (h : registry.rule? name = some rule) :
    (take name).run registry = (rule.value, registry.register name rule.next) := by
  show take name registry = _
  rw [take, h]

theorem run_take_of_eq_none (h : registry.rule? name = none) :
    (take name).run registry = (.null, registry) := by
  show take name registry = _
  rw [take, h]

/-- A new rule for a name that has one. -/
theorem SameNames.register (h : registry.SameNames r) (hname : r.rule? name = some rule)
    (rule' : Rule) : registry.SameNames (r.register name rule') := by
  intro other
  rw [h other, contains, contains, rule?_register]
  split
  · next heq => rw [← heq, hname]; rfl
  · rfl

/-- Taking a value keeps the names. -/
theorem SameNames.take (h : registry.SameNames r) (name : String) :
    registry.SameNames ((Registry.take name).run r).2 := by
  cases hrule : r.rule? name with
  | none => rw [run_take_of_eq_none hrule]; exact h
  | some rule => rw [run_take_of_eq_some hrule]; exact h.register hrule rule.next

end

end Registry

namespace Template

mutual

/-- The value, with the places filled from left to right. -/
def fill : Template → StateM Registry Json
  | value v => return v
  | answer name => Registry.take name
  | array items => return .array (← fillItems items)
  | object entries => return .object (← fillEntries entries)

/-- The items, with the places filled from left to right. -/
def fillItems : List Template → StateM Registry (List Json)
  | [] => return []
  | item :: rest => return (← item.fill) :: (← fillItems rest)

/-- The entries, with the places filled from left to right. -/
def fillEntries : List (String × Template) → StateM Registry (List (String × Json))
  | [] => return []
  | (key, item) :: rest => return (key, ← item.fill) :: (← fillEntries rest)

end

/-- The value of a template, if there is one. -/
def sampling : Option Template → Sampling
  | none => return none
  | some template => return some (← template.fill)

/-! ### names stay -/

section

variable {registry : Registry}

mutual

/-- Asking rules keeps the names that have one. -/
theorem sameNames_fill : (template : Template) → {r : Registry} → registry.SameNames r →
    registry.SameNames (template.fill.run r).2
  | value _, _, h => h
  | answer name, _, h => h.take name
  | array items, _, h => sameNames_fillItems items h
  | object entries, _, h => sameNames_fillEntries entries h

theorem sameNames_fillItems : (items : List Template) → {r : Registry} → registry.SameNames r →
    registry.SameNames ((fillItems items).run r).2
  | [], _, h => h
  | item :: rest, _, h => sameNames_fillItems rest (sameNames_fill item h)

theorem sameNames_fillEntries : (entries : List (String × Template)) → {r : Registry} →
    registry.SameNames r → registry.SameNames ((fillEntries entries).run r).2
  | [], _, h => h
  | (_, item) :: rest, _, h => sameNames_fillEntries rest (sameNames_fill item h)

end

end

end Template

/-! ## one step -/

/-- Fields with different keys, none of which is static. -/
structure Plain (fields : List (FieldInfo Ty)) : Prop where
  isStatic : ∀ field ∈ fields, field.isStatic = false
  keys : (fields.map (·.key)).Nodup

namespace Sampler

/-- With all registries that have rules for the same names, the computation
fills the template. -/
def HasTemplate (registry : Registry) (computation : Sampling) (template : Option Template) :
    Prop :=
  ∀ r, registry.SameNames r → computation.run r = (Template.sampling template).run r

section

variable {registry : Registry} {step : Ty → Sampling}

/-- The entries for fields with different keys. -/
theorem sampleFields_exists_template {fields : List (FieldInfo Ty)}
    (hstatic : ∀ field ∈ fields, field.isStatic = false)
    (hstep : ∀ ty ∈ sampledTypes fields, ∃ template, HasTemplate registry (step ty) template) :
    ∃ items : List (String × Template), ∀ entries : List (String × Json),
      (entries.map (·.1) ++ fields.map (·.key)).Nodup → ∀ r, registry.SameNames r →
        (sampleFields step fields entries).run r =
          (some (entries ++ ((Template.fillEntries items).run r).1),
            ((Template.fillEntries items).run r).2) := by
  induction fields with
  | nil =>
      refine ⟨[], fun entries _ r _ => ?_⟩
      exact congrArg (fun found => (some found, r)) (List.append_nil entries).symm
  | cons field rest ih =>
      obtain ⟨hs, hstatic⟩ := List.forall_mem_cons.mp hstatic
      cases hv : field.initialValue? with
      | some value =>
          rw [sampledTypes_of_eq_some hs hv] at hstep
          obtain ⟨items, hitems⟩ := ih hstatic hstep
          refine ⟨(field.key, .value value) :: items, fun entries hnodup r hr => ?_⟩
          have hput := Json.nodup_insertEntry_append hnodup value
          rw [run_sampleFields_of_eq_some hs hv, hitems _ hput r hr,
            Json.insertEntry_of_not_mem (Json.not_mem_of_nodup_append hnodup), List.append_assoc]
          rfl
      | none =>
          rw [sampledTypes_of_eq_none hs hv] at hstep
          obtain ⟨⟨template, hfield⟩, hstep⟩ := List.forall_mem_cons.mp hstep
          obtain ⟨items, hitems⟩ := ih hstatic hstep
          cases template with
          | none =>
              refine ⟨items, fun entries hnodup r hr => ?_⟩
              have hskip := (List.nodup_cons.mp (List.nodup_middle.mp hnodup)).2
              rw [run_sampleFields_of_eq_none hs hv, hfield r hr]
              exact hitems entries hskip r hr
          | some template =>
              refine ⟨(field.key, template) :: items, fun entries hnodup r hr => ?_⟩
              have hput := Json.nodup_insertEntry_append hnodup (template.fill.run r).1
              have hrest := hitems _ hput _ (Template.sameNames_fill template hr)
              rw [run_sampleFields_of_eq_none hs hv, hfield r hr]
              refine hrest.trans ?_
              rw [Json.insertEntry_of_not_mem (Json.not_mem_of_nodup_append hnodup),
                List.append_assoc]
              rfl

/-- An object has a template if its parts have. -/
theorem sampleObject_exists_template {fields : List (FieldInfo Ty)} (hplain : Plain fields)
    (hstep : ∀ ty ∈ sampledTypes fields, ∃ template, HasTemplate registry (step ty) template)
    (isRoot : Bool) :
    ∃ template, HasTemplate registry (sampleObject step isRoot fields) template := by
  by_cases hnone : fields.isEmpty = true ∧ ¬ isRoot = true
  · refine ⟨none, fun r _ => ?_⟩
    rw [sampleObject, if_pos hnone]
    rfl
  · obtain ⟨items, hitems⟩ := sampleFields_exists_template hplain.isStatic hstep
    refine ⟨some (.object items), fun r hr => ?_⟩
    rw [sampleObject, if_neg hnone, StateT.run_bind, hitems [] hplain.keys r hr]
    rfl

end

end Sampler

/-- **One step**: templates of the parts are put together to a template. -/
theorem Plan.exists_template {registry : Registry} {step : Ty → Sampling} {plan : Plan}
    (hplain : ∀ fields, plan = .object fields → Plain fields)
    (hstep : ∀ ty ∈ plan.parts, ∃ template, Sampler.HasTemplate registry (step ty) template)
    (isRoot : Bool) : ∃ template, Sampler.HasTemplate registry (plan.run step isRoot) template := by
  cases plan with
  | value v =>
      refine ⟨v.map .value, fun r _ => ?_⟩
      cases v <;> rfl
  | list item =>
      obtain ⟨template, hitem⟩ := hstep item (List.mem_singleton_self item)
      refine ⟨some (.array template.toList), fun r hr => ?_⟩
      rw [run, StateT.run_bind, hitem r hr]
      cases template <;> rfl
  | optional inner =>
      obtain ⟨template, hinner⟩ := hstep inner (List.mem_singleton_self inner)
      refine ⟨some (template.getD (.value .null)), fun r hr => ?_⟩
      rw [run, StateT.run_bind, hinner r hr]
      cases template <;> rfl
  | map item =>
      obtain ⟨template, hitem⟩ := hstep item (List.mem_singleton_self item)
      refine ⟨some (.object [(mapKey, template.getD (.value .null))]), fun r hr => ?_⟩
      rw [run, StateT.run_bind, hitem r hr]
      cases template <;> rfl
  | bound ty => exact hstep ty (List.mem_singleton_self ty)
  | object fields => exact Sampler.sampleObject_exists_template (hplain fields rfl) hstep isRoot

namespace Sampler

/-! ## samples -/

/-- A rule that answers is a place of its own. -/
theorem withRule_exists_template {registry : Registry} {computation : Sampling} (ty : Ty)
    (h : ∃ template, HasTemplate registry computation template) :
    ∃ template, HasTemplate registry (withRule ty computation) template := by
  unfold withRule orElse
  split
  · cases hname : registry.contains (rawName ty.text) with
    | true =>
        refine ⟨some (.answer (rawName ty.text)), fun r hr => ?_⟩
        obtain ⟨rule, hrule⟩ :=
          Option.isSome_iff_exists.mp ((hr (rawName ty.text)).symm.trans hname)
        have htake : (Template.answer (rawName ty.text)).fill.run r =
            (rule.value, r.register (rawName ty.text) rule.next) :=
          Registry.run_take_of_eq_some hrule
        rw [StateT.run_bind, Registry.run_lookup_of_eq_some hrule, Template.sampling,
          StateT.run_bind, htake]
        rfl
    | false =>
        obtain ⟨template, htemplate⟩ := h
        refine ⟨template, fun r hr => ?_⟩
        have hrule : r.rule? (rawName ty.text) = none :=
          Option.isNone_iff_eq_none.mp
            (Option.isSome_eq_false_iff.mp ((hr (rawName ty.text)).symm.trans hname))
        rw [StateT.run_bind, Registry.run_lookup_of_eq_none hrule]
        exact htemplate r hr
  · exact h

/-- **Every sample fills a template**, the same with all registries that have
rules for the same names. -/
theorem sampleAt_exists_template {s : Sampler}
    (hplain : ∀ info ∈ s.table.classes, Plain (s.table.allFields info)) (registry : Registry)
    (left : Nat) (ty : Ty) (env : Environment Ty) :
    ∃ template, HasTemplate registry (s.sampleAt left ty env) template := by
  induction left generalizing ty env with
  | zero => exact ⟨none, fun _ _ => rfl⟩
  | succ left ih =>
      rw [sampleAt_succ]
      refine withRule_exists_template ty (Plan.exists_template (fun fields hplan => ?_)
        (fun part _ => ih part _) _)
      obtain rfl | ⟨info, hinfo, rfl⟩ := plan_eq_object hplan
      · exact ⟨fun _ h => absurd h List.not_mem_nil, List.nodup_nil⟩
      · exact hplain info hinfo

end Sampler

/-! ## counters -/

namespace Template

mutual

/-- The values at the places of a name in a value, in the order of the text. -/
def leaves (name : String) : Template → Json → List Json
  | answer other, found => if other = name then [found] else []
  | array items, .array found => leavesOfItems name items found
  | object entries, .object found => leavesOfEntries name entries found
  | _, _ => []

/-- The values at the places of a name in items. -/
def leavesOfItems (name : String) : List Template → List Json → List Json
  | item :: rest, found :: others => item.leaves name found ++ leavesOfItems name rest others
  | _, _ => []

/-- The values at the places of a name in entries. -/
def leavesOfEntries (name : String) : List (String × Template) → List (String × Json) → List Json
  | (_, item) :: rest, (_, found) :: others =>
    item.leaves name found ++ leavesOfEntries name rest others
  | _, _ => []

end

/-- The values at the places of a name in a sample; none if there is no sample. -/
def leaves? (name : String) : Option Template → Option Json → List Json
  | some template, some found => template.leaves name found
  | _, _ => []

end Template

/-- Numbers that a counter gives, one after the other. -/
def counted (next : Int) (count : Nat) : List Json :=
  (List.range count).map fun (i : Nat) => .ofInt (next + i)

/-- Counting on from where the count has come. -/
theorem counted_add (next : Int) (m n : Nat) :
    counted next (m + n) = counted next m ++ counted (next + m) n := by
  rw [counted, counted, counted, List.range_add, List.map_append, List.map_map]
  congr 1
  refine List.map_congr_left fun i _ => ?_
  rw [Function.comp_apply, Int.natCast_add, Int.add_assoc]

namespace Registry

/-- The registry with a counter for a name. -/
def counting (registry : Registry) (name : String) (next : Int) : Registry :=
  registry.register name (.counter next)

/-- Only the given name may have a counter. -/
def OnlyCounter (registry : Registry) (name : String) : Prop :=
  ∀ other next, registry.rule? other = some (.counter next) → other = name

/-- From a counter that is at a number, the values are the next numbers, each
once and in order, and the counter ends behind the last one. -/
def Counts (registry : Registry) (name : String) (next : Int) (values : List Json)
    (after : Registry) : Prop :=
  ∃ count : Nat, values = counted next count ∧ after = registry.counting name (next + count)

section

variable {registry : Registry} {name : String} {next : Int} {values : List Json}

theorem counts_nil (registry : Registry) (name : String) (next : Int) :
    registry.Counts name next [] (registry.counting name next) :=
  ⟨0, rfl, by rw [Int.natCast_zero, Int.add_zero]⟩

/-- One run after another counts on. -/
theorem Counts.append {after : Registry} (h : registry.Counts name next values after)
    {f : Registry → List Json × Registry}
    (hrest : ∀ next, registry.Counts name next (f (registry.counting name next)).1
      (f (registry.counting name next)).2) :
    registry.Counts name next (values ++ (f after).1) (f after).2 := by
  obtain ⟨m, rfl, rfl⟩ := h
  obtain ⟨n, hvalues, hafter⟩ := hrest (next + m)
  refine ⟨m + n, ?_, ?_⟩
  · rw [hvalues, counted_add]
  · rw [hafter, Int.natCast_add, Int.add_assoc]

/-- The later rule of a name counts. -/
theorem register_register (registry : Registry) (name : String) (rule rule' : Rule) :
    (registry.register name rule).register name rule' = registry.register name rule' :=
  congrArg Registry.mk (Json.insertEntry_insertEntry name rule rule' registry.rules)

/-- At its own name the counter gives its number, and elsewhere it stays. -/
theorem counts_take (honly : registry.OnlyCounter name) (other : String) (next : Int) :
    registry.Counts name next
      (if other = name then [((take other).run (registry.counting name next)).1] else [])
      ((take other).run (registry.counting name next)).2 := by
  have hrule := rule?_register registry name other (.counter next)
  by_cases hname : other = name
  · rw [if_pos hname.symm] at hrule
    rw [if_pos hname, counting, run_take_of_eq_some hrule, hname]
    exact ⟨1, by simp [counted, Rule.value], register_register registry name _ _⟩
  · rw [if_neg (Ne.symm hname)] at hrule
    have hstays : ((take other).run (registry.counting name next)).2 =
        registry.counting name next := by
      cases hfound : registry.rule? other with
      | none => rw [counting, run_take_of_eq_none (hrule.trans hfound)]
      | some rule =>
          rw [counting, run_take_of_eq_some (hrule.trans hfound)]
          cases rule with
          | fixed value => exact register_of_rule? (hrule.trans hfound)
          | counter next' => exact absurd (honly other next' hfound) hname
    rw [if_neg hname, hstays]
    exact counts_nil registry name next

end

end Registry

namespace Template

section

variable {registry : Registry} {name : String}

mutual

/-- **A counter counts the places of its name**, from left to right. -/
theorem counts_fill (honly : registry.OnlyCounter name) :
    (template : Template) → (next : Int) →
    registry.Counts name next
      (template.leaves name (template.fill.run (registry.counting name next)).1)
      (template.fill.run (registry.counting name next)).2
  | value _, next => registry.counts_nil name next
  | answer other, next => Registry.counts_take honly other next
  | array items, next => counts_fillItems honly items next
  | object entries, next => counts_fillEntries honly entries next

theorem counts_fillItems (honly : registry.OnlyCounter name) :
    (items : List Template) → (next : Int) →
    registry.Counts name next
      (leavesOfItems name items ((fillItems items).run (registry.counting name next)).1)
      ((fillItems items).run (registry.counting name next)).2
  | [], next => registry.counts_nil name next
  | item :: rest, next =>
      (counts_fill honly item next).append (f := fun r =>
        (leavesOfItems name rest ((fillItems rest).run r).1, ((fillItems rest).run r).2))
        (counts_fillItems honly rest)

theorem counts_fillEntries (honly : registry.OnlyCounter name) :
    (entries : List (String × Template)) → (next : Int) →
    registry.Counts name next
      (leavesOfEntries name entries ((fillEntries entries).run (registry.counting name next)).1)
      ((fillEntries entries).run (registry.counting name next)).2
  | [], next => registry.counts_nil name next
  | (_, item) :: rest, next =>
      (counts_fill honly item next).append (f := fun r =>
        (leavesOfEntries name rest ((fillEntries rest).run r).1, ((fillEntries rest).run r).2))
        (counts_fillEntries honly rest)

end

end

end Template

namespace Sampler

/-- **A counter is asked once for each of its places, in the order of the
text.**  Where no field is static and no two fields of a class have one key, a
sample fills a template, the same with all registries that have rules for the
same names.  If there is one counter among the rules, the values at its places
are the next numbers from where it stands, read from left to right, and it ends
behind the last one of them. -/
theorem sampleAt_counter {s : Sampler}
    (hplain : ∀ info ∈ s.table.classes, Plain (s.table.allFields info)) {registry : Registry}
    {name : String} {next : Int} (hcounter : registry.rule? name = some (.counter next))
    (honly : registry.OnlyCounter name) (left : Nat) (ty : Ty) (env : Environment Ty) :
    ∃ template, HasTemplate registry (s.sampleAt left ty env) template ∧ ∃ count : Nat,
      Template.leaves? name template ((s.sampleAt left ty env).run registry).1 =
        counted next count ∧
      ((s.sampleAt left ty env).run registry).2 =
        registry.register name (.counter (next + count)) := by
  obtain ⟨template, htemplate⟩ := sampleAt_exists_template hplain registry left ty env
  refine ⟨template, htemplate, ?_⟩
  have hstart : registry.counting name next = registry := Registry.register_of_rule? hcounter
  rw [htemplate registry fun _ => rfl]
  cases template with
  | none => exact ⟨0, rfl, by rw [Int.natCast_zero, Int.add_zero]; exact hstart.symm⟩
  | some template =>
      have hcounts := Template.counts_fill honly template next
      rw [hstart] at hcounts
      exact hcounts

/-- A branch has a number before its branches and one behind them. -/
def branchTable : ClassTable where
  classes := [{
    name := "Branch"
    simpleName := "Branch"
    kind := .ordinary
    typeParameters := []
    supertypes := []
    enumConstants := []
    fields := [⟨"first", .primitive "int", none, [], false⟩,
      ⟨"parts", .array (.named "Branch" []), none, [], false⟩,
      ⟨"last", .primitive "int", none, [], false⟩]
    enclosing := none }]

/-- Numbers of branches, from five on. -/
theorem sampleAt_counter_branch :
    let s : Sampler := ⟨branchTable, .full⟩
    let registry := Registry.empty.register "int" (.counter 5)
    (∀ info ∈ branchTable.classes, Plain (branchTable.allFields info)) ∧
      registry.rule? "int" = some (.counter 5) ∧ registry.OnlyCounter "int" ∧
      ∃ template, HasTemplate registry (s.sampleAt 4 (.named "Branch" []) .empty) template ∧
        ∃ count : Nat,
          Template.leaves? "int" template
            ((s.sampleAt 4 (.named "Branch" []) .empty).run registry).1 = counted 5 count ∧
          ((s.sampleAt 4 (.named "Branch" []) .empty).run registry).2 =
            registry.register "int" (.counter (5 + count)) := by
  intro s registry
  have hplain : ∀ info ∈ branchTable.classes, Plain (branchTable.allFields info) := by
    intro info hinfo
    rw [List.mem_singleton.mp hinfo, ClassTable.allFields_of_supertypes_eq_nil rfl]
    exact ⟨by decide, by decide⟩
  have honly : registry.OnlyCounter "int" := by
    intro other next hrule
    rw [Registry.rule?_register] at hrule
    by_contra hne
    rw [if_neg (Ne.symm hne)] at hrule
    contradiction
  have hcounter : registry.rule? "int" = some (.counter 5) := rfl
  exact ⟨hplain, hcounter, honly,
    sampleAt_counter (s := s) hplain hcounter honly 4 (.named "Branch" []) .empty⟩

end Sampler

end Exemplar
