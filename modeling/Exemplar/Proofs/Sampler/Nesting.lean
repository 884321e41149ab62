import Exemplar.Proofs.Registry.Rules
import Exemplar.Proofs.Sampler.Closed

/-!
# Exemplar.Proofs.Sampler.Nesting

How deeply samples are nested.  The types and the environments that a run
meets may grow without end, so only the depth that is left bounds the sample:
every array and every object around a part uses up one unit of it.  At the
last unit there is still room for an empty array or object, for an object of
initializers, and for a value of the registry as it is.

* `sampleAt_yields_nesting` — nesting stays below the depth that is left and
  the nesting of the registry's values;
* `nesting_sampleAt_le` — the same by the depth that is used up, and for roots
  with the built-in rules.
-/

namespace Exemplar

/-! ## nesting of values -/

namespace Json

/-- Items are nested no deeper than the deepest. -/
theorem nestingItems_le {items : List Json} {n : Nat} (h : ∀ item ∈ items, item.nesting ≤ n) :
    nestingItems items ≤ n := by
  induction items with
  | nil => exact Nat.zero_le n
  | cons item rest ih =>
      rw [nestingItems]
      exact Nat.max_le.mpr ⟨h item List.mem_cons_self,
        ih fun other hother => h other (List.mem_cons_of_mem _ hother)⟩

/-- Entries are nested no deeper than the deepest. -/
theorem nestingEntries_le {entries : List (String × Json)} {n : Nat}
    (h : ∀ entry ∈ entries, entry.2.nesting ≤ n) : nestingEntries entries ≤ n := by
  induction entries with
  | nil => exact Nat.zero_le n
  | cons entry rest ih =>
      rw [nestingEntries]
      exact Nat.max_le.mpr ⟨h entry List.mem_cons_self,
        ih fun other hother => h other (List.mem_cons_of_mem _ hother)⟩

/-- Every operation adds one array or object at most. -/
theorem assembles_nesting {n : Nat} (hn : 0 < n) :
    Assembles (fun value => value.nesting < n) (fun value => value.nesting < n + 1) where
  keep value h := Nat.lt_succ_of_lt h
  null := hn
  string text := Nat.succ_pos n
  array items h := by
    have hitems : nestingItems items ≤ n - 1 := nestingItems_le fun item hitem => by
      have := h item hitem
      omega
    rw [nesting]
    omega
  object entries _ h := by
    have hentries : nestingEntries entries ≤ n - 1 := nestingEntries_le fun entry hentry => by
      have := h entry hentry
      omega
    rw [nesting]
    omega

theorem nesting_ofInt (value : Int) : (ofInt value).nesting = 0 := by
  rw [ofInt]
  split
  · rfl
  · split <;> rfl

end Json

/-! ## nesting of the registry's values -/

namespace Registry

/-- The fixed values are nested to a bound at most. -/
def NestsUpTo (registry : Registry) (bound : Nat) : Prop :=
  ∀ name value, registry.rule? name = some (.fixed value) → value.nesting ≤ bound

/-- The rule is a counter, or its value is nested to a bound at most. -/
def RuleNestsUpTo (bound : Nat) (rule : Rule) : Prop :=
  ∀ value, rule = .fixed value → value.nesting ≤ bound

/-- A bound on the nesting is one for every rule by itself. -/
theorem nestsUpTo_iff {registry : Registry} {bound : Nat} :
    registry.NestsUpTo bound ↔ registry.All (RuleNestsUpTo bound) := by
  constructor
  · rintro h name _ hrule value rfl
    exact h name value hrule
  · exact fun h name value hrule => h name _ hrule value rfl

theorem nestsUpTo_empty (bound : Nat) : empty.NestsUpTo bound := nestsUpTo_iff.mpr all_empty

/-- A rule within the bound may be added. -/
theorem NestsUpTo.register {registry : Registry} {bound : Nat} (h : registry.NestsUpTo bound)
    {name : String} {value : Json} (hvalue : value.nesting ≤ bound) :
    (registry.register name (.fixed value)).NestsUpTo bound := by
  refine nestsUpTo_iff.mpr ((nestsUpTo_iff.mp h).register fun found hfound => ?_)
  cases hfound
  exact hvalue

/-- Of the built-in rules only those for trees of JSON libraries have values
that are no scalars, and these are empty. -/
theorem nestsUpTo_builtin (now : ClockReading) : (builtin now).NestsUpTo 1 := by
  have hfixed : ∀ value : Json, value.nesting ≤ 1 → RuleNestsUpTo 1 (.fixed value) := by
    rintro value hvalue _ ⟨⟩
    exact hvalue
  refine nestsUpTo_iff.mpr (all_builtin (hfixed _ (Nat.zero_le 1)) (hfixed _ (Nat.zero_le 1))
    (hfixed _ (Nat.zero_le 1)) (fun _ => hfixed _ (Nat.zero_le 1)) (hfixed _ (Nat.le_refl 1))
    (hfixed _ (Nat.le_refl 1)) (hfixed _ ?_))
  rw [Json.nesting_ofInt]
  exact Nat.zero_le 1

/-- The answers of a registry are its fixed values, and numbers. -/
theorem lookup_yields_nesting {bound n : Nat} (hn : bound < n) (text : String) :
    Sampler.Yields (All (RuleNestsUpTo bound)) (fun value => value.nesting < n) (lookup text) := by
  refine lookup_yields (fun value h => Nat.lt_of_le_of_lt (h value rfl) hn) (fun next _ => ?_) text
  refine ⟨fun value h => by contradiction, ?_⟩
  rw [Json.nesting_ofInt]
  exact Nat.zero_lt_of_lt hn

end Registry

/-! ## nesting of samples -/

namespace Sampler

/-- Nesting stays below what is left of the depth and the nesting of the
registry's values together. -/
theorem sampleAt_yields_nesting {decls : List ClassDecl} {s : Sampler}
    (hbuild : ClassTable.build decls = .ok s.table) (bound left : Nat) (ty : Ty)
    (env : Environment Ty) :
    Yields (Registry.All (Registry.RuleNestsUpTo bound))
      (fun value => value.nesting < left + max 1 bound) (s.sampleAt left ty env) := by
  refine sampleAt_yields (Q := fun left value => value.nesting < left + max 1 bound) ?_ ?_ ?_
    left ty env
  · intro left
    rw [Nat.add_right_comm]
    exact Json.assembles_nesting (by omega)
  · intro info hinfo field hfield value hvalue left
    obtain ⟨decl, _, fieldDecl, _, hinitial, hcheck⟩ :=
      exists_fieldDecl_of_initialValue? hbuild hinfo hfield hvalue
    rw [ClassTable.nesting_of_checkInitializer hcheck hinitial]
    omega
  · exact fun text left => Registry.lookup_yields_nesting (by omega) text

/-- **Nesting is bounded by the depth that is left**: by one for each unit but
the last, and at the last one by the registry's values or an empty array or
object.  With the built-in rules no root is nested deeper than the greatest
depth. -/
theorem nesting_sampleAt_le {decls : List ClassDecl} {s : Sampler}
    (hbuild : ClassTable.build decls = .ok s.table) :
    (∀ (registry : Registry) (bound : Nat), registry.NestsUpTo bound →
      ∀ depth < maxDepth, ∀ ty env,
        ∀ value ∈ ((s.sampleAt (maxDepth - depth) ty env).run registry).1,
          value.nesting ≤ maxDepth - 1 - depth + max 1 bound) ∧
    ∀ now ty, ∀ value ∈ ((s.sample ty).run (.builtin now)).1, value.nesting ≤ maxDepth := by
  constructor
  · intro registry bound hbound depth hdepth ty env value hvalue
    have hlt := (sampleAt_yields_nesting hbuild bound _ ty env registry
      (Registry.nestsUpTo_iff.mp hbound)).2 value hvalue
    omega
  · intro now ty value hvalue
    have hlt := (sampleAt_yields_nesting hbuild 1 _ ty _ _
      (Registry.nestsUpTo_iff.mp (Registry.nestsUpTo_builtin now))).2 value hvalue
    omega

/-- A page whose item type stands for pages of itself, three units above the
bottom, with rules for trees that have two levels. -/
theorem nesting_sampleAt_page_le :
    ClassTable.build [pageDecl] = .ok pageTable ∧
    let s : Sampler := ⟨pageTable, .full⟩
    let env := Environment.empty.bind "T" (.named "Page" [.param "T"])
    let registry := (Registry.empty.register "Tree" (.fixed (.array [.array []])))
    registry.NestsUpTo 2 ∧ 197 < maxDepth ∧
      ∀ value ∈ ((s.sampleAt (maxDepth - 197) (.param "T") env).run registry).1,
        value.nesting ≤ 4 := by
  have hbound : (Registry.empty.register "Tree" (.fixed (.array [.array []]))).NestsUpTo 2 :=
    (Registry.nestsUpTo_empty 2).register (Nat.le_refl 2)
  refine ⟨build_pageDecl, hbound, by decide, ?_⟩
  exact (nesting_sampleAt_le (s := ⟨pageTable, .full⟩) build_pageDecl).1 _ 2 hbound 197 (by decide)
    (.param "T") _

end Sampler

end Exemplar
