import Mathlib.Logic.Relation
import Exemplar.ClassTable.Inheritance

/-!
# Exemplar.Proofs.ClassTable.Reachability

Inheritance as reachability.  A declared class leads to the names of its
supertypes, which need not be declared, and a name inherits from all names that
it leads to in any number of steps.  The search for a base goes through a stack
of names and leaves out what it has seen before.

* `Extends` — one step, from a declared class to the name of a supertype;
* `exists_closed_of_reachesFrom_eq_false` — what a search has seen in vain is
  closed under steps, so that it hides no way to the base;
* `reaches_iff` — the search finds what is reachable.
-/

namespace Exemplar

namespace ClassTable

/-- A declared class has a supertype of a name. -/
def Extends (table : ClassTable) (name sup : String) : Prop :=
  ∃ info, table.find? name = some info ∧ ∃ args, .named sup args ∈ info.supertypes

section

variable {table : ClassTable} {info : ClassInfo} {name sup base : String}
  {seen stack : List String}

/-- The names of supertypes are those of the classes among them. -/
theorem mem_superNames_iff : sup ∈ info.superNames ↔ ∃ args, .named sup args ∈ info.supertypes := by
  rw [ClassInfo.superNames, List.mem_filterMap]
  constructor
  · rintro ⟨ty, hty, hname⟩
    cases ty with
    | named found args =>
        cases hname
        exact ⟨args, hty⟩
    | primitive | array | param | wildcard | bounded => contradiction
  · rintro ⟨args, hmem⟩
    exact ⟨.named sup args, hmem, rfl⟩

/-- A class extends what it names as a supertype. -/
theorem extends_iff_of_find? (h : table.find? name = some info) :
    table.Extends name sup ↔ sup ∈ info.superNames := by
  rw [mem_superNames_iff]
  constructor
  · rintro ⟨found, hfound, hsup⟩
    cases h.symm.trans hfound
    exact hsup
  · exact fun hsup => ⟨info, h, hsup⟩

/-- Names that are not declared lead nowhere. -/
theorem not_extends_of_find? (h : table.find? name = none) : ¬ table.Extends name sup := by
  rintro ⟨info, hinfo, _⟩
  rw [h] at hinfo
  contradiction

/-! ## the search -/

/-- The search stops at the class that it looks for. -/
theorem reachesFrom_self : table.reachesFrom base seen (base :: stack) = true := by
  rw [reachesFrom, if_pos rfl]

/-- A name that is not declared is passed by. -/
theorem reachesFrom_of_find?_eq_none (hne : name ≠ base) (h : table.find? name = none) :
    table.reachesFrom base seen (name :: stack) = table.reachesFrom base seen stack := by
  rw [reachesFrom, if_neg hne]
  split
  · split
    · rfl
    · next hfound => cases h.symm.trans hfound
  · rfl

/-- So is a name that has been seen. -/
theorem reachesFrom_of_mem (hne : name ≠ base) (h : name ∈ seen) :
    table.reachesFrom base seen (name :: stack) = table.reachesFrom base seen stack := by
  rw [reachesFrom, if_neg hne, dif_neg (not_not_intro h)]

/-- A class that is new to the search is replaced by its supertypes. -/
theorem reachesFrom_of_find? (hne : name ≠ base) (hfresh : name ∉ seen)
    (h : table.find? name = some info) : table.reachesFrom base seen (name :: stack) =
      table.reachesFrom base (name :: seen) (info.superNames ++ stack) := by
  rw [reachesFrom, if_neg hne, dif_pos hfresh]
  split
  · next hnone => cases h.symm.trans hnone
  · next hfound =>
      cases h.symm.trans hfound
      rfl

/-- What is found can be reached from the stack. -/
theorem exists_reachable_of_reachesFrom (h : table.reachesFrom base seen stack = true) :
    ∃ name ∈ stack, Relation.ReflTransGen table.Extends name base := by
  fun_induction table.reachesFrom base seen stack with
  | case1 => contradiction
  | case2 seen rest => exact ⟨base, List.mem_cons_self, .refl⟩
  | case3 seen name rest hne hfresh hnone ih =>
      obtain ⟨found, hfound, hreach⟩ := ih h
      exact ⟨found, List.mem_cons_of_mem _ hfound, hreach⟩
  | case4 seen name rest hne hfresh info hinfo ih =>
      obtain ⟨found, hfound, hreach⟩ := ih h
      obtain hsup | hfound := List.mem_append.mp hfound
      · exact ⟨name, List.mem_cons_self, .head ((extends_iff_of_find? hinfo).mpr hsup) hreach⟩
      · exact ⟨found, List.mem_cons_of_mem _ hfound, hreach⟩
  | case5 seen name rest hne hseen ih =>
      obtain ⟨found, hfound, hreach⟩ := ih h
      exact ⟨found, List.mem_cons_of_mem _ hfound, hreach⟩

/-- A set of names without the base, from which every step leads into the set
again or to the stack. -/
structure Passed (table : ClassTable) (base : String) (stack : List String) (names : Set String) :
    Prop where
  base_not_mem : base ∉ names
  step : ∀ name ∈ names, ∀ sup, table.Extends name sup → sup ∈ names ∨ sup ∈ stack

/-- A name on the stack is passed, too, when its own steps lead to the stack. -/
theorem Passed.insert {rest stack' : List String} {names : Set String}
    (h : table.Passed base (name :: rest) names) (hne : name ≠ base)
    (hstep : ∀ sup, table.Extends name sup → sup ∈ stack') (hrest : ∀ n ∈ rest, n ∈ stack') :
    table.Passed base stack' (Insert.insert name names) where
  base_not_mem := by
    rintro (heq | hmem)
    · exact hne heq.symm
    · exact h.base_not_mem hmem
  step := by
    rintro n (rfl | hn) sup hsup
    · exact .inr (hstep sup hsup)
    · obtain hmem | hmem := h.step n hn sup hsup
      · exact .inl (.inr hmem)
      · obtain rfl | hmem := List.mem_cons.mp hmem
        · exact .inl (.inl rfl)
        · exact .inr (hrest sup hmem)

/-- A name that is passed already can be taken from the stack. -/
theorem Passed.tail {rest : List String} {names : Set String}
    (h : table.Passed base (name :: rest) names) (hname : name ∈ names) :
    table.Passed base rest names where
  base_not_mem := h.base_not_mem
  step n hn sup hsup := by
    obtain hmem | hmem := h.step n hn sup hsup
    · exact .inl hmem
    · obtain rfl | hmem := List.mem_cons.mp hmem
      · exact .inl hname
      · exact .inr hmem

/-- **A search in vain** has passed a set of names that no step leads out of,
and the stack is in it. -/
theorem exists_closed_of_reachesFrom_eq_false (h : table.reachesFrom base seen stack = false)
    {names : Set String} (hseen : ∀ name ∈ seen, name ∈ names)
    (hpassed : table.Passed base stack names) :
    ∃ closed : Set String, names ⊆ closed ∧ (∀ name ∈ stack, name ∈ closed) ∧
      table.Passed base [] closed := by
  -- names that are not declared are passed without being seen, so `names` is not just `seen`
  fun_induction table.reachesFrom base seen stack generalizing names with
  | case1 => exact ⟨names, fun _ h => h, fun _ h => absurd h List.not_mem_nil, hpassed⟩
  | case2 => contradiction
  | case3 seen name rest hne hfresh hnone ih =>
      have hnext : table.Passed base rest (insert name names) :=
        hpassed.insert hne (fun _ hsup => absurd hsup (not_extends_of_find? hnone)) fun _ hn => hn
      obtain ⟨closed, hsub, hrest, hclosed⟩ := ih h (fun n hn => .inr (hseen n hn)) hnext
      exact ⟨closed, fun n hn => hsub (.inr hn),
        List.forall_mem_cons.mpr ⟨hsub (.inl rfl), hrest⟩, hclosed⟩
  | case4 seen name rest hne hfresh info hinfo ih =>
      have hnext : table.Passed base (info.superNames ++ rest) (insert name names) :=
        hpassed.insert hne
          (fun _ hsup => List.mem_append_left _ ((extends_iff_of_find? hinfo).mp hsup))
          fun _ hn => List.mem_append_right _ hn
      obtain ⟨closed, hsub, hstack, hclosed⟩ := ih h
        (List.forall_mem_cons.mpr ⟨.inl rfl, fun n hn => .inr (hseen n hn)⟩) hnext
      exact ⟨closed, fun n hn => hsub (.inr hn),
        List.forall_mem_cons.mpr ⟨hsub (.inl rfl),
          fun n hn => hstack n (List.mem_append_right _ hn)⟩, hclosed⟩
  | case5 seen name rest hne hold ih =>
      have hname : name ∈ names := hseen name (Decidable.not_not.mp hold)
      obtain ⟨closed, hsub, hrest, hclosed⟩ := ih h hseen (hpassed.tail hname)
      exact ⟨closed, hsub, List.forall_mem_cons.mpr ⟨hsub hname, hrest⟩, hclosed⟩

/-- No way leads out of a closed set. -/
theorem Passed.mem_of_reachable {names : Set String} (h : table.Passed base [] names)
    (hreach : Relation.ReflTransGen table.Extends name sup) (hname : name ∈ names) :
    sup ∈ names := by
  induction hreach with
  | refl => exact hname
  | tail _ hstep ih => exact (h.step _ ih _ hstep).resolve_right List.not_mem_nil

/-- **The search** finds a base if and only if it is reachable. -/
theorem reaches_iff : table.reaches name base = true ↔
    Relation.ReflTransGen table.Extends name base := by
  constructor
  · intro h
    obtain ⟨found, hfound, hreach⟩ := exists_reachable_of_reachesFrom h
    cases List.mem_singleton.mp hfound
    exact hreach
  · intro hreach
    cases hsearch : table.reaches name base with
    | true => rfl
    | false =>
        have hempty : table.Passed base [name] ∅ := ⟨fun h => h, fun _ h => h.elim⟩
        obtain ⟨closed, _, hstack, hclosed⟩ := exists_closed_of_reachesFrom_eq_false hsearch
          (fun _ h => absurd h List.not_mem_nil) hempty
        have hname : name ∈ closed := hstack name (List.mem_singleton_self name)
        exact absurd (hclosed.mem_of_reachable hreach hname) hclosed.base_not_mem

end

/-- **Inheritance is reachability**: a class with any arguments inherits from a
base if and only if steps from declared classes to their supertypes lead from
its name to the base. -/
theorem inherits_named_iff_reachable (table : ClassTable) (name : String) (args : List Ty)
    (base : String) :
    table.inherits (.named name args) base = true ↔
      Relation.ReflTransGen table.Extends name base :=
  reaches_iff

end ClassTable

end Exemplar
