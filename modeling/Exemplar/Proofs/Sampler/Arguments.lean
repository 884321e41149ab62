import Exemplar.Proofs.ClassTable.FirstVisits
import Exemplar.Proofs.Sampler.Layer

/-!
# Exemplar.Proofs.Sampler.Arguments

Which written argument stands for a type parameter.  Inside a class all of its
parameters get what they stand for at once: an argument that is a parameter
itself is what it is outside of the class, also if the class has a parameter of
that name.  Of several parameters with one name the last one counts.  On the way
down from a supertype the same argument is put in the place of the parameter.

* `LastAt` — the last place of a name;
* `Substitution.find?_zip_of_lastAt` — the argument at the last place is found;
* `argument?_of_lastAt` — also for the parameters of a class;
* `resolve_environmentFor_last` — what a name stands for inside a class.
-/

namespace Exemplar

/-! ## the last place of a name -/

/-- A name stands at a place of a list, and at no later one. -/
def LastAt (names : List String) (n : String) (i : Nat) : Prop :=
  names[i]? = some n ∧ ∀ j, i < j → names[j]? ≠ some n

section

variable {names : List String} {m n : String} {i : Nat}

/-- The first place is the last one if the name does not come again. -/
theorem lastAt_cons_zero_iff : LastAt (m :: names) n 0 ↔ m = n ∧ n ∉ names := by
  rw [LastAt, List.getElem?_cons_zero, Option.some.injEq, List.mem_iff_getElem?, not_exists]
  refine and_congr_right fun _ => ⟨fun h j => h (j + 1) (Nat.succ_pos j), fun h j hj => ?_⟩
  obtain ⟨j, rfl⟩ := Nat.exists_eq_add_one.mpr hj
  exact h j

theorem lastAt_cons_succ_iff : LastAt (m :: names) n (i + 1) ↔ LastAt names n i := by
  rw [LastAt, LastAt, List.getElem?_cons_succ]
  refine and_congr_right fun _ => ⟨fun h j hj => h (j + 1) (Nat.succ_lt_succ hj), fun h j hj => ?_⟩
  obtain ⟨j, rfl⟩ := Nat.exists_eq_add_one.mpr (Nat.zero_lt_of_lt hj)
  exact h j (Nat.lt_of_succ_lt_succ hj)

/-- A name has one last place. -/
theorem LastAt.unique {j : Nat} (hi : LastAt names n i) (hj : LastAt names n j) : i = j := by
  obtain h | h | h := Nat.lt_trichotomy i j
  · exact absurd hj.1 (hi.2 j h)
  · exact h
  · exact absurd hi.1 (hj.2 i h)

/-- A name that is there has a last place. -/
theorem exists_lastAt (h : n ∈ names) : ∃ i, LastAt names n i := by
  induction names with
  | nil => contradiction
  | cons m names ih =>
      by_cases hlater : n ∈ names
      · obtain ⟨i, hi⟩ := ih hlater
        exact ⟨i + 1, lastAt_cons_succ_iff.mpr hi⟩
      · have hm : m = n := ((List.mem_cons.mp h).resolve_right hlater).symm
        exact ⟨0, lastAt_cons_zero_iff.mpr ⟨hm, hlater⟩⟩

end

/-! ## the argument at the last place -/

namespace Substitution

/-- An earlier pair counts only if no later one has its name. -/
theorem find?_cons (m : String) (ty : Ty) (σ : Substitution) (n : String) :
    find? ((m, ty) :: σ) n = (σ.find? n).or (if m = n then some ty else none) := by
  rw [find?, List.reverse_cons, List.find?_append, Option.map_or, find?, List.find?_cons]
  by_cases h : m = n <;> simp [h]

/-- With an argument for each name, the one at the last place of a name is
found for it. -/
theorem find?_zip_of_lastAt {names : List String} {args : List Ty} {n : String} {i : Nat}
    (hlength : args.length = names.length) (h : LastAt names n i) :
    find? (names.zip args) n = args[i]? := by
  induction names generalizing args i with
  | nil => exact absurd h.1 (by simp)
  | cons m names ih =>
      cases args with
      | nil => contradiction
      | cons ty args =>
          have hlength : args.length = names.length := Nat.succ.inj hlength
          rw [List.zip_cons_cons, find?_cons]
          cases i with
          | zero =>
              obtain ⟨hm, hnot⟩ := lastAt_cons_zero_iff.mp h
              have hnone : find? (names.zip args) n = none := by
                rwa [find?_eq_none_iff, List.map_fst_zip (Nat.le_of_eq hlength.symm)]
              rw [hnone, if_pos hm]
              rfl
          | succ i =>
              have hlast := lastAt_cons_succ_iff.mp h
              obtain ⟨hi, _⟩ := List.getElem?_eq_some_iff.mp hlast.1
              rw [ih hlength hlast, List.getElem?_cons_succ,
                List.getElem?_eq_getElem (hlength ▸ hi), Option.some_or]

end Substitution

namespace ClassInfo

variable {info : ClassInfo} {args : List Ty} {n : String} {i : Nat}

/-- The argument that is written for a parameter is the one at its last place. -/
theorem argument?_of_lastAt (hlength : args.length = info.typeParameters.length)
    (h : LastAt info.typeParameters n i) : info.argument? args n = args[i]? := by
  rw [argument?_of_length_eq hlength, Substitution.find?_zip_of_lastAt hlength h]

/-- The same argument stands for the parameter below a supertype. -/
theorem find?_argumentsFor_of_lastAt (hlength : args.length = info.typeParameters.length)
    (h : LastAt info.typeParameters n i) : (info.argumentsFor args).find? n = args[i]? := by
  rw [ClassTable.argumentsFor_eq_ite, if_pos hlength, Substitution.find?_zip_of_lastAt hlength h]

end ClassInfo

namespace Sampler

open ClassTable

/-- **Inside a class with arguments**, a name that is no type parameter of the
class is what it is outside.  A type parameter is nothing, if there is not one
argument for each; otherwise it is the argument at the last place of its name,
or what that argument is outside, if it is a parameter itself.  When the fields
of the class are inherited through these arguments, the same argument is put in
the place of the parameter. -/
theorem resolve_environmentFor_last {s : Sampler} {name : String} {info : ClassInfo}
    (hfound : s.table.find? name = some info) (args : List Ty) (env : Environment Ty)
    (n : String) :
    (n ∉ info.typeParameters →
      (s.environmentFor (.named name args) env).resolve n = env.resolve n) ∧
    (n ∈ info.typeParameters → args.length ≠ info.typeParameters.length →
      (s.environmentFor (.named name args) env).resolve n = none) ∧
    (n ∈ info.typeParameters → args.length = info.typeParameters.length →
      ∃ i arg, LastAt info.typeParameters n i ∧ args[i]? = some arg ∧
        ((∀ m, arg ≠ .param m) →
          (s.environmentFor (.named name args) env).resolve n = some arg) ∧
        (∀ m, arg = .param m →
          (s.environmentFor (.named name args) env).resolve n = env.resolve m) ∧
        ∀ seen path rest, name ∉ seen → ∃ σ visits,
          s.table.ancestorsFrom seen ((.named name args, path) :: rest) =
            ⟨info, σ :: path⟩ :: visits ∧ σ.find? n = some arg) := by
  have hclass : s.table.classOf? (.named name args) = some info := hfound
  refine ⟨resolve_environmentFor_of_not_mem hclass env, fun hn hlength => ?_, fun hn hlength => ?_⟩
  · rw [resolve_environmentFor_of_mem hclass env hn, Ty.arguments,
      ClassInfo.argument?_of_length_ne hlength, Option.bind_none]
  · obtain ⟨i, hlast⟩ := exists_lastAt hn
    obtain ⟨hi, _⟩ := List.getElem?_eq_some_iff.mp hlast.1
    have harg : args[i]? = some args[i] := List.getElem?_eq_getElem (hlength ▸ hi)
    have hinside : (s.environmentFor (.named name args) env).resolve n = concrete env args[i] := by
      rw [resolve_environmentFor_of_mem hclass env hn, Ty.arguments,
        ClassInfo.argument?_of_lastAt hlength hlast, harg, Option.bind_some]
    refine ⟨i, args[i], hlast, harg, fun hne => ?_, fun m hm => ?_, fun seen path rest hnew => ?_⟩
    · rw [hinside, concrete_of_ne_param hne]
    · rw [hinside, hm]
      rfl
    · have hfresh : info.name ∉ seen := by rwa [name_of_find? hfound]
      refine ⟨_, _, ancestorsFrom_visit hclass hfresh rest, ?_⟩
      rw [Ty.arguments, ClassInfo.find?_argumentsFor_of_lastAt hlength hlast, harg]

/-! ### a parameter name that comes twice -/

/-- A class with two type parameters of one name. -/
def tripleDecl : ClassDecl where
  name := "Triple"
  kind := .ordinary
  typeParameters := ["L", "R", "L"]
  extended := []
  implemented := []
  enumConstants := []
  fields := [⟨"left", "L", false, none, []⟩, ⟨"right", "R", false, none, []⟩]

def tripleInfo : ClassInfo where
  name := "Triple"
  simpleName := "Triple"
  kind := .ordinary
  typeParameters := ["L", "R", "L"]
  supertypes := []
  enumConstants := []
  fields := [⟨"left", .param "L", none, [], false⟩, ⟨"right", .param "R", none, [], false⟩]
  enclosing := none

/-- Arguments that exchange two parameters, behind one that does not count. -/
abbrev crossed : List Ty := [.wildcard, .param "L", .param "R"]

/-- The two parameters are exchanged, and the first argument does not count. -/
theorem resolve_environmentFor_triple :
    let s : Sampler := ⟨⟨[tripleInfo]⟩, .full⟩
    let outside : Environment Ty := (Environment.empty.bind "L" (.named "A" [])).bind "R" .wildcard
    let inside := s.environmentFor (.named "Triple" crossed) outside
    build [tripleDecl] = .ok s.table ∧ s.table.find? "Triple" = some tripleInfo ∧
      inside.resolve "L" = some .wildcard ∧ inside.resolve "R" = some (.named "A" []) ∧
      inside.resolve "X" = none ∧
      (s.environmentFor (.named "Triple" []) outside).resolve "L" = none ∧
      ∃ σ visits, s.table.ancestorsFrom ["Sub"] [(.named "Triple" crossed, [])] =
        ⟨tripleInfo, [σ]⟩ :: visits ∧ σ.find? "L" = some (.param "R") := by
  intro s outside inside
  have hfound : s.table.find? "Triple" = some tripleInfo := rfl
  have hleft : LastAt tripleInfo.typeParameters "L" 2 :=
    lastAt_cons_succ_iff.mpr (lastAt_cons_succ_iff.mpr (lastAt_cons_zero_iff.mpr ⟨rfl, by decide⟩))
  have hright : LastAt tripleInfo.typeParameters "R" 1 :=
    lastAt_cons_succ_iff.mpr (lastAt_cons_zero_iff.mpr ⟨rfl, by decide⟩)
  obtain ⟨i, left, hi, hl, _, hinsideLeft, hdown⟩ :=
    (resolve_environmentFor_last hfound crossed outside "L").2.2 (by decide) rfl
  obtain ⟨j, right, hj, hr, _, hinsideRight, _⟩ :=
    (resolve_environmentFor_last hfound crossed outside "R").2.2 (by decide) rfl
  obtain rfl := hi.unique hleft
  obtain rfl := hj.unique hright
  cases hl
  cases hr
  exact ⟨by decide +kernel, hfound, hinsideLeft "R" rfl, hinsideRight "L" rfl,
    (resolve_environmentFor_last hfound crossed outside "X").1 (by decide),
    (resolve_environmentFor_last hfound [] outside "L").2.1 (by decide) (by decide),
    hdown ["Sub"] [] [] (by decide)⟩

end Sampler

end Exemplar
