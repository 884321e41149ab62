import Exemplar.Proofs.ClassTable.Scope
import Exemplar.Proofs.Sampler.Layer
import Exemplar.Proofs.Sampler.Plan

/-!
# Exemplar.Proofs.Sampler.Closed

A closed type does not see the bindings around it.

Every frame of the environment outside is still there inside a class, so the
samples of a closed type in two environments agree only because nothing looks
at these frames.  The names that are looked at form a set: the type parameters
of the classes on the way, each of which is bound or hidden by the layer of
its class.  On that set the two environments agree, and what its names stand
for mentions only names of the set (`AgreeOn`).  The layer of a class whose
arguments mention names of the set enlarges it by the parameters of the class
(`agreeOn_environmentFor`), and in a flat table the parts of a type mention
only names of the enlarged set.
-/

namespace Exemplar

/-- Two environments agree on names, and what these stand for mentions no
other names. -/
structure Environment.AgreeOn (names : List String) (env env' : Environment Ty) : Prop where
  resolve : ∀ n ∈ names, env.resolve n = env'.resolve n
  params : ∀ n ∈ names, ∀ ty, env.resolve n = some ty → ∀ m ∈ ty.params, m ∈ names

namespace Sampler

/-- The type parameters of the class that a type is. -/
def ownParameters (s : Sampler) (ty : Ty) : List String :=
  match s.table.classOf? ty with
  | none => []
  | some info => info.typeParameters

section

variable {s : Sampler} {names : List String} {env env' : Environment Ty} {ty : Ty}

/-! ## layers -/

/-- An argument is the same in environments that agree on its names. -/
theorem concrete_eq_of_agreeOn (h : env.AgreeOn names env') (hty : ∀ n ∈ ty.params, n ∈ names) :
    concrete env ty = concrete env' ty := by
  cases ty with
  | param n => exact h.resolve n (hty n (List.mem_singleton_self n))
  | primitive | array | named | wildcard | bounded => rfl

/-- What an argument stands for mentions only names on which they agree. -/
theorem params_of_concrete (h : env.AgreeOn names env') (hty : ∀ n ∈ ty.params, n ∈ names)
    {found : Ty} (hfound : concrete env ty = some found) : ∀ n ∈ found.params, n ∈ names := by
  cases ty with
  | param n => exact h.params n (hty n (List.mem_singleton_self n)) found hfound
  | primitive | array | named | wildcard | bounded =>
      cases hfound
      exact hty

/-- The layer of a class adds the parameters of the class to the names that
the environments agree on. -/
theorem agreeOn_environmentFor (h : env.AgreeOn names env') (hty : ∀ n ∈ ty.params, n ∈ names) :
    (s.environmentFor ty env).AgreeOn (s.ownParameters ty ++ names) (s.environmentFor ty env') := by
  unfold ownParameters
  cases hclass : s.table.classOf? ty with
  | none =>
      rw [environmentFor_of_classOf?_eq_none hclass, environmentFor_of_classOf?_eq_none hclass]
      exact h
  | some info =>
      have harg : ∀ {n arg}, info.argument? ty.arguments n = some arg →
          ∀ m ∈ arg.params, m ∈ names := by
        intro n arg harg m hm
        have hmem := (ClassInfo.mem_of_argument? harg).2
        cases ty with
        | named name args => exact hty m (Ty.mem_params_named.mpr ⟨arg, hmem, hm⟩)
        | primitive | array | param | wildcard | bounded => contradiction
      constructor
      · intro n hn
        rw [resolve_environmentFor hclass, resolve_environmentFor hclass]
        by_cases hown : n ∈ info.typeParameters
        · rw [if_pos hown, if_pos hown]
          cases hfound : info.argument? ty.arguments n with
          | none => rfl
          | some arg => exact concrete_eq_of_agreeOn h (harg hfound)
        · rw [if_neg hown, if_neg hown]
          exact h.resolve n ((List.mem_append.mp hn).resolve_left hown)
      · intro n hn found hfound m hm
        refine List.mem_append_right _ ?_
        rw [resolve_environmentFor hclass] at hfound
        by_cases hown : n ∈ info.typeParameters
        · rw [if_pos hown, Option.bind_eq_some_iff] at hfound
          obtain ⟨arg, hwritten, hfound⟩ := hfound
          exact params_of_concrete h (harg hwritten) hfound m hm
        · rw [if_neg hown] at hfound
          exact h.params n ((List.mem_append.mp hn).resolve_left hown) found hfound m hm

/-! ## plans -/

/-- Containers have the same plan in environments that agree. -/
theorem planContainer_eq_of_agreeOn (h : env.AgreeOn names env') {container : Container}
    {args : List Ty} (hargs : ∀ arg ∈ args, ∀ n ∈ arg.params, n ∈ names) :
    s.planContainer env container args = s.planContainer env' container args := by
  unfold planContainer
  split
  case h_5 target =>
    -- only a class token reads the environment
    rw [sampleToken_congr (concrete_eq_of_agreeOn h (hargs target List.mem_cons_self))]
  all_goals rfl

/-- **One step** is the same in environments that agree. -/
theorem plan_eq_of_agreeOn (h : env.AgreeOn names env') (hty : ∀ n ∈ ty.params, n ∈ names) :
    s.plan env ty = s.plan env' ty := by
  cases ty with
  | primitive | array | wildcard | bounded => rfl
  | param n => rw [plan, plan, h.resolve n (hty n (List.mem_singleton_self n))]
  | named name args =>
      have hargs : ∀ arg ∈ args, ∀ n ∈ arg.params, n ∈ names := fun arg harg n hn =>
        hty n (Ty.mem_params_named.mpr ⟨arg, harg, hn⟩)
      simp only [plan, planClass, planContainer_eq_of_agreeOn h hargs]

/-- What a type is sampled by mentions only names that the environments agree
on, if its arguments and the parameters of its class are among these. -/
theorem params_of_mem_parts (hown : ∀ info ∈ s.table.classes, info.OwnScope)
    (h : env.AgreeOn names env') (hty : ∀ n ∈ ty.params, n ∈ names)
    (hclass : ∀ n ∈ s.ownParameters ty, n ∈ names) {part : Ty}
    (hpart : part ∈ (s.plan env ty).parts) : ∀ n ∈ part.params, n ∈ names := by
  obtain ⟨item, rfl, rfl⟩ | ⟨n, rfl, hfound⟩ | ⟨name, args, rfl, hfrom⟩ := mem_parts_plan hpart
  · rw [Ty.params_component]
    exact hty
  · exact h.params n (hty n (List.mem_singleton_self n)) part hfound
  · obtain hmem | ⟨info, hinfo, field, hfield, rfl⟩ := hfrom
    · exact fun n hn => hty n (Ty.mem_params_named.mpr ⟨part, hmem, hn⟩)
    · intro n hn
      refine hclass n ?_
      rw [ownParameters, show s.table.classOf? (.named name args) = some info from hinfo]
      exact ClassTable.params_allFields hown (ClassTable.mem_of_find? hinfo) hfield n hn

/-! ## samples -/

/-- **All steps** are the same in environments that agree on the names of the
type and of its class. -/
theorem sampleAt_eq_of_agreeOn (hown : ∀ info ∈ s.table.classes, info.OwnScope) (left : Nat)
    (h : env.AgreeOn names env') (hty : ∀ n ∈ ty.params, n ∈ names)
    (hclass : ∀ n ∈ s.ownParameters ty, n ∈ names) :
    s.sampleAt left ty env = s.sampleAt left ty env' := by
  induction left generalizing ty names env env' with
  | zero => rfl
  | succ left ih =>
      rw [sampleAt_succ, sampleAt_succ, ← plan_eq_of_agreeOn h hty]
      congr 1
      refine Plan.run_congr _ fun part hpart => ?_
      have hparams := params_of_mem_parts hown h hty hclass hpart
      exact ih (agreeOn_environmentFor h hparams)
        (fun n hn => List.mem_append_right _ (hparams n hn))
        fun n hn => List.mem_append_left _ hn

/-- **Closed types**: in a table in which no class is nested in another, the
sample of a closed type is the same whatever is bound around it, at every
depth and with every registry.  A class without its arguments, or with a
wrong number of them, is a closed type, too. -/
theorem sampleAt_eq_of_closed {decls : List ClassDecl}
    (hbuild : ClassTable.build decls = .ok s.table) (hflat : s.table.Flat) (hty : ty.Closed)
    (left : Nat) :
    s.sampleAt left ty (s.environmentFor ty env) =
      s.sampleAt left ty (s.environmentFor ty env') := by
  have hown : ∀ info ∈ s.table.classes, info.OwnScope := fun info hinfo =>
    ClassTable.ownScope_of_flat hbuild hflat hinfo
  have hnone : env.AgreeOn [] env' :=
    ⟨fun n hn => absurd hn List.not_mem_nil, fun n hn => absurd hn List.not_mem_nil⟩
  have hparams : ∀ n ∈ ty.params, n ∈ [] := fun n hn => absurd hn (hty.not_mem n)
  exact sampleAt_eq_of_agreeOn hown left (agreeOn_environmentFor hnone hparams)
    (fun n hn => List.mem_append_right _ (hparams n hn)) fun n hn => List.mem_append_left _ hn

end

/-! ## a class without its argument -/

/-- A page holds an item and leads to a page of pages. -/
def pageDecl : ClassDecl where
  name := "Page"
  kind := .ordinary
  typeParameters := ["T"]
  extended := []
  implemented := []
  enumConstants := []
  fields := [⟨"first", "T", false, none, []⟩, ⟨"next", "Page<Page<T>>", false, none, []⟩]

/-- The table of the page alone. -/
def pageTable : ClassTable where
  classes := [{
    name := "Page"
    simpleName := "Page"
    kind := .ordinary
    typeParameters := ["T"]
    supertypes := []
    enumConstants := []
    fields := [⟨"first", .param "T", none, [], false⟩,
      ⟨"next", .named "Page" [.named "Page" [.param "T"]], none, [], false⟩]
    enclosing := none }]

/-- The page makes a table of its own. -/
theorem build_pageDecl : ClassTable.build [pageDecl] = .ok pageTable := by decide +kernel

/-- A page without its argument does not take up the item type around it. -/
theorem sampleAt_raw_page :
    ClassTable.build [pageDecl] = .ok pageTable ∧ pageTable.Flat ∧ (Ty.named "Page" []).Closed ∧
      let s : Sampler := ⟨pageTable, .full⟩
      let raw : Ty := .named "Page" []
      s.sampleAt 9 raw (s.environmentFor raw (Environment.empty.bind "T" raw)) =
        s.sampleAt 9 raw (s.environmentFor raw .empty) := by
  refine ⟨build_pageDecl, by decide, by decide, ?_⟩
  intro s raw
  exact sampleAt_eq_of_closed (s := s) build_pageDecl (by decide) (by decide) 9

end Sampler

end Exemplar
