import Exemplar.Proofs.Sampler.Layer
import Mathlib.Data.List.Forall2

/-!
# Exemplar.Proofs.Sampler.Image

Types that mean the same in two environments, although the second one has had
closed types put in the place of some parameters.

A type is the image of another (`Image`) when it is that type with the
parameters replaced, or is that type itself, its parameters standing for
images again (`Alike`).  The environment inside a class keeps the frames
outside, and a type argument that is more than a parameter is bound as it is
written.  So images are images inside the layer of a class only as long as
all names that they mention stand for what they stood for (`Preserves`).

* `rel_environmentFor` — the parameters of a class stand for images;
* `Image.inside` — images in the layer of a class.
-/

namespace Exemplar

/-! ## mentioned names -/

namespace Environment

/-- A type mentions its parameters, and what the types mention that these
stand for. -/
inductive Mentions (env : Environment Ty) : Ty → String → Prop where
  | self {ty : Ty} {n : String} : n ∈ ty.params → Mentions env ty n
  | bound {ty found : Ty} {m n : String} : m ∈ ty.params → env.resolve m = some found →
      Mentions env found n → Mentions env ty n

/-- All that a type mentions stands for the same in a second environment. -/
def Preserves (env inner : Environment Ty) (ty : Ty) : Prop :=
  ∀ n, env.Mentions ty n → inner.resolve n = env.resolve n

/-- A set that has the parameters of a type, and those of what its names
stand for, has all that the type mentions. -/
theorem preserves_of_forall {env inner : Environment Ty} {ty : Ty} (seen : List String)
    (hty : ∀ n ∈ ty.params, n ∈ seen)
    (hfound : ∀ n ∈ seen, ∀ found, env.resolve n = some found → ∀ m ∈ found.params, m ∈ seen)
    (hsame : ∀ n ∈ seen, inner.resolve n = env.resolve n) : env.Preserves inner ty := by
  intro n h
  refine hsame n ?_
  induction h with
  | self hn => exact hty _ hn
  | bound hm hbound _ ih => exact ih (hfound _ (hty _ hm) _ hbound)

theorem Mentions.of_param {env : Environment Ty} {ty : Ty} {m n : String} (hm : m ∈ ty.params)
    (h : env.Mentions (.param m) n) : env.Mentions ty n := by
  cases h with
  | self hn => exact .self (List.mem_singleton.mp hn ▸ hm)
  | bound hk hfound h => exact .bound (List.mem_singleton.mp hk ▸ hm) hfound h

/-- What preserves a type preserves each of its parameters. -/
theorem Preserves.param {env inner : Environment Ty} {ty : Ty} {m : String}
    (h : env.Preserves inner ty) (hm : m ∈ ty.params) : env.Preserves inner (.param m) :=
  fun n hn => h n (hn.of_param hm)

/-- A preserved name stands for the same. -/
theorem Preserves.resolve {env inner : Environment Ty} {n : String}
    (h : env.Preserves inner (.param n)) : inner.resolve n = env.resolve n :=
  h n (.self (List.mem_singleton_self n))

/-- What a preserved name stands for is preserved. -/
theorem Preserves.found {env inner : Environment Ty} {n : String} {found : Ty}
    (h : env.Preserves inner (.param n)) (hfound : env.resolve n = some found) :
    env.Preserves inner found :=
  fun m hm => h m (.bound (List.mem_singleton_self n) hfound hm)

end Environment

/-! ## related bindings -/

theorem exists_of_rel_some {R : Ty → Ty → Prop} {ty : Ty} {found : Option Ty}
    (h : Option.Rel R (some ty) found) : ∃ ty', found = some ty' ∧ R ty ty' := by
  cases h with
  | some h => exact ⟨_, rfl, h⟩

theorem eq_none_of_rel_none {R : Ty → Ty → Prop} {found : Option Ty}
    (h : Option.Rel R none found) : found = none := by
  cases h with
  | none => rfl

/-! ## images -/

section

variable {σ : Substitution} {env env' inner inner' : Environment Ty} {ty ty' : Ty} {n : String}

/-- A name stands for what the substitution puts in its place. -/
def Fills (σ : Substitution) (env : Environment Ty) (n : String) : Prop :=
  ∃ found, σ.find? n = some found ∧ env.resolve n = some found

/-- Filling depends on the name alone. -/
theorem Fills.of_resolve (h : Fills σ env n) (hsame : inner.resolve n = env.resolve n) :
    Fills σ inner n := by
  obtain ⟨found, hfound, hn⟩ := h
  exact ⟨found, hfound, hsame.trans hn⟩

/-- A name stands for nothing in two environments, or for images. -/
inductive Alike (σ : Substitution) (env env' : Environment Ty) : String → Prop where
  | hidden {n : String} : env.resolve n = none → env'.resolve n = none → Alike σ env env' n
  | filled {n : String} {found : Ty} : env.resolve n = some found →
      env'.resolve n = some (found.subst σ) → (∀ m ∈ found.params, Fills σ env m) →
      Alike σ env env' n
  | same {n : String} {found : Ty} : env.resolve n = some found → env'.resolve n = some found →
      (∀ m ∈ found.params, Alike σ env env' m) → Alike σ env env' n

/-- The second type is the first one with all its parameters replaced, or the
first one itself, whose parameters stand for images. -/
def Image (σ : Substitution) (env env' : Environment Ty) (ty ty' : Ty) : Prop :=
  (ty' = ty.subst σ ∧ ∀ m ∈ ty.params, Fills σ env m) ∨
    (ty' = ty ∧ ∀ m ∈ ty.params, Alike σ env env' m)

/-- A closed type is its own image. -/
theorem Image.of_closed (h : ty.Closed) : Image σ env env' ty ty :=
  .inr ⟨rfl, fun m hm => absurd hm (h.not_mem m)⟩

/-- A type without any of the replaced parameters is its only image. -/
theorem Image.eq_of_find? (h : Image σ env env' ty ty')
    (hnone : ∀ m ∈ ty.params, σ.find? m = none) : ty' = ty := by
  obtain ⟨rfl, hfills⟩ | ⟨rfl, _⟩ := h
  · refine Ty.subst_of_closed (Ty.closed_iff.mpr fun m hm => ?_) σ
    obtain ⟨found, hfound, _⟩ := hfills m hm
    rw [hnone m hm] at hfound
    contradiction
  · rfl

/-- A closed type has no other image. -/
theorem Image.eq_of_closed (h : Image σ env env' ty ty') (hclosed : ty.Closed) : ty' = ty :=
  h.eq_of_find? fun m hm => absurd hm (hclosed.not_mem m)

theorem Alike.of_rel (h : Option.Rel (Image σ env env') (env.resolve n) (env'.resolve n)) :
    Alike σ env env' n := by
  cases hn : env.resolve n with
  | none =>
      rw [hn] at h
      exact .hidden hn (eq_none_of_rel_none h)
  | some found =>
      rw [hn] at h
      obtain ⟨found', hn', himage⟩ := exists_of_rel_some h
      obtain ⟨rfl, hfills⟩ | ⟨rfl, halike⟩ := himage
      · exact .filled hn hn' hfills
      · exact .same hn hn' halike

/-- Names that are alike stand for nothing, or for images. -/
theorem Alike.rel (h : Alike σ env env' n) :
    Option.Rel (Image σ env env') (env.resolve n) (env'.resolve n) := by
  cases h with
  | hidden hn hn' => rw [hn, hn']; exact .none
  | filled hn hn' hfills => rw [hn, hn']; exact .some (.inl ⟨rfl, hfills⟩)
  | same hn hn' halike => rw [hn, hn']; exact .some (.inr ⟨rfl, halike⟩)

/-! ## layers -/

theorem Ty.subst_param_of_find? {found : Ty} (h : σ.find? n = some found) :
    (Ty.param n).subst σ = found := by
  rw [Ty.subst, h, Option.getD_some]

/-- Related pairs under the same names are found together. -/
theorem Substitution.rel_find? {R : Ty → Ty → Prop} {σ τ : Substitution}
    (h : List.Forall₂ (fun p q => p.1 = q.1 ∧ R p.2 q.2) σ τ) (n : String) :
    Option.Rel R (σ.find? n) (τ.find? n) := by
  unfold Substitution.find?
  have hrev := List.forall₂_reverse_iff.mpr h
  generalize σ.reverse = σ', τ.reverse = τ' at hrev
  induction hrev with
  | nil => exact .none
  | @cons p q σ' τ' hpq _ ih =>
      rw [List.find?_cons, List.find?_cons, ← hpq.1]
      by_cases hn : p.1 = n
      · simp only [hn, decide_true, Option.map_some]
        exact .some hpq.2
      · simp only [hn, decide_false]
        exact ih

/-- Related arguments are written for the same parameters. -/
theorem ClassInfo.rel_argument? {R : Ty → Ty → Prop} {args args' : List Ty}
    (h : List.Forall₂ R args args') (info : ClassInfo) (n : String) :
    Option.Rel R (info.argument? args n) (info.argument? args' n) := by
  by_cases hl : args.length = info.typeParameters.length
  · rw [argument?_of_length_eq hl, argument?_of_length_eq (h.length_eq ▸ hl)]
    refine Substitution.rel_find? ?_ n
    clear hl
    induction h generalizing info with
    | nil => simp
    | @cons arg arg' args args' harg _ ih =>
        cases hp : info.typeParameters with
        | nil => simp
        | cons p ps => exact .cons ⟨rfl, harg⟩ (ih { info with typeParameters := ps })
  · rw [argument?_of_length_ne hl, argument?_of_length_ne (h.length_eq ▸ hl)]
    exact .none

section

variable (hclosed : ∀ m found, σ.find? m = some found → found.Closed)

include hclosed

/-- Images stand for images. -/
theorem rel_concrete (h : Image σ env env' ty ty') :
    Option.Rel (Image σ env env') (Sampler.concrete env ty) (Sampler.concrete env' ty') := by
  cases ty with
  | param n =>
      obtain ⟨rfl, hfills⟩ | ⟨rfl, halike⟩ := h
      · obtain ⟨found, hfound, hn⟩ := hfills n (List.mem_singleton_self n)
        rw [Ty.subst_param_of_find? hfound, Sampler.concrete_of_closed (hclosed n found hfound)]
        rw [Sampler.concrete, hn]
        exact .some (.of_closed (hclosed n found hfound))
      · exact (halike n (List.mem_singleton_self n)).rel
  | primitive | array | named | wildcard | bounded =>
      obtain ⟨rfl, hfills⟩ | ⟨rfl, halike⟩ := h
      · exact .some (.inl ⟨rfl, hfills⟩)
      · exact .some (.inr ⟨rfl, halike⟩)

/-- **Inside a class** with arguments that are images, its parameters stand
for images. -/
theorem rel_environmentFor {s : Sampler} {info : ClassInfo} {name : String} {args args' : List Ty}
    (hinfo : s.table.find? name = some info) (hargs : List.Forall₂ (Image σ env env') args args')
    {n : String} (hn : n ∈ info.typeParameters) :
    Option.Rel (Image σ env env') ((s.environmentFor (.named name args) env).resolve n)
      ((s.environmentFor (.named name args') env').resolve n) := by
  have hclass : s.table.classOf? (.named name args) = some info := hinfo
  have hclass' : s.table.classOf? (.named name args') = some info := hinfo
  rw [Sampler.resolve_environmentFor_of_mem hclass env hn,
    Sampler.resolve_environmentFor_of_mem hclass' env' hn]
  have harg := ClassInfo.rel_argument? hargs info n
  simp only [Ty.arguments]
  generalize info.argument? args n = arg, info.argument? args' n = arg' at harg
  cases harg with
  | none => exact .none
  | some h => exact rel_concrete hclosed h

/-! ## images inside -/

/-- The layer of a class over two environments: in the second one each name
stands for what it stood for, or images are bound to it. -/
def Layered (σ : Substitution) (env env' inner inner' : Environment Ty) : Prop :=
  ∀ n, inner'.resolve n = env'.resolve n ∨
    Option.Rel (Image σ env env') (inner.resolve n) (inner'.resolve n)

/-- Entering a class by images makes a layer. -/
theorem layered_environmentFor {s : Sampler} {name : String} {args args' : List Ty}
    (hargs : List.Forall₂ (Image σ env env') args args') :
    Layered σ env env' (s.environmentFor (.named name args) env)
      (s.environmentFor (.named name args') env') := by
  intro n
  cases hinfo : s.table.find? name with
  | none =>
      have hclass : s.table.classOf? (.named name args') = none := hinfo
      exact .inl (congrArg (·.resolve n)
        (Sampler.environmentFor_of_classOf?_eq_none hclass env'))
  | some info =>
      have hclass : s.table.classOf? (.named name args') = some info := hinfo
      by_cases hn : n ∈ info.typeParameters
      · exact .inr (rel_environmentFor hclosed hinfo hargs hn)
      · exact .inl (Sampler.resolve_environmentFor_of_not_mem hclass env' hn)

/-- What the substitution puts in the place of a name is closed, and so is
still an image inside. -/
theorem Alike.inside_of_fills (hlayer : Layered σ env env' inner inner')
    (h : Alike σ env env' n) (hfills : Fills σ env n)
    (hkeep : inner.resolve n = env.resolve n) : Alike σ inner inner' n := by
  obtain ⟨found, hfound, hn⟩ := hfills
  have hty := hclosed n found hfound
  have hinner : inner.resolve n = some found := hkeep.trans hn
  have hinner' : inner'.resolve n = some found := by
    obtain hsame | hrel := hlayer n
    · have hrel := h.rel
      rw [hn] at hrel
      obtain ⟨found', hn', himage⟩ := exists_of_rel_some hrel
      rw [hsame, hn', himage.eq_of_closed hty]
    · rw [hinner] at hrel
      obtain ⟨found', hn', himage⟩ := exists_of_rel_some hrel
      rw [hn', himage.eq_of_closed hty]
  exact .same hinner hinner' fun m hm => absurd hm (hty.not_mem m)

/-- A name that is alike outside is alike inside, if all that it mentions
stands for the same. -/
theorem Alike.inside (hlayer : Layered σ env env' inner inner') (h : Alike σ env env' n)
    (hkeep : env.Preserves inner (.param n)) : Alike σ inner inner' n := by
  induction h with
  | @hidden n hn hn' =>
      have hinner := hkeep.resolve.trans hn
      obtain hsame | hrel := hlayer n
      · exact .hidden hinner (hsame.trans hn')
      · rw [hinner] at hrel
        exact .hidden hinner (eq_none_of_rel_none hrel)
  | @filled n found hn hn' hfills =>
      have hinner := hkeep.resolve.trans hn
      have hkeep : ∀ m ∈ found.params, env.Preserves inner (.param m) := fun m hm =>
        (hkeep.found hn).param hm
      have hfills' : ∀ m ∈ found.params, Fills σ inner m := fun m hm =>
        (hfills m hm).of_resolve (hkeep m hm).resolve
      obtain hsame | hrel := hlayer n
      · exact .filled hinner (hsame.trans hn') hfills'
      · rw [hinner] at hrel
        obtain ⟨found', hbound, ⟨rfl, _⟩ | ⟨rfl, halike⟩⟩ := exists_of_rel_some hrel
        · exact .filled hinner hbound hfills'
        · -- the new binding is another image of the same type
          exact .same hinner hbound fun m hm =>
            (halike m hm).inside_of_fills hclosed hlayer (hfills m hm) (hkeep m hm).resolve
  | @same n found hn hn' halike ih =>
      have hinner := hkeep.resolve.trans hn
      have hkeep : ∀ m ∈ found.params, env.Preserves inner (.param m) := fun m hm =>
        (hkeep.found hn).param hm
      have halike' : ∀ m ∈ found.params, Alike σ inner inner' m := fun m hm => ih m hm (hkeep m hm)
      obtain hsame | hrel := hlayer n
      · exact .same hinner (hsame.trans hn') halike'
      · rw [hinner] at hrel
        obtain ⟨found', hbound, ⟨rfl, hfills⟩ | ⟨rfl, _⟩⟩ := exists_of_rel_some hrel
        · exact .filled hinner hbound fun m hm => (hfills m hm).of_resolve (hkeep m hm).resolve
        · exact .same hinner hbound halike'

/-- Images stay images inside a layer that preserves the type. -/
theorem Image.inside (hlayer : Layered σ env env' inner inner') (h : Image σ env env' ty ty')
    (hkeep : env.Preserves inner ty) : Image σ inner inner' ty ty' := by
  obtain ⟨rfl, hfills⟩ | ⟨rfl, halike⟩ := h
  · exact .inl ⟨rfl, fun m hm => (hfills m hm).of_resolve (hkeep.param hm).resolve⟩
  · exact .inr ⟨rfl, fun m hm => (halike m hm).inside hclosed hlayer (hkeep.param hm)⟩

end

end

end Exemplar
