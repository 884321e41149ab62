import Mathlib.Data.List.Forall2

/-!
# Exemplar.Proofs.Except

Computations that can fail, one after the other and along a list.

* `Except.bind_eq_ok_iff`, `Except.bind_eq_error_iff` — a sequence succeeds when
  both of its parts do, and fails with the first part that does not;
* `Except.mapM_eq_ok_iff` — a list is read when each of its items is;
* `Except.mapM_eq_error_iff` — it fails with the first item that fails;
* `exists_forall₂_of_forall₂` — two ways to read a list, item by item.
-/

namespace Exemplar

/-! ## sequences -/

/-- Two steps succeed when both do. -/
theorem Except.bind_eq_ok_iff {ε α β : Type} {x : Except ε α} {f : α → Except ε β} {b : β} :
    x >>= f = .ok b ↔ ∃ a, x = .ok a ∧ f a = .ok b := by
  cases x with
  | error e => exact ⟨fun h => by contradiction, fun ⟨_, h, _⟩ => by contradiction⟩
  | ok a => exact ⟨fun h => ⟨a, rfl, h⟩, fun ⟨_, ha, h⟩ => by cases ha; exact h⟩

theorem Except.bind_unit_eq_ok_iff {ε β : Type} {x : Except ε Unit} {f : Unit → Except ε β}
    {b : β} : x >>= f = .ok b ↔ x = .ok () ∧ f () = .ok b :=
  bind_eq_ok_iff.trans ⟨fun ⟨(), hx, hf⟩ => ⟨hx, hf⟩, fun ⟨hx, hf⟩ => ⟨(), hx, hf⟩⟩

theorem Except.pure_eq_ok_iff {ε α : Type} {a b : α} : (pure a : Except ε α) = .ok b ↔ a = b :=
  ⟨Except.ok.inj, congrArg Except.ok⟩

/-- Rewording errors keeps results. -/
theorem Except.mapError_eq_ok_iff {ε ε' α : Type} {f : ε → ε'} {x : Except ε α} {a : α} :
    x.mapError f = .ok a ↔ x = .ok a := by
  cases x with
  | error e => exact ⟨fun h => by contradiction, fun h => by contradiction⟩
  | ok b => exact ⟨fun h => congrArg Except.ok (Except.ok.inj h), fun h => by cases h; rfl⟩

/-- Two steps fail when the first does, or the second after it. -/
theorem Except.bind_eq_error_iff {ε α β : Type} {x : Except ε α} {f : α → Except ε β} {e : ε} :
    x >>= f = .error e ↔ x = .error e ∨ ∃ a, x = .ok a ∧ f a = .error e := by
  cases x with
  | error e' =>
      refine ⟨fun h => .inl ?_, fun h => ?_⟩
      · cases h
        rfl
      · obtain h | ⟨_, h, _⟩ := h
        · cases h
          rfl
        · contradiction
  | ok a =>
      refine ⟨fun h => .inr ⟨a, rfl, h⟩, fun h => ?_⟩
      obtain h | ⟨_, h, hf⟩ := h
      · contradiction
      · cases h
        exact hf

theorem Except.exists_eq_ok_iff {ε α : Type} {x : Except ε α} :
    (∃ a, x = .ok a) ↔ x.isOk = true := by
  cases x with
  | error e => simp [Except.isOk, Except.toBool]
  | ok a => simp [Except.isOk, Except.toBool]

/-! ## related lists -/

/-- Every partner on the right has one on the left. -/
theorem exists_left_of_forall₂ {α β : Type} {R : α → β → Prop} {xs : List α} {ys : List β}
    (h : List.Forall₂ R xs ys) {y : β} (hy : y ∈ ys) : ∃ x ∈ xs, R x y := by
  induction h with
  | nil => contradiction
  | @cons a b as bs hab _ ih =>
      obtain rfl | hy := List.mem_cons.mp hy
      · exact ⟨a, List.mem_cons_self, hab⟩
      · obtain ⟨x, hx, hxy⟩ := ih hy
        exact ⟨x, List.mem_cons_of_mem a hx, hxy⟩

/-- Every partner on the left has one on the right. -/
theorem exists_right_of_forall₂ {α β : Type} {R : α → β → Prop} {xs : List α} {ys : List β}
    (h : List.Forall₂ R xs ys) {x : α} (hx : x ∈ xs) : ∃ y ∈ ys, R x y :=
  exists_left_of_forall₂ h.flip hx

/-- What holds between all pairs on the left goes over to the right. -/
theorem pairwise_of_forall₂ {α β : Type} {R : α → β → Prop} {P : α → α → Prop}
    {Q : β → β → Prop} {xs : List α} {ys : List β} (h : List.Forall₂ R xs ys)
    (hPQ : ∀ {x x' y y'}, R x y → R x' y' → P x x' → Q y y') (hxs : xs.Pairwise P) :
    ys.Pairwise Q := by
  induction h with
  | nil => exact .nil
  | cons hxy hrest ih =>
      obtain ⟨hx, hxs⟩ := List.pairwise_cons.mp hxs
      refine List.pairwise_cons.mpr ⟨fun y' hy' => ?_, ih hxs⟩
      obtain ⟨x', hx', hxy'⟩ := exists_left_of_forall₂ hrest hy'
      exact hPQ hxy hxy' (hx x' hx')

/-- What is related to the items of a list by two relations is related to each
other item by item. -/
theorem exists_forall₂_of_forall₂ {α β γ δ : Type} {R : α → β → Prop} {S : α → γ → Prop}
    {T : β → δ → Prop} {g : δ → γ} {xs : List α} {ys : List β} {zs : List γ}
    (hR : List.Forall₂ R xs ys) (hS : List.Forall₂ S xs zs)
    (h : ∀ x ∈ xs, ∀ y ∈ ys, ∀ z, R x y → S x z → ∃ w, T y w ∧ g w = z) :
    ∃ ws, List.Forall₂ T ys ws ∧ ws.map g = zs := by
  induction hR generalizing zs with
  | nil =>
      cases hS
      exact ⟨[], .nil, rfl⟩
  | @cons x y xs ys hxy _ ih =>
      obtain _ | ⟨hxz, hS⟩ := hS
      obtain ⟨w, hw, rfl⟩ := h x List.mem_cons_self y List.mem_cons_self _ hxy hxz
      obtain ⟨ws, hws, rfl⟩ := ih hS fun x hx y hy =>
        h x (List.mem_cons_of_mem _ hx) y (List.mem_cons_of_mem _ hy)
      exact ⟨w :: ws, .cons hw hws, rfl⟩

/-! ## lists -/

/-- A list is read successfully when each of its items is. -/
theorem Except.mapM_eq_ok_iff {ε α β : Type} {f : α → Except ε β} {xs : List α} {ys : List β} :
    xs.mapM f = .ok ys ↔ List.Forall₂ (fun x y => f x = .ok y) xs ys := by
  induction xs generalizing ys with
  | nil =>
      rw [List.mapM_nil, List.forall₂_nil_left_iff]
      exact ⟨fun h => by cases h; rfl, fun h => by rw [h]; rfl⟩
  | cons x xs ih =>
      rw [List.mapM_cons, bind_eq_ok_iff, List.forall₂_cons_left_iff]
      constructor
      · rintro ⟨y, hy, h⟩
        obtain ⟨ys', hys, h⟩ := bind_eq_ok_iff.mp h
        cases h
        exact ⟨y, ys', hy, ih.mp hys, rfl⟩
      · rintro ⟨y, ys', hy, hys, rfl⟩
        exact ⟨y, hy, bind_eq_ok_iff.mpr ⟨ys', ih.mpr hys, rfl⟩⟩

/-- A list can be read when each of its items can. -/
theorem Except.exists_mapM_eq_ok_iff {ε α β : Type} {f : α → Except ε β} {xs : List α} :
    (∃ ys, xs.mapM f = .ok ys) ↔ ∀ x ∈ xs, ∃ y, f x = .ok y := by
  simp only [mapM_eq_ok_iff]
  constructor
  · rintro ⟨ys, hys⟩ x hx
    obtain ⟨y, _, hy⟩ := exists_right_of_forall₂ hys hx
    exact ⟨y, hy⟩
  · intro h
    induction xs with
    | nil => exact ⟨[], .nil⟩
    | cons x xs ih =>
        obtain ⟨y, hy⟩ := h x List.mem_cons_self
        obtain ⟨ys, hys⟩ := ih fun x hx => h x (List.mem_cons_of_mem _ hx)
        exact ⟨y :: ys, .cons hy hys⟩

/-! ## the first fault in a list -/

/-- The fault of the first item that has one. -/
def FirstFault {α ε : Type} (fault : α → ε → Prop) (xs : List α) (e : ε) : Prop :=
  ∃ before x after, xs = before ++ x :: after ∧ (∀ y ∈ before, ∀ e', ¬ fault y e') ∧ fault x e

/-- The first fault is at the head, or the head has none. -/
theorem firstFault_cons_iff {α ε : Type} {fault : α → ε → Prop} {x : α} {xs : List α} {e : ε} :
    FirstFault fault (x :: xs) e ↔
      fault x e ∨ (∀ e', ¬ fault x e') ∧ FirstFault fault xs e := by
  constructor
  · rintro ⟨before, y, after, heq, hbefore, hfault⟩
    cases before with
    | nil =>
        cases heq
        exact .inl hfault
    | cons first before =>
        cases heq
        obtain ⟨hfirst, hbefore⟩ := List.forall_mem_cons.mp hbefore
        exact .inr ⟨hfirst, before, y, after, rfl, hbefore, hfault⟩
  · rintro (hfault | ⟨hfirst, before, y, after, rfl, hbefore, hfault⟩)
    · exact ⟨[], x, xs, rfl, fun _ h => absurd h List.not_mem_nil, hfault⟩
    · exact ⟨x :: before, y, after, rfl, List.forall_mem_cons.mpr ⟨hfirst, hbefore⟩, hfault⟩

/-- Reading a list fails with the first item that fails. -/
theorem Except.mapM_eq_error_iff {ε α β : Type} {f : α → Except ε β} {xs : List α} {e : ε} :
    xs.mapM f = .error e ↔ FirstFault (fun x e' => f x = .error e') xs e := by
  induction xs with
  | nil =>
      rw [List.mapM_nil]
      exact ⟨fun h => by contradiction, fun ⟨_, _, _, h, _⟩ => by simp at h⟩
  | cons x xs ih =>
      rw [List.mapM_cons, bind_eq_error_iff, firstFault_cons_iff]
      refine or_congr Iff.rfl ?_
      constructor
      · rintro ⟨y, hy, h⟩
        obtain h | ⟨_, _, h⟩ := bind_eq_error_iff.mp h
        · exact ⟨by simp [hy], ih.mp h⟩
        · contradiction
      · rintro ⟨hx, h⟩
        cases hfx : f x with
        | error e' => exact absurd hfx (hx e')
        | ok y => exact ⟨y, rfl, bind_eq_error_iff.mpr (.inl (ih.mpr h))⟩

end Exemplar
