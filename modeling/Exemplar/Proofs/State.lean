import Mathlib.Order.Defs.Unbundled

/-!
# Exemplar.Proofs.State

Computations with a state, and how far the state moves.  A relation of states
that is reflexive and transitive is kept by a sequence when it is kept by both
of its parts; an error in the middle ends the sequence earlier.  With equality
for the relation this says that a computation only reads.

* `Moves` — the state moves along a relation;
* `Moves.bind`, `Moves.bindExcept`, `Moves.mapM` — sequences.
-/

namespace Exemplar

/-- From every state the computation leads to a state that is related to it. -/
def Moves {σ α : Type} (R : σ → σ → Prop) (x : StateM σ α) : Prop := ∀ s, R s (x.run s).2

namespace Moves

section

variable {σ α β ε : Type} {R : σ → σ → Prop}

/-- A result alone stays in its state. -/
theorem pure [Std.Refl R] (a : α) : Moves R (pure a) := fun s => Std.Refl.refl s

/-- Two moves one after the other are a move. -/
theorem bind [IsTrans σ R] {x : StateM σ α} {f : α → StateM σ β} (hx : Moves R x)
    (hf : ∀ a, Moves R (f a)) : Moves R (x >>= f) :=
  fun s => IsTrans.trans _ _ _ (hx s) (hf _ _)

/-- Reading is moving along any relation. -/
theorem of_eq [Std.Refl R] {x : StateM σ α} (h : Moves Eq x) : Moves R x := by
  intro s
  rw [← h s]
  exact Std.Refl.refl s

/-! ## computations that can fail -/

/-- So are two moves where the first may fail. -/
theorem bindExcept [Std.Refl R] [IsTrans σ R] {x : ExceptT ε (StateM σ) α}
    {f : α → ExceptT ε (StateM σ) β} (hx : Moves R x.run) (hf : ∀ a, Moves R (f a).run) :
    Moves R (x >>= f).run := by
  rw [ExceptT.run_bind]
  refine bind hx fun result => ?_
  cases result with
  | error e => exact pure (Except.error e)
  | ok a => exact hf a

theorem lift [Std.Refl R] [IsTrans σ R] {x : StateM σ α} (h : Moves R x) :
    Moves R (liftM x : ExceptT ε (StateM σ) α).run :=
  bind h fun a => pure (Except.ok a)

theorem ofExcept [Std.Refl R] (x : Except ε α) :
    Moves R (liftExcept x : ExceptT ε (StateM σ) α).run := by
  cases x with
  | error e => exact pure (Except.error e)
  | ok a => exact pure (Except.ok a)

/-- A move for each item is a move. -/
theorem mapM [Std.Refl R] [IsTrans σ R] {f : α → ExceptT ε (StateM σ) β}
    (hf : ∀ a, Moves R (f a).run) (items : List α) : Moves R (items.mapM f).run := by
  induction items with
  | nil => exact pure (Except.ok [])
  | cons item rest ih =>
      rw [List.mapM_cons]
      refine bindExcept (hf item) fun b => bindExcept ih fun bs => ?_
      exact pure (Except.ok (b :: bs))

end

end Moves

/-! ## results -/

section

variable {σ α β ε : Type} {x : ExceptT ε (StateM σ) α} {f : α → ExceptT ε (StateM σ) β}
  {s s' : σ}

/-- After a success the next step is run. -/
theorem run_bind_of_ok {a : α} (h : x.run.run s = (.ok a, s')) :
    (x >>= f).run.run s = (f a).run.run s' := by
  rw [ExceptT.run_bind, StateT.run_bind, h]
  rfl

/-- After a failure nothing more is run. -/
theorem run_bind_of_error {e : ε} (h : x.run.run s = (.error e, s')) :
    (x >>= f).run.run s = (.error e, s') := by
  rw [ExceptT.run_bind, StateT.run_bind, h]
  rfl

theorem run_lift {y : StateM σ α} {a : α} (h : y.run s = (a, s')) :
    (liftM y : ExceptT ε (StateM σ) α).run.run s = (.ok a, s') := by
  show (y >>= fun a => pure (Except.ok a)).run s = _
  rw [StateT.run_bind, h]
  rfl

end

end Exemplar
