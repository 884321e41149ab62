import Exemplar.FieldKey
import Mathlib.Data.List.DropRight

/-!
# Exemplar.Proofs.Text.Ends

Texts without the characters of a kind at their ends.  Names lose the double
quotes around them in this way, and texts the blanks around them.  What is left
is the middle of the text that neither begins nor ends with a character of the
kind, and there is only one such middle.

* `stripEnds` — the middle of a text;
* `stripEnds_append` — characters of the kind at the ends do not matter;
* `stripEnds_eq_iff` — the middle, apart from the function.
-/

namespace Exemplar

/-- A list without the items of a kind at both of its ends. -/
def stripEnds {α : Type} (p : α → Bool) (s : List α) : List α := (s.dropWhile p).rdropWhile p

theorem trim_eq_stripEnds (s : List Char) : trim s = stripEnds isBlank s := rfl

theorem stripQuotes_eq_stripEnds (s : List Char) : stripQuotes s = stripEnds (· = '"') s := rfl

section

variable {α : Type} {p : α → Bool} {s u v : List α}

/-- What is stripped at the end may as well not be there. -/
theorem rdropWhile_append_of_forall (hv : ∀ c ∈ v, p c = true) :
    (s ++ v).rdropWhile p = s.rdropWhile p := by
  have hreverse : ∀ c ∈ v.reverse, p c = true := fun c hc => hv c (List.mem_reverse.mp hc)
  rw [List.rdropWhile, List.rdropWhile, List.reverse_append, List.dropWhile_append_of_pos hreverse]

/-- If something of a list is left, then also everything in front of it. -/
theorem rdropWhile_append_of_ne_nil (hs : s.rdropWhile p ≠ []) :
    (u ++ s).rdropWhile p = u ++ s.rdropWhile p := by
  have hleft : (s.reverse.dropWhile p).isEmpty = false := by
    rw [List.isEmpty_eq_false_iff]
    exact fun hnil => hs (by rw [List.rdropWhile, hnil, List.reverse_nil])
  rw [List.rdropWhile, List.rdropWhile, List.reverse_append, List.dropWhile_append, hleft]
  simp

/-- Items of the kind at the ends do not matter. -/
theorem stripEnds_append (hu : ∀ c ∈ u, p c = true) (hv : ∀ c ∈ v, p c = true) :
    stripEnds p (u ++ s ++ v) = stripEnds p s := by
  rw [stripEnds, stripEnds, List.append_assoc, List.dropWhile_append_of_pos hu,
    List.dropWhile_append]
  split
  · next hempty =>
      -- nothing but items of the kind
      rw [List.isEmpty_iff.mp hempty, List.dropWhile_eq_nil_iff.mpr hv]
  · exact rdropWhile_append_of_forall hv

/-- A text is what stripping leaves, between two ends that are stripped. -/
theorem exists_stripEnds (p : α → Bool) (s : List α) :
    ∃ u v, (∀ c ∈ u, p c = true) ∧ (∀ c ∈ v, p c = true) ∧ s = u ++ stripEnds p s ++ v := by
  refine ⟨s.takeWhile p, (s.dropWhile p).rtakeWhile p, fun c => List.mem_takeWhile_imp,
    fun c => List.mem_rtakeWhile_imp, ?_⟩
  rw [stripEnds, List.append_assoc, List.rdropWhile_append_rtakeWhile,
    List.takeWhile_append_dropWhile]

theorem head?_stripEnds {c : α} (h : (stripEnds p s).head? = some c) : p c = false := by
  obtain ⟨rest, hrest⟩ := List.rdropWhile_prefix p (s.dropWhile p)
  have hhead : (s.dropWhile p).head? = some c := by
    rw [← hrest, List.head?_append, ← stripEnds, h, Option.some_or]
  have hnot := List.head?_dropWhile_not p s
  rwa [hhead] at hnot

theorem getLast?_stripEnds {c : α} (h : (stripEnds p s).getLast? = some c) : p c = false := by
  have hne : (s.dropWhile p).rdropWhile p ≠ [] := by
    intro hnil
    rw [stripEnds, hnil] at h
    contradiction
  rw [stripEnds, List.getLast?_eq_some_getLast hne, Option.some.injEq] at h
  exact h ▸ Bool.eq_false_iff.mpr (List.rdropWhile_last_not p _ hne)

/-- A list that neither begins nor ends with an item of the kind is left alone. -/
theorem stripEnds_eq_self (hhead : ∀ c, s.head? = some c → p c = false)
    (hlast : ∀ c, s.getLast? = some c → p c = false) : stripEnds p s = s := by
  cases s with
  | nil => rfl
  | cons c s =>
      have hfirst : ¬ p c = true := Bool.eq_false_iff.mp (hhead c rfl)
      rw [stripEnds, List.dropWhile_cons_of_neg hfirst, List.rdropWhile_eq_self_iff]
      exact fun hne => Bool.eq_false_iff.mp (hlast _ (List.getLast?_eq_some_getLast hne))

/-- **The middle of a list** has only items of the kind around it, and none of
them at its own ends. -/
theorem stripEnds_eq_iff {middle : List α} : stripEnds p s = middle ↔
    (∃ u v, (∀ c ∈ u, p c = true) ∧ (∀ c ∈ v, p c = true) ∧ s = u ++ middle ++ v) ∧
      (∀ c, middle.head? = some c → p c = false) ∧
      ∀ c, middle.getLast? = some c → p c = false := by
  constructor
  · rintro rfl
    exact ⟨exists_stripEnds p s, fun c => head?_stripEnds, fun c => getLast?_stripEnds⟩
  · rintro ⟨⟨u, v, hu, hv, rfl⟩, hhead, hlast⟩
    rw [stripEnds_append hu hv, stripEnds_eq_self hhead hlast]

/-- Stripping twice strips no more than once. -/
theorem stripEnds_stripEnds (p : α → Bool) (s : List α) :
    stripEnds p (stripEnds p s) = stripEnds p s :=
  stripEnds_eq_self (fun _ => head?_stripEnds) fun _ => getLast?_stripEnds

end

end Exemplar
