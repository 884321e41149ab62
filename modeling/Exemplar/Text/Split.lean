/-!
# Splitting texts

The parts of a text between the occurrences of a separator.  There is always one part more than
there are separators, so the empty text has one empty part.
-/

namespace Exemplar

/-- The parts of a text between the separators. -/
def splitAtChar (separator : Char) : List Char → List (List Char)
  | [] => [[]]
  | c :: rest =>
    let parts := splitAtChar separator rest
    if c = separator then [] :: parts
    else
      match parts with
      | [] => [[c]]
      | part :: more => (c :: part) :: more

theorem splitAtChar_ne_nil (separator : Char) (s : List Char) : splitAtChar separator s ≠ [] := by
  induction s with
  | nil => simp [splitAtChar]
  | cons c rest ih =>
    simp only [splitAtChar]
    split
    · simp
    · split <;> simp

/-- A text without the separator is one part. -/
theorem splitAtChar_of_not_mem {separator : Char} {s : List Char} (h : separator ∉ s) :
    splitAtChar separator s = [s] := by
  induction s with
  | nil => rfl
  | cons c rest ih =>
    have hc : c ≠ separator := fun heq => h (heq ▸ List.mem_cons_self)
    rw [splitAtChar, ih fun hmem => h (List.mem_cons_of_mem c hmem)]
    simp [hc]

/-- Splitting undoes joining, whatever the two texts are. -/
theorem splitAtChar_append_separator (separator : Char) (s rest : List Char) :
    splitAtChar separator (s ++ separator :: rest) =
      splitAtChar separator s ++ splitAtChar separator rest := by
  induction s with
  | nil => simp [splitAtChar]
  | cons c s ih =>
    obtain ⟨part, more, hparts⟩ := List.exists_cons_of_ne_nil (splitAtChar_ne_nil separator s)
    rw [hparts] at ih
    rw [List.cons_append, splitAtChar, splitAtChar, ih, hparts]
    by_cases hc : c = separator
    · simp [hc]
    · simp [hc]

end Exemplar
