import Exemplar.Proofs.Json.Printing
import Exemplar.Proofs.Json.Reading

/-!
# Exemplar.Proofs.Json.Indented

The indented text of a value.  It has the tokens of the compact text, with new
lines and blanks between them, so that both texts are read as the value.

* `SpelledIndented` — the indented text, at any level, in front of other text;
* `spelled_indentedChars` — it is spelled by the tokens of the value;
* `read_render_eq_ok_iff` — reading a value back from its text.
-/

namespace Exemplar

namespace Json

section

variable {value : Json} {items : List Json} {entries : List (String × Json)}
  {rest : List Char} {more : List Token}

/-! ## new lines -/

/-- A line break and its indentation are blanks between tokens. -/
theorem spelled_newLine (level : Nat) (hrest : Spelled rest more) :
    Spelled (newLine level ++ rest) more := by
  refine .blank (by decide) ?_
  induction 2 * level with
  | zero => exact hrest
  | succ n ih => exact .blank (by decide) ih

theorem numberEnds_newLine (level : Nat) (rest : List Char) :
    NumberEnds (newLine level ++ rest) := by
  intro c hc
  cases hc
  exact .inl (by decide)

/-! ## the indented text -/

/-- In front of other text, too, the indented text at any level is spelled by
the tokens of the value. -/
def SpelledIndented (value : Json) : Prop :=
  ∀ (level : Nat) {rest : List Char} {more : List Token}, NumberEnds rest → Spelled rest more →
    Spelled (value.indentedChars level ++ rest) (value.tokens ++ more)

/-- Values that stay on one line are laid out as in the compact text. -/
theorem spelledIndented_of_eq (h : value.Legible)
    (heq : ∀ level, value.indentedChars level = value.compactChars) : value.SpelledIndented := by
  intro level rest more hends hrest
  rw [heq, compactChars_eq]
  exact spelledByTokens_of_legible escapes_escapeChar h hends hrest

/-- The indented items spell their tokens, with a comma before each. -/
theorem spelled_indentedItems (level : Nat) (hitems : ∀ item ∈ items, item.SpelledIndented)
    (hrest : Spelled rest more) :
    Spelled (indentedItems level items ++ rest) (moreItemTokens items ++ more) ∧
      NumberEnds (indentedItems level items ++ rest) := by
  induction items with
  | nil =>
      rw [indentedItems, List.append_assoc]
      exact ⟨spelled_newLine level (.token isText_closeArray trivial hrest),
        numberEnds_newLine level _⟩
  | cons item items ih =>
      obtain ⟨hitem, hitems⟩ := List.forall_mem_cons.mp hitems
      obtain ⟨hmore, hends⟩ := ih hitems
      simp only [indentedItems, moreItemTokens, List.cons_append, List.append_assoc]
      exact ⟨.token isText_comma trivial (spelled_newLine _ (hitem _ hends hmore)),
        numberEnds_cons (by decide) _⟩

/-- An array is spelled if its items are. -/
theorem spelledIndented_array (hitems : ∀ item ∈ items, item.SpelledIndented) :
    (array items).SpelledIndented := by
  intro level rest more _ hrest
  cases items with
  | nil =>
      show Spelled (['['] ++ ([']'] ++ rest)) (.openArray :: .closeArray :: more)
      exact .token isText_openArray trivial (.token isText_closeArray trivial hrest)
  | cons item items =>
      obtain ⟨hitem, hitems⟩ := List.forall_mem_cons.mp hitems
      obtain ⟨hmore, hends⟩ := spelled_indentedItems level hitems hrest
      simp only [indentedChars, tokens, List.cons_append, List.append_assoc]
      exact .token isText_openArray trivial (spelled_newLine _ (hitem _ hends hmore))

/-- A new line, a key, a colon, a blank and a value. -/
theorem spelled_indentedEntry (key : String) (hvalue : value.SpelledIndented) (level : Nat)
    (hends : NumberEnds rest) (hrest : Spelled rest more) :
    Spelled (newLine level ++ (stringChars key ++ (':' :: ' ' ::
        (value.indentedChars level ++ rest))))
      (.string key :: .colon :: (value.tokens ++ more)) := by
  have hafter : Spelled (' ' :: (value.indentedChars level ++ rest)) (value.tokens ++ more) :=
    .blank (by decide) (hvalue level hends hrest)
  exact spelled_newLine level (.token (isText_string escapes_escapeChar key) trivial
    (.token isText_colon trivial hafter))

/-- The indented entries spell their tokens, with a comma before each. -/
theorem spelled_indentedEntries (level : Nat)
    (hentries : ∀ entry ∈ entries, entry.2.SpelledIndented) (hrest : Spelled rest more) :
    Spelled (indentedEntries level entries ++ rest) (moreEntryTokens entries ++ more) ∧
      NumberEnds (indentedEntries level entries ++ rest) := by
  induction entries with
  | nil =>
      rw [indentedEntries, List.append_assoc]
      exact ⟨spelled_newLine level (.token isText_closeObject trivial hrest),
        numberEnds_newLine level _⟩
  | cons entry entries ih =>
      obtain ⟨key, value⟩ := entry
      obtain ⟨hvalue, hentries⟩ := List.forall_mem_cons.mp hentries
      obtain ⟨hmore, hends⟩ := ih hentries
      simp only [indentedEntries, moreEntryTokens, List.cons_append, List.append_assoc]
      exact ⟨.token isText_comma trivial (spelled_indentedEntry key hvalue _ hends hmore),
        numberEnds_cons (by decide) _⟩

/-- An object is spelled if the values in it are. -/
theorem spelledIndented_object (hentries : ∀ entry ∈ entries, entry.2.SpelledIndented) :
    (object entries).SpelledIndented := by
  intro level rest more _ hrest
  cases entries with
  | nil =>
      show Spelled (['{'] ++ (['}'] ++ rest)) (.openObject :: .closeObject :: more)
      exact .token isText_openObject trivial (.token isText_closeObject trivial hrest)
  | cons entry entries =>
      obtain ⟨key, value⟩ := entry
      obtain ⟨hvalue, hentries⟩ := List.forall_mem_cons.mp hentries
      obtain ⟨hmore, hends⟩ := spelled_indentedEntries level hentries hrest
      simp only [indentedChars, tokens, List.cons_append, List.append_assoc]
      exact .token isText_openObject trivial (spelled_indentedEntry key hvalue _ hends hmore)

/-- A legible value is spelled with indentation, too. -/
theorem spelledIndented_of_legible (h : value.Legible) : value.SpelledIndented := by
  induction h with
  | null => exact spelledIndented_of_eq .null fun _ => rfl
  | bool value =>
      refine spelledIndented_of_eq (.bool value) fun _ => ?_
      cases value <;> rfl
  | integer value fits => exact spelledIndented_of_eq (.integer value fits) fun _ => rfl
  | double hreads => exact spelledIndented_of_eq (.double hreads) fun _ => rfl
  | string text => exact spelledIndented_of_eq (.string text) fun _ => rfl
  | array _ ih => exact spelledIndented_array ih
  | object _ _ ih => exact spelledIndented_object ih

/-- **The indented text** of a legible value is spelled by its tokens. -/
theorem spelled_indentedChars (h : value.Legible) (level : Nat) :
    Spelled (value.indentedChars level) value.tokens := by
  have hspelled := spelledIndented_of_legible h level numberEnds_nil .nil
  rw [List.append_nil, List.append_nil] at hspelled
  exact hspelled

/-! ## reading back -/

/-- **Reading back**: in both styles a legible value is read from its text, if
its brackets may be open at once. -/
theorem read_render_eq_ok_iff (h : value.Legible) (style : Style) :
    read (value.render style) = .ok value ↔ value.nesting ≤ nestingLimit := by
  obtain ⟨chars, hrender, hchars⟩ : ∃ chars, value.render style = String.ofList chars ∧
      Spelled chars value.tokens := by
    cases style with
    | indented => exact ⟨_, rfl, spelled_indentedChars h 0⟩
    | compact => exact ⟨_, rfl, spelled_compactChars h⟩
  rw [hrender]
  by_cases hnesting : value.nesting ≤ nestingLimit
  · exact iff_of_true (read_eq_ok h hchars hnesting) hnesting
  · obtain ⟨e, he⟩ := read_eq_error h hchars (Nat.not_le.mp hnesting)
    rw [he]
    exact iff_of_false (fun h => by contradiction) hnesting

end

end Json

end Exemplar
