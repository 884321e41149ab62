import Exemplar.Filter.Apply
import Exemplar.Proofs.Json.Printing
import Exemplar.Proofs.Json.Reading

/-!
# Exemplar.Proofs.Filter.Identity

The filter `.`.  Its output is its input, but outputs are written as text and
read back, so there is one only if the reader has room for its brackets.

* `spelled_ofJson` — the text of a legible value, as filters write it;
* `apply_dot_eq_ok`, `apply_dot_eq_error` — applying the filter `.`.
-/

namespace Exemplar

open Exemplar.Filter (Value)

/-! ## strings and numbers -/

/-- Every character is read back from what filters write for it. -/
theorem escapes_escapeChar : Escapes Value.escapeChar where
  ne_nil c := by
    unfold Value.escapeChar
    split
    case h_6 => split <;> simp
    all_goals simp
  read c fuel done offset rest := by
    unfold Value.escapeChar
    split
    case h_6 hquote hslash _ _ _ =>
      split
      · next hcontrol => exact ⟨_, readString_code hcontrol⟩
      · next hcontrol => exact ⟨_, readString_plain hquote hslash hcontrol⟩
    all_goals exact ⟨_, readString_letter (by decide) rfl⟩

/-- Numbers are printed by filters as they are anyway. -/
theorem chars_ofNumber (n : Number) : (Value.ofNumber n).chars = Json.numberChars n := by
  cases n with
  | integer value fits =>
      rw [Value.ofNumber, Value.ofInteger]
      split
      · rfl
      · exact String.toList_ofList
  | double x => exact String.toList_ofList

/-! ## texts of values -/

mutual

/-- What filters write for a value is put together from the texts of its tokens. -/
theorem chars_ofJson : (value : Json) →
    (Value.ofJson value).chars = value.tokens.flatMap (Token.chars Value.escapeChar)
  | .null | .bool true | .bool false => by
      simp [Value.ofJson, Value.chars, Json.tokens, Token.chars]
  | .number n => by simp [Value.ofJson, chars_ofNumber, Json.tokens, Token.chars]
  | .string s => by simp [Value.ofJson, Value.chars, Value.stringChars, Json.tokens, Token.chars]
  | .array [] | .object [] => by
      simp [Value.ofJson, Value.ofItems, Value.ofEntries, Value.chars, Json.tokens, Token.chars]
  | .array (item :: rest) => by
      simp [Value.ofJson, Value.ofItems, Value.chars, Json.tokens, Token.chars, chars_ofJson item,
        chars_ofItems rest]
  | .object ((key, value) :: rest) => by
      simp [Value.ofJson, Value.ofEntries, Value.chars, Value.stringChars, Json.tokens,
        Token.chars, chars_ofJson value, chars_ofEntries rest]

theorem chars_ofItems : (items : List Json) → Value.moreItems (Value.ofItems items) =
    (Json.moreItemTokens items).flatMap (Token.chars Value.escapeChar)
  | [] => by simp [Value.ofItems, Value.moreItems, Json.moreItemTokens, Token.chars]
  | item :: rest => by
      simp [Value.ofItems, Value.moreItems, Json.moreItemTokens, Token.chars, chars_ofJson item,
        chars_ofItems rest]

theorem chars_ofEntries : (entries : List (String × Json)) →
    Value.moreEntries (Value.ofEntries entries) =
      (Json.moreEntryTokens entries).flatMap (Token.chars Value.escapeChar)
  | [] => by simp [Value.ofEntries, Value.moreEntries, Json.moreEntryTokens, Token.chars]
  | (key, value) :: rest => by
      simp [Value.ofEntries, Value.moreEntries, Value.stringChars, Json.moreEntryTokens,
        Token.chars, chars_ofJson value, chars_ofEntries rest]

end

/-- The text of a legible value, as filters write it. -/
theorem spelled_ofJson {value : Json} (h : value.Legible) :
    Spelled (Value.ofJson value).chars value.tokens := by
  rw [chars_ofJson]
  exact spelled_tokens escapes_escapeChar h

/-! ## the filter -/

namespace Filter

/-- The filter is the identity. -/
theorem parse_dot : Term.parse "." = .ok .identity := by
  rfl

/-- The only output is the input, read back from its text. -/
theorem apply_dot (value : Json) :
    apply "." value = (readBack (Value.ofJson value)).map fun output => [output] := by
  rw [apply, parse_dot]
  show Term.outputs .identity value = _
  rw [Term.outputs, Term.run, Stream.one, List.mapM_cons]
  show (do let output ← readBack (Value.ofJson value); return [output]) = _
  cases readBack (Value.ofJson value) <;> rfl

/-- **The filter `.`** has its input for its only output, if the reader has
room for the brackets of the input. -/
theorem apply_dot_eq_ok {value : Json} (h : value.Legible)
    (hnesting : value.nesting ≤ nestingLimit) : apply "." value = .ok [value] := by
  have hread : Json.read (Value.ofJson value).text = .ok value :=
    Json.read_eq_ok h (spelled_ofJson h) hnesting
  rw [apply_dot, readBack, hread]
  rfl

/-- Otherwise it has none. -/
theorem apply_dot_eq_error {value : Json} (h : value.Legible)
    (hnesting : nestingLimit < value.nesting) : ∃ e, apply "." value = .error e := by
  obtain ⟨e, hread⟩ := Json.read_eq_error h (spelled_ofJson h) hnesting
  have hread : Json.read (Value.ofJson value).text = .error e := hread
  rw [apply_dot, readBack, hread]
  exact ⟨_, rfl⟩

end Filter

end Exemplar
