import Exemplar.Proofs.Json.Numbers
import Exemplar.Proofs.Json.Strings

/-!
# Exemplar.Proofs.Json.Tokens

The tokens of a value, as the compact text has them, and the values that are
read back from such texts: the keys of an object are different from each
other, and doubles are read back from theirs (`Json.Legible`).

* `Json.tokens` — the tokens of a value;
* `Json.Legible` — values that are read back;
* `legible_ofInt` — integers are.
-/

namespace Exemplar

namespace Json

/-! ## tokens -/

mutual

/-- The tokens of a value. -/
def tokens : Json → List Token
  | null => [.null]
  | bool value => [.bool value]
  | number value => [.number value]
  | string value => [.string value]
  | array [] => [.openArray, .closeArray]
  | array (item :: rest) => .openArray :: item.tokens ++ moreItemTokens rest
  | object [] => [.openObject, .closeObject]
  | object ((key, value) :: rest) =>
    .openObject :: .string key :: .colon :: value.tokens ++ moreEntryTokens rest

/-- The tokens of the items after the first, and of the closing bracket. -/
def moreItemTokens : List Json → List Token
  | [] => [.closeArray]
  | item :: rest => .comma :: item.tokens ++ moreItemTokens rest

/-- The tokens of the entries after the first, and of the closing brace. -/
def moreEntryTokens : List (String × Json) → List Token
  | [] => [.closeObject]
  | (key, value) :: rest => .comma :: .string key :: .colon :: value.tokens ++ moreEntryTokens rest

end

/-! ## legible values -/

/-- A value that is read back from its tokens. -/
inductive Legible : Json → Prop where
  | null : Legible null
  | bool (value : Bool) : Legible (bool value)
  | integer (value : Int) (fits : -9223372036854775808 ≤ value ∧ value < 18446744073709551616) :
      Legible (number (.integer value fits))
  | double {x : Double} : x.ReadsBack → Legible (number (.double x))
  | string (text : String) : Legible (string text)
  | array {items : List Json} : (∀ item ∈ items, Legible item) → Legible (array items)
  | object {entries : List (String × Json)} :
      (entries.map (·.1)).Nodup → (∀ entry ∈ entries, Legible entry.2) → Legible (object entries)

/-- A value begins with no closing bracket. -/
theorem exists_tokens_eq_cons (value : Json) :
    ∃ token more, value.tokens = token :: more ∧ token ≠ .closeArray := by
  cases value with
  | null | bool | number | string => exact ⟨_, _, rfl, by simp⟩
  | array items => cases items <;> exact ⟨_, _, rfl, by simp⟩
  | object entries => cases entries <;> exact ⟨_, _, rfl, by simp⟩

/-- An integer that 64 bits cannot hold is legible if the double in its place is. -/
theorem legible_ofInt {value : Int}
    (h : ∀ x, ofInt value = number (.double x) → x.ReadsBack) : (ofInt value).Legible := by
  rw [ofInt] at h ⊢
  split
  · next n hn =>
      rw [Number.ofInt?] at hn
      split at hn
      · cases hn
        exact .integer _ _
      · contradiction
  · next hn =>
      rw [hn] at h
      split
      · next x hx =>
          rw [hx] at h
          exact .double (h x rfl)
      · exact .null

end Json

end Exemplar
