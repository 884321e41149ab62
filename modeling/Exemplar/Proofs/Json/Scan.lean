import Exemplar.Json.Token

/-!
# Exemplar.Proofs.Json.Scan

Texts that are spelled token by token.  A piece of text is a token's text if
the token is read from it whatever comes after it, as long as that does not go
on with a number; a text is spelled by tokens if it is put together from their
texts, with blanks anywhere between them.

* `Token.IsText`, `Spelled` — the text of a token, and of a list of tokens;
* `scan_of_spelled` — scanning such a text finds these tokens.
-/

namespace Exemplar

/-! ## texts of tokens -/

/-- What stands after a number, if anything does: a blank or a mark. -/
def NumberEnds (rest : List Char) : Prop :=
  ∀ c ∈ rest.head?, isJsonBlank c = true ∨ c ∈ [',', ':', ']', '}']

/-- What may stand after a token; only numbers do not end by themselves. -/
def Token.EndsBefore (token : Token) (rest : List Char) : Prop :=
  match token with
  | number _ => NumberEnds rest
  | _ => True

/-- The token is read from the text, whatever stands after it. -/
def Token.IsText (token : Token) (s : List Char) : Prop :=
  ∀ rest offset, token.EndsBefore rest →
    ∃ stop, readToken ⟨offset, s ++ rest⟩ = .ok (token, ⟨stop, rest⟩)

/-- A text is put together from the texts of tokens, and blanks. -/
inductive Spelled : List Char → List Token → Prop where
  | nil : Spelled [] []
  | blank {c : Char} {s : List Char} {tokens : List Token} :
      isJsonBlank c = true → Spelled s tokens → Spelled (c :: s) tokens
  | token {token : Token} {s rest : List Char} {tokens : List Token} :
      token.IsText s → token.EndsBefore rest → Spelled rest tokens →
        Spelled (s ++ rest) (token :: tokens)

theorem numberEnds_nil : NumberEnds [] := fun _ h => by contradiction

theorem numberEnds_cons {c : Char} (h : c ∈ [',', ':', ']', '}']) (rest : List Char) :
    NumberEnds (c :: rest) := by
  intro d hd
  cases hd
  exact .inr h

/-- What ends a number ends any token. -/
theorem NumberEnds.endsBefore {rest : List Char} (h : NumberEnds rest) (token : Token) :
    token.EndsBefore rest := by
  cases token with
  | number => exact h
  | _ => trivial

theorem mem_blanks_of_isJsonBlank {c : Char} (h : isJsonBlank c = true) :
    c ∈ [' ', '\n', '\t', '\r'] := by
  simpa [isJsonBlank, or_assoc] using h

/-- No token begins with a blank. -/
theorem Token.IsText.exists_cons {token : Token} {s : List Char} (h : token.IsText s) :
    ∃ c tail, s = c :: tail ∧ isJsonBlank c = false := by
  obtain ⟨stop, hread⟩ := h [] 0 (numberEnds_nil.endsBefore token)
  cases s with
  | nil => contradiction
  | cons c tail =>
      refine ⟨c, tail, rfl, Bool.eq_false_iff.mpr fun hblank => ?_⟩
      have hmem := mem_blanks_of_isJsonBlank hblank
      simp only [List.mem_cons, List.not_mem_nil, or_false] at hmem
      obtain rfl | rfl | rfl | rfl := hmem <;> contradiction

/-! ## scanning -/

/-- The lexemes are these tokens, up to the end of the text. -/
inductive Lexemes.Of : List Token → Lexemes → Prop where
  | finish (offset : Nat) : Of [] (.finish offset)
  | cons {token : Token} {tokens : List Token} {rest : Lexemes} (start stop : Nat) :
      Of tokens rest → Of (token :: tokens) (.cons token start stop rest)

/-- A blank is passed over. -/
theorem scanFrom_blank {c : Char} (h : isJsonBlank c = true) (fuel offset : Nat) (s : List Char) :
    Lexemes.scanFrom (fuel + 1) ⟨offset, c :: s⟩ = Lexemes.scanFrom (fuel + 1) ⟨offset + 1, s⟩ := by
  have hlength : offset + ((s.takeWhile isJsonBlank).length + 1) =
      offset + 1 + (s.takeWhile isJsonBlank).length := by omega
  simp only [Lexemes.scanFrom, List.takeWhile_cons_of_pos h, List.dropWhile_cons_of_pos h,
    List.length_cons, hlength]

/-- A token at the front is scanned, whatever comes after it. -/
theorem scanFrom_token {token : Token} {s : List Char} (h : token.IsText s) {rest : List Char}
    (hrest : token.EndsBefore rest) (fuel offset : Nat) :
    ∃ start stop, Lexemes.scanFrom (fuel + 1) ⟨offset, s ++ rest⟩ =
      .cons token start stop (Lexemes.scanFrom fuel ⟨stop, rest⟩) := by
  obtain ⟨stop, hread⟩ := h rest offset hrest
  obtain ⟨c, tail, rfl, hblank⟩ := h.exists_cons
  have hc : ¬ isJsonBlank c = true := Bool.eq_false_iff.mp hblank
  refine ⟨offset, stop, ?_⟩
  simp only [List.cons_append] at hread
  simp only [Lexemes.scanFrom, List.cons_append, List.takeWhile_cons_of_neg hc,
    List.dropWhile_cons_of_neg hc, List.length_nil, Nat.add_zero, hread]

/-- The tokens of a spelled text are scanned one after the other. -/
theorem scanFrom_of_spelled {s : List Char} {tokens : List Token} (h : Spelled s tokens) :
    ∀ {fuel : Nat} (offset : Nat), s.length < fuel →
      Lexemes.Of tokens (Lexemes.scanFrom fuel ⟨offset, s⟩) := by
  induction h with
  | nil =>
      intro fuel offset hfuel
      obtain ⟨fuel, rfl⟩ := Nat.exists_eq_add_of_lt hfuel
      exact .finish _
  | @blank c s tokens hc _ ih =>
      intro fuel offset hfuel
      rw [List.length_cons] at hfuel
      obtain ⟨fuel, rfl⟩ : ∃ n, fuel = n + 1 := ⟨fuel - 1, by omega⟩
      rw [scanFrom_blank hc]
      exact ih _ (by omega)
  | @token token s rest tokens hs hrest _ ih =>
      intro fuel offset hfuel
      have hpos : 0 < s.length := by
        obtain ⟨c, tail, rfl, _⟩ := hs.exists_cons
        exact Nat.succ_pos _
      rw [List.length_append] at hfuel
      obtain ⟨fuel, rfl⟩ : ∃ n, fuel = n + 1 := ⟨fuel - 1, by omega⟩
      obtain ⟨start, stop, hscan⟩ := scanFrom_token hs hrest fuel offset
      rw [hscan]
      exact .cons start stop (ih stop (by omega))

/-- **Scanning a spelled text** finds the tokens that it is spelled by. -/
theorem scan_of_spelled {text : List Char} {tokens : List Token} (h : Spelled text tokens) :
    Lexemes.Of tokens (Lexemes.scan text) :=
  scanFrom_of_spelled h 0 (Nat.lt_succ_self _)

end Exemplar
