import Exemplar.Json.Printer
import Exemplar.Proofs.Except
import Exemplar.Proofs.Json.Scan

/-!
# Exemplar.Proofs.Json.Strings

The texts of marks, words and strings.  A string is read back from its text if
every character is read back from what stands for it (`Escapes`): the
character itself, a backslash and a letter, or its code point.

* `isText_string` — a string between quotes.
-/

namespace Exemplar

/-! ## marks and words -/

theorem isText_openArray : Token.openArray.IsText ['['] := fun _ _ _ => ⟨_, rfl⟩

theorem isText_closeArray : Token.closeArray.IsText [']'] := fun _ _ _ => ⟨_, rfl⟩

theorem isText_openObject : Token.openObject.IsText ['{'] := fun _ _ _ => ⟨_, rfl⟩

theorem isText_closeObject : Token.closeObject.IsText ['}'] := fun _ _ _ => ⟨_, rfl⟩

theorem isText_colon : Token.colon.IsText [':'] := fun _ _ _ => ⟨_, rfl⟩

theorem isText_comma : Token.comma.IsText [','] := fun _ _ _ => ⟨_, rfl⟩

theorem isText_null : Token.null.IsText "null".toList := fun _ _ _ => ⟨_, rfl⟩

theorem isText_true : (Token.bool true).IsText "true".toList := fun _ _ _ => ⟨_, rfl⟩

theorem isText_false : (Token.bool false).IsText "false".toList := fun _ _ _ => ⟨_, rfl⟩

/-! ## characters in strings -/

section

variable {fuel offset : Nat} {done rest : List Char} {c : Char}

/-- A character that stands for itself. -/
theorem readString_plain (hquote : c ≠ '"') (hslash : c ≠ '\\') (hcontrol : ¬ c.toNat < 0x20) :
    readString (fuel + 1) done ⟨offset, c :: rest⟩ =
      readString fuel (c :: done) ⟨offset + c.utf8Size, rest⟩ := by
  rw [readString]
  split
  · contradiction
  · next h =>
      cases h
      contradiction
  · next h =>
      cases h
      contradiction
  · next h =>
      cases h
      contradiction
  · next h =>
      cases h
      contradiction
  · next h =>
      cases h
      rw [if_neg hcontrol]

/-- A character that is spelled with a backslash and a letter. -/
theorem readString_letter {letter : Char} (hletter : letter ≠ 'u')
    (hchar : escapedChar? letter = some c) :
    readString (fuel + 1) done ⟨offset, '\\' :: letter :: rest⟩ =
      readString fuel (c :: done) ⟨offset + 2, rest⟩ := by
  rw [readString]
  split
  · contradiction
  · next h => exact absurd h (by simp)
  · next h => exact absurd h (by simp)
  · next h =>
      cases h
      contradiction
  · next h =>
      cases h
      rw [hchar]
  · next hnot h =>
      cases h
      exact absurd rfl (hnot letter rest rfl)

/-- A hexadecimal digit is read back as its value. -/
theorem hexValue?_hexDigit {n : Nat} (h : n < 16) :
    hexValue? (hexDigit n) = some n ∧ (hexDigit n).utf8Size = 1 := by
  have hall : ∀ n < 16, hexValue? (hexDigit n) = some n ∧ (hexDigit n).utf8Size = 1 := by decide
  exact hall n h

/-- Four digits, the first two zero. -/
theorem readHexUnit_zero {a b : Nat} (ha : a < 16) (hb : b < 16) :
    readHexUnit ⟨offset, '0' :: '0' :: hexDigit a :: hexDigit b :: rest⟩ =
      .ok (a * 16 + b, ⟨offset + 4, rest⟩) := by
  obtain ⟨hvalue, hsize⟩ := hexValue?_hexDigit ha
  obtain ⟨hvalue', hsize'⟩ := hexValue?_hexDigit hb
  have hzero : hexValue? '0' = some 0 ∧ '0'.utf8Size = 1 := by decide
  have hstop : (Cursor.advance ⟨offset, '0' :: '0' :: hexDigit a :: hexDigit b :: rest⟩ 4).offset =
      offset + 4 := by
    simp only [Cursor.advance, List.take_succ_cons, List.take_zero, byteLength, hzero.2, hsize,
      hsize']
  rw [readHexUnit, hstop, if_neg (Nat.lt_irrefl _)]
  simp only [hzero.1, hvalue, hvalue', Nat.zero_mul, Nat.zero_add]

/-- A control character that is spelled by its code point. -/
theorem readString_code (hcontrol : c.toNat < 0x20) :
    readString (fuel + 1) done ⟨offset, '\\' :: 'u' :: '0' :: '0' :: hexDigit (c.toNat / 16) ::
        hexDigit (c.toNat % 16) :: rest⟩ =
      readString fuel (c :: done) ⟨offset + 6, rest⟩ := by
  have hunit : readHexUnit ⟨offset + 2, '0' :: '0' :: hexDigit (c.toNat / 16) ::
      hexDigit (c.toNat % 16) :: rest⟩ =
        .ok (c.toNat / 16 * 16 + c.toNat % 16, ⟨offset + 6, rest⟩) :=
    readHexUnit_zero (by omega) (Nat.mod_lt c.toNat (by decide))
  rw [Nat.div_add_mod'] at hunit
  have htrailing : isTrailingSurrogate c.toNat = false := by
    simp [isTrailingSurrogate]
    omega
  have hleading : isLeadingSurrogate c.toNat = false := by
    simp [isLeadingSurrogate]
    omega
  have hpoint : readCodePoint ⟨offset + 2, '0' :: '0' :: hexDigit (c.toNat / 16) ::
      hexDigit (c.toNat % 16) :: rest⟩ = .ok (c, ⟨offset + 6, rest⟩) := by
    rw [readCodePoint.eq_def]
    refine Except.bind_eq_ok_iff.mpr ⟨_, hunit, ?_⟩
    simp only [htrailing, hleading, Char.ofNat_toNat]
    rfl
  simp only [readString, hpoint]
  rfl

end

/-! ## strings -/

/-- Every character is read back from what stands for it. -/
structure Escapes (escape : Char → List Char) : Prop where
  ne_nil : ∀ c, escape c ≠ []
  read : ∀ (c : Char) (fuel : Nat) (done : List Char) (offset : Nat) (rest : List Char),
    ∃ offset', readString (fuel + 1) done ⟨offset, escape c ++ rest⟩ =
      readString fuel (c :: done) ⟨offset', rest⟩

section

variable {escape : Char → List Char}

/-- A string is read back character by character, up to its closing quote. -/
theorem Escapes.readString_flatMap (h : Escapes escape) (s : List Char) {fuel : Nat}
    (hfuel : s.length < fuel) (done : List Char) (offset : Nat) (rest : List Char) :
    ∃ stop, readString fuel done ⟨offset, s.flatMap escape ++ '"' :: rest⟩ =
      .ok (String.ofList (done.reverse ++ s), ⟨stop, rest⟩) := by
  induction s generalizing fuel done offset with
  | nil =>
      obtain ⟨fuel, rfl⟩ : ∃ n, fuel = n + 1 := ⟨fuel - 1, by omega⟩
      exact ⟨offset + 1, by rw [List.append_nil]; rfl⟩
  | cons c s ih =>
      rw [List.length_cons] at hfuel
      obtain ⟨fuel, rfl⟩ : ∃ n, fuel = n + 1 := ⟨fuel - 1, by omega⟩
      obtain ⟨offset', hchar⟩ := h.read c fuel done offset (s.flatMap escape ++ '"' :: rest)
      obtain ⟨stop, hread⟩ := ih (show s.length < fuel by omega) (c :: done) offset'
      refine ⟨stop, ?_⟩
      rw [List.flatMap_cons, List.append_assoc, hchar, hread, List.reverse_cons, List.append_assoc]
      rfl

/-- Escaping does not shorten a text. -/
theorem Escapes.length_le (h : Escapes escape) (s : List Char) :
    s.length ≤ (s.flatMap escape).length := by
  induction s with
  | nil => exact Nat.le_refl 0
  | cons c s ih =>
      have hpos := List.length_pos_iff.mpr (h.ne_nil c)
      rw [List.flatMap_cons, List.length_append, List.length_cons]
      omega

/-- **Strings**: the characters between quotes, each spelled so that it is
read back. -/
theorem isText_string (h : Escapes escape) (s : String) :
    (Token.string s).IsText ('"' :: s.toList.flatMap escape ++ ['"']) := by
  intro rest offset _
  have hshape : '"' :: s.toList.flatMap escape ++ ['"'] ++ rest =
      '"' :: (s.toList.flatMap escape ++ '"' :: rest) := by simp
  have hfuel : s.toList.length < (s.toList.flatMap escape ++ '"' :: rest).length + 1 := by
    have hlength := h.length_le s.toList
    rw [List.length_append]
    omega
  obtain ⟨stop, hread⟩ := h.readString_flatMap s.toList hfuel [] (offset + 1) rest
  rw [List.reverse_nil, List.nil_append, String.ofList_toList] at hread
  refine ⟨stop, ?_⟩
  rw [hshape]
  show (readString ((s.toList.flatMap escape ++ '"' :: rest).length + 1) []
    ⟨offset + 1, s.toList.flatMap escape ++ '"' :: rest⟩).map _ = _
  rw [hread]
  rfl

end

end Exemplar
