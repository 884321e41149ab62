import Mathlib.Data.List.TakeWhile
import Exemplar.Json.Printer
import Exemplar.Proofs.Json.Scan

/-!
# Exemplar.Proofs.Json.Numbers

The texts of numbers.  A number is read up to a character that cannot go on
with it, so what is read from its text alone is read from it in every place.
Integers of 64 bits are always read back from their digits; whether a double
is, depends on the double (`Double.ReadsBack`).

* `readsOn_readNumber` — reading a number in front of other text;
* `isText_number` — a text that is read as a number, to its end;
* `isText_integer` — the digits of an integer.
-/

namespace Exemplar

/-- The text of a number is read as the number itself, to its end. -/
def Double.ReadsBack (x : Double) : Prop :=
  ∃ stop, readNumber ⟨0, x.chars⟩ = .ok (.double x, ⟨stop, []⟩)

/-! ## what stands after a number -/

section

variable {rest : List Char}

/-- Nothing that can go on with a number stands after it. -/
theorem not_mem_head_of_numberEnds (h : NumberEnds rest) {c : Char}
    (hc : c ∉ [' ', '\n', '\t', '\r', ',', ':', ']', '}']) : c ∉ rest.head? := by
  intro hmem
  refine hc ?_
  obtain hblank | hmark := h c hmem
  · exact List.mem_append_left [',', ':', ']', '}'] (mem_blanks_of_isJsonBlank hblank)
  · exact List.mem_append_right [' ', '\n', '\t', '\r'] hmark

/-- A character that passes a test is none of those that do not. -/
theorem not_mem_of_all {p : Char → Bool} {cs : List Char} (h : cs.all (!p ·) = true) {c : Char}
    (hc : p c = true) : c ∉ cs := by
  intro hmem
  have hnot := List.all_eq_true.mp h c hmem
  rw [hc] at hnot
  contradiction

theorem append_ne_cons_of_numberEnds (h : NumberEnds rest) {c : Char}
    (hc : c ∉ [' ', '\n', '\t', '\r', ',', ':', ']', '}']) {s : List Char}
    (hs : ∀ tail, s = c :: tail → False) : ∀ tail, s ++ rest = c :: tail → False := by
  intro tail heq
  cases s with
  | nil =>
      rw [List.nil_append] at heq
      exact not_mem_head_of_numberEnds h hc (by rw [heq]; rfl)
  | cons d s => exact hs s (by rw [List.head_eq_of_cons_eq heq])

/-- The digits at the front stay the same when more text follows. -/
theorem digits_append (h : NumberEnds rest) (s : List Char) :
    (s ++ rest).takeWhile Char.isDigit = s.takeWhile Char.isDigit ∧
      (s ++ rest).dropWhile Char.isDigit = s.dropWhile Char.isDigit ++ rest := by
  induction s with
  | nil =>
      cases rest with
      | nil => exact ⟨rfl, rfl⟩
      | cons c tail =>
          have hc : ¬ c.isDigit = true := fun hdigit =>
            not_mem_head_of_numberEnds h (not_mem_of_all (by decide) hdigit) rfl
          exact ⟨List.takeWhile_cons_of_neg hc, List.dropWhile_cons_of_neg hc⟩
  | cons c s ih => by_cases hc : c.isDigit = true <;> simp [hc, ih]

/-- Digits end where a token ends. -/
theorem readDigits_append (h : NumberEnds rest) {s after : List Char} {offset stop : Nat}
    {digits : List Nat} (hread : readDigits ⟨offset, s⟩ = (digits, ⟨stop, after⟩))
    (offset' : Nat) :
    ∃ stop', readDigits ⟨offset', s ++ rest⟩ = (digits, ⟨stop', after ++ rest⟩) := by
  cases hread
  refine ⟨offset' + (s.takeWhile Char.isDigit).length, ?_⟩
  simp only [readDigits, (digits_append h s).1, (digits_append h s).2]

/-- Reading goes on in the same way when more text follows. -/
def ReadsOn (read : Cursor → Except SyntaxError (Number × Cursor)) : Prop :=
  ∀ {s after : List Char} {offset stop : Nat} {n : Number},
    read ⟨offset, s⟩ = .ok (n, ⟨stop, after⟩) → ∀ {rest : List Char}, NumberEnds rest →
      ∀ offset', ∃ stop', read ⟨offset', s ++ rest⟩ = .ok (n, ⟨stop', after ++ rest⟩)

/-- Finishing a double reads nothing more. -/
theorem readsOn_finishDouble (negative : Bool) (significand : Nat) (exponent : Int) :
    ReadsOn (finishDouble negative significand exponent) := by
  intro s after offset stop n h rest _ offset'
  rw [finishDouble] at h ⊢
  split at h
  · cases h
    exact ⟨_, rfl⟩
  · contradiction

/-- Finishing an integer reads nothing more. -/
theorem readsOn_finishInteger (negative : Bool) (significand : Nat) :
    ReadsOn (finishInteger negative significand) := by
  intro s after offset stop n h rest hrest offset'
  rw [finishInteger] at h ⊢
  split at h
  · next hzero =>
      rw [if_pos hzero]
      exact readsOn_finishDouble _ _ _ h hrest offset'
  · next hzero =>
      rw [if_neg hzero]
      split at h
      · cases h
        exact ⟨_, rfl⟩
      · exact readsOn_finishDouble _ _ _ h hrest offset'

/-- Reads an exponent after its sign. -/
def readExponentDigits (negative : Bool) (significand : Nat) (exponent : Int) (down : Bool)
    (c : Cursor) : Except SyntaxError (Number × Cursor) :=
  match readDigits c with
  | ([], _) =>
    if c.rest.isEmpty then .error ⟨.endOfValue, c.offset⟩
    else .error ⟨.invalidNumber, c.offset + 1⟩
  | (digits, stop) =>
    let (value, left) := appendDigits exponentBound 0 digits
    if 0 < left ∧ significand ≠ 0 ∧ down = false then
      .error ⟨.numberOutOfRange, stop.offset + 1 - left⟩
    else
      let value : Int := if 0 < left then exponentBound else value
      finishDouble negative significand (if down then exponent - value else exponent + value) stop

/-- Whether an exponent is negative, and what is left after its sign. -/
def exponentSign (c : Cursor) : Bool × Cursor :=
  match c.rest with
  | '+' :: rest => (false, ⟨c.offset + 1, rest⟩)
  | '-' :: rest => (true, ⟨c.offset + 1, rest⟩)
  | _ => (false, c)

theorem readExponent_eq (negative : Bool) (significand : Nat) (exponent : Int) (c : Cursor) :
    readExponent negative significand exponent c =
      readExponentDigits negative significand exponent (exponentSign c).1 (exponentSign c).2 := rfl

/-- The sign of an exponent does not depend on what follows the number. -/
theorem exponentSign_append (h : NumberEnds rest) {s after : List Char} {offset stop : Nat}
    {down : Bool} (hsign : exponentSign ⟨offset, s⟩ = (down, ⟨stop, after⟩)) (offset' : Nat) :
    ∃ stop', exponentSign ⟨offset', s ++ rest⟩ = (down, ⟨stop', after ++ rest⟩) := by
  rw [exponentSign] at hsign ⊢
  simp only at hsign ⊢
  split at hsign
  · cases hsign
    exact ⟨_, rfl⟩
  · cases hsign
    exact ⟨_, rfl⟩
  · next hplus hminus =>
      cases hsign
      split
      · next heq => exact (append_ne_cons_of_numberEnds h (by decide) hplus _ heq).elim
      · next heq => exact (append_ne_cons_of_numberEnds h (by decide) hminus _ heq).elim
      · exact ⟨_, rfl⟩

theorem readsOn_readExponentDigits (negative : Bool) (significand : Nat) (exponent : Int)
    (down : Bool) : ReadsOn (readExponentDigits negative significand exponent down) := by
  intro s after offset stop n h rest hrest offset'
  cases hdigits : readDigits ⟨offset, s⟩ with
  | mk digits c =>
      obtain ⟨middle, tail⟩ := c
      obtain ⟨middle', hdigits'⟩ := readDigits_append hrest hdigits offset'
      rw [readExponentDigits, hdigits] at h
      rw [readExponentDigits, hdigits']
      cases digits with
      | nil =>
          simp only at h
          split at h <;> contradiction
      | cons d digits =>
          simp only at h ⊢
          split at h
          · contradiction
          · next hleft =>
              rw [if_neg hleft]
              exact readsOn_finishDouble _ _ _ h hrest _

/-- An exponent is read in the same way in front of other text. -/
theorem readsOn_readExponent (negative : Bool) (significand : Nat) (exponent : Int) :
    ReadsOn (readExponent negative significand exponent) := by
  intro s after offset stop n h rest hrest offset'
  cases hsign : exponentSign ⟨offset, s⟩ with
  | mk down c =>
      obtain ⟨middle, tail⟩ := c
      obtain ⟨middle', hsign'⟩ := exponentSign_append hrest hsign offset'
      rw [readExponent_eq, hsign] at h
      rw [readExponent_eq, hsign']
      exact readsOn_readExponentDigits _ _ _ _ h hrest _

/-- A fraction is read in the same way in front of other text. -/
theorem readsOn_readFraction (negative : Bool) (significand : Nat) (exponent : Int) :
    ReadsOn (readFraction negative significand exponent) := by
  intro s after offset stop n h rest hrest offset'
  cases hdigits : readDigits ⟨offset, s⟩ with
  | mk digits c =>
      obtain ⟨middle, tail⟩ := c
      obtain ⟨middle', hdigits'⟩ := readDigits_append hrest hdigits offset'
      rw [readFraction, hdigits] at h
      rw [readFraction, hdigits']
      cases digits with
      | nil =>
          simp only at h
          split at h <;> contradiction
      | cons d digits =>
          simp only at h ⊢
          split at h
          · next tail' =>
              exact readsOn_readExponent _ _ _ h hrest _
          · next tail' =>
              exact readsOn_readExponent _ _ _ h hrest _
          · next he hE =>
              split
              · next heq => exact (append_ne_cons_of_numberEnds hrest (by decide) he _ heq).elim
              · next heq => exact (append_ne_cons_of_numberEnds hrest (by decide) hE _ heq).elim
              · exact readsOn_finishDouble _ _ _ h hrest _

/-- Reads what stands after the digits before a point. -/
def readAfterDigits (negative : Bool) (value left : Nat) (c : Cursor) :
    Except SyntaxError (Number × Cursor) :=
  match c.rest with
  | '.' :: rest => readFraction negative value left ⟨c.offset + 1, rest⟩
  | 'e' :: rest | 'E' :: rest => readExponent negative value left ⟨c.offset + 1, rest⟩
  | _ =>
    if left = 0 then finishInteger negative value c
    else finishDouble negative value left c

theorem readUnsigned_eq (negative : Bool) (c : Cursor) :
    readUnsigned negative c = match readDigits c with
      | ([], _) =>
        if c.rest.isEmpty then .error ⟨.endOfValue, c.offset⟩
        else .error ⟨.invalidNumber, c.offset + 1⟩
      | (0 :: _ :: _, _) => .error ⟨.invalidNumber, c.offset + 2⟩
      | (digits, stop) =>
        readAfterDigits negative (appendDigits significandBound 0 digits).1
          (appendDigits significandBound 0 digits).2 stop := rfl

theorem readsOn_readAfterDigits (negative : Bool) (value left : Nat) :
    ReadsOn (readAfterDigits negative value left) := by
  intro s after offset stop n h rest hrest offset'
  rw [readAfterDigits] at h ⊢
  simp only at h ⊢
  split at h
  · exact readsOn_readFraction _ _ _ h hrest _
  · exact readsOn_readExponent _ _ _ h hrest _
  · exact readsOn_readExponent _ _ _ h hrest _
  · next hpoint he hE =>
      split
      · next heq => exact (append_ne_cons_of_numberEnds hrest (by decide) hpoint _ heq).elim
      · next heq => exact (append_ne_cons_of_numberEnds hrest (by decide) he _ heq).elim
      · next heq => exact (append_ne_cons_of_numberEnds hrest (by decide) hE _ heq).elim
      · split at h
        · next hleft =>
            rw [if_pos hleft]
            exact readsOn_finishInteger _ _ h hrest _
        · next hleft =>
            rw [if_neg hleft]
            exact readsOn_finishDouble _ _ _ h hrest _

/-- Digits are read in the same way in front of other text. -/
theorem readsOn_readUnsigned (negative : Bool) : ReadsOn (readUnsigned negative) := by
  intro s after offset stop n h rest hrest offset'
  cases hdigits : readDigits ⟨offset, s⟩ with
  | mk digits c =>
      obtain ⟨middle, tail⟩ := c
      obtain ⟨middle', hdigits'⟩ := readDigits_append hrest hdigits offset'
      rw [readUnsigned_eq, hdigits] at h
      rw [readUnsigned_eq, hdigits']
      -- the digits are the same in front of other text, so the same branch is taken
      split at h
      · split at h <;> contradiction
      · contradiction
      · next hnil hzero hpair =>
          cases hpair
          split
          · next hpair =>
              cases hpair
              exact (hnil rfl).elim
          · next hpair =>
              cases hpair
              exact (hzero _ _ rfl).elim
          · next hpair =>
              cases hpair
              exact readsOn_readAfterDigits _ _ _ h hrest _

/-- **Numbers end where tokens end**: what is read from a text alone is read
from it in front of other text, too. -/
theorem readsOn_readNumber : ReadsOn readNumber := by
  intro s after offset stop n h rest hrest offset'
  rw [readNumber] at h ⊢
  simp only at h ⊢
  split at h
  · exact readsOn_readUnsigned _ h hrest _
  · next hminus =>
      split
      · next heq => exact (append_ne_cons_of_numberEnds hrest (by decide) hminus _ heq).elim
      · exact readsOn_readUnsigned _ h hrest _

end

/-! ## texts of numbers -/

/-- A number without its sign begins with a digit. -/
theorem readUnsigned_head {negative : Bool} {s : List Char} {offset : Nat} {found : Number × Cursor}
    (h : readUnsigned negative ⟨offset, s⟩ = .ok found) :
    ∃ c tail, s = c :: tail ∧ c.isDigit = true := by
  cases s with
  | nil => contradiction
  | cons c tail =>
      refine ⟨c, tail, rfl, ?_⟩
      by_cases hc : c.isDigit = true
      · exact hc
      have hdigits : readDigits ⟨offset, c :: tail⟩ = ([], ⟨offset, c :: tail⟩) := by
        simp only [readDigits, List.takeWhile_cons_of_neg hc, List.dropWhile_cons_of_neg hc]
        rfl
      rw [readUnsigned, hdigits] at h
      contradiction

/-- A number begins with its sign or a digit. -/
theorem readNumber_head {s : List Char} {offset : Nat} {found : Number × Cursor}
    (h : readNumber ⟨offset, s⟩ = .ok found) :
    ∃ c tail, s = c :: tail ∧ (c = '-' ∨ c.isDigit = true) := by
  rw [readNumber] at h
  simp only at h
  split at h
  · next tail => exact ⟨'-', tail, rfl, .inl rfl⟩
  · obtain ⟨c, tail, hs, hc⟩ := readUnsigned_head h
    exact ⟨c, tail, hs, .inr hc⟩

/-- A token that begins with a sign or a digit is a number. -/
theorem readToken_number {c : Char} (hc : c = '-' ∨ c.isDigit = true) (offset : Nat)
    (tail : List Char) : readToken ⟨offset, c :: tail⟩ =
      (readNumber ⟨offset, c :: tail⟩).map fun (n, c') => (.number n, c') := by
  have hmark : c ∉ ['[', ']', '{', '}', ':', ',', 'n', 't', 'f', '"'] :=
    not_mem_of_all (p := fun c => decide (c = '-' ∨ c.isDigit = true)) (by decide)
      (decide_eq_true hc)
  rw [readToken]
  simp only [List.head?_cons]
  split
  case h_11 d _ _ _ _ _ _ _ _ _ _ hd =>
      cases hd
      rw [if_pos hc]
  case h_12 hd => contradiction
  all_goals
    next hd =>
      cases hd
      exact absurd (by decide) hmark

/-- A text that is read as a number, to its end, is the number's text. -/
theorem isText_number {n : Number} {s : List Char} {stop : Nat}
    (h : readNumber ⟨0, s⟩ = .ok (n, ⟨stop, []⟩)) : (Token.number n).IsText s := by
  intro rest offset hrest
  obtain ⟨c, tail, rfl, hc⟩ := readNumber_head h
  obtain ⟨stop', hread⟩ := readsOn_readNumber h hrest offset
  refine ⟨stop', ?_⟩
  rw [List.cons_append] at hread ⊢
  rw [readToken_number hc, hread]
  rfl

/-- The parts of the text stand for the double. -/
theorem Double.readsBack_of_eq {x : Double} {negative : Bool} {significand stop : Nat}
    {exponent : Int}
    (hread : readNumber ⟨0, x.chars⟩ = finishDouble negative significand exponent ⟨stop, []⟩)
    (hdouble : Double.ofDecimal? negative significand exponent = some x) : x.ReadsBack :=
  ⟨stop, by rw [hread, finishDouble, hdouble]⟩

theorem readsBack_doubleZero : Double.ReadsBack ⟨0, by decide⟩ := by
  have hchars : Double.chars ⟨0, by decide⟩ = ['0', '.', '0'] := by decide +kernel
  have hdouble : Double.ofDecimal? false 0 (-1) = some ⟨0, by decide⟩ := by
    unfold Double.ofDecimal? scaleByTen
    decide +kernel
  exact Double.readsBack_of_eq (by rw [hchars]; rfl) hdouble

/-! ## integers -/

/-- More digits do not make a number smaller. -/
theorem le_ofDigitChars (value : Nat) (digits : List Char) :
    value ≤ Nat.ofDigitChars 10 digits value := by
  have hpower : 0 < 10 ^ digits.length := Nat.pow_pos (by decide)
  calc value ≤ 10 ^ digits.length * value := Nat.le_mul_of_pos_left value hpower
    _ ≤ 10 ^ digits.length * value + Nat.ofDigitChars 10 digits 0 := Nat.le_add_right _ _
    _ = Nat.ofDigitChars 10 digits value := Nat.ofDigitChars_eq_ofDigitChars_zero.symm

/-- All digits are kept of a numeral below the bound. -/
theorem appendDigits_digitValue {bound : Nat} (digits : List Char) {value : Nat}
    (h : Nat.ofDigitChars 10 digits value < bound) :
    appendDigits bound value (digits.map digitValue) = (Nat.ofDigitChars 10 digits value, 0) := by
  induction digits generalizing value with
  | nil => rfl
  | cons c digits ih =>
      rw [Nat.ofDigitChars_cons, Nat.mul_comm] at h ⊢
      have hstep : value * 10 + digitValue c < bound :=
        Nat.lt_of_le_of_lt (le_ofDigitChars _ digits) h
      rw [List.map_cons, appendDigits, if_pos hstep]
      exact ih h

/-- A positive number does not begin with a zero. -/
theorem zero_not_mem_head_digitChars {n : Nat} (h : 0 < n) : '0' ∉ (digitChars n).head? := by
  induction n using Nat.strongRecOn with
  | ind n ih =>
      rw [digitChars, Nat.toDigits_eq_if (by decide)]
      split
      · intro hmem
        have hzero := Nat.digitChar_eq_zero.mp (Option.some.inj hmem)
        omega
      · next hn =>
          obtain ⟨c, tail, hdigits⟩ := List.exists_cons_of_ne_nil
            (Nat.toDigits_ne_nil : Nat.toDigits 10 (n / 10) ≠ [])
          have hhead := ih (n / 10) (by omega) (by omega)
          rw [digitChars, hdigits] at hhead
          rw [hdigits]
          exact hhead

theorem isDigit_of_mem_digitChars {n : Nat} {c : Char} (h : c ∈ digitChars n) :
    c.isDigit = true :=
  Nat.isDigit_of_mem_toDigits (by decide) (by decide) h

/-- There are no leading zeros. -/
theorem eq_nil_of_digitChars_eq_zero {n : Nat} {tail : List Nat}
    (h : (digitChars n).map digitValue = 0 :: tail) : tail = [] := by
  cases n with
  | zero =>
      cases h
      rfl
  | succ n =>
      obtain ⟨c, cs, hchars, hzero, _⟩ := List.map_eq_cons_iff.mp h
      have hc : c.isDigit = true :=
        isDigit_of_mem_digitChars (by rw [hchars]; exact List.mem_cons_self)
      have hnot := zero_not_mem_head_digitChars (Nat.succ_pos n)
      rw [hchars] at hnot
      refine absurd ?_ hnot
      have hlow : 48 ≤ c.toNat := by
        simp only [Char.isDigit, Bool.and_eq_true, decide_eq_true_eq] at hc
        exact hc.1
      have hvalue : c.toNat = '0'.toNat := Nat.le_antisymm (Nat.sub_eq_zero_iff_le.mp hzero) hlow
      rw [Char.toNat_inj.mp hvalue]
      rfl

/-- The digits of a natural number are read as that number. -/
theorem readUnsigned_digitChars (negative : Bool) {n : Nat} (h : n < significandBound)
    (offset : Nat) : ∃ stop, readUnsigned negative ⟨offset, digitChars n⟩ =
      finishInteger negative n ⟨stop, []⟩ := by
  have hdigit : ∀ c ∈ digitChars n, c.isDigit = true := fun _ => isDigit_of_mem_digitChars
  have hdigits : readDigits ⟨offset, digitChars n⟩ =
      ((digitChars n).map digitValue, ⟨offset + (digitChars n).length, []⟩) := by
    simp only [readDigits, List.takeWhile_eq_self_iff.mpr hdigit,
      List.dropWhile_eq_nil_iff.mpr hdigit]
  have hvalue : appendDigits significandBound 0 ((digitChars n).map digitValue) = (n, 0) := by
    have hn : Nat.ofDigitChars 10 (digitChars n) 0 = n := Nat.ofDigitChars_ten_toDigits
    rw [appendDigits_digitValue _ (by rw [hn]; exact h), hn]
  refine ⟨offset + (digitChars n).length, ?_⟩
  rw [readUnsigned, hdigits]
  simp only
  split
  · next heq =>
      have hempty := List.map_eq_nil_iff.mp (congrArg Prod.fst heq)
      exact absurd hempty Nat.toDigits_ne_nil
  · next heq =>
      have htail := eq_nil_of_digitChars_eq_zero (congrArg Prod.fst heq)
      contradiction
  · next heq =>
      cases heq
      simp only [hvalue, if_pos]

/-- The text of an integer is read as that integer. -/
theorem readNumber_integerChars {value : Int}
    (fits : -9223372036854775808 ≤ value ∧ value < 18446744073709551616) :
    ∃ stop, readNumber ⟨0, Json.integerChars value⟩ = .ok (.integer value fits, ⟨stop, []⟩) := by
  have hbound : value.natAbs < significandBound := by
    rw [significandBound]
    omega
  rw [Json.integerChars]
  split
  · next hnegative =>
      obtain ⟨stop, hread⟩ := readUnsigned_digitChars true hbound 1
      have hvalue : -(value.natAbs : Int) = value := by omega
      refine ⟨stop, ?_⟩
      show readUnsigned true ⟨1, digitChars value.natAbs⟩ = _
      rw [hread, finishInteger, if_neg (by omega), if_pos rfl, hvalue, Number.ofInt?, dif_pos fits]
  · next hpositive =>
      obtain ⟨stop, hread⟩ := readUnsigned_digitChars false hbound 0
      have hvalue : (value.natAbs : Int) = value := by omega
      refine ⟨stop, ?_⟩
      rw [readNumber]
      split
      · next rest hminus =>
          have hmem : '-' ∈ digitChars value.natAbs := by
            rw [show digitChars value.natAbs = '-' :: rest from hminus]
            exact List.mem_cons_self
          have hdigit := isDigit_of_mem_digitChars hmem
          contradiction
      · rw [hread, finishInteger, if_neg (by simp), if_neg (by simp), hvalue, Number.ofInt?,
          dif_pos fits]

/-- **Integers** of 64 bits are read back from their digits. -/
theorem isText_integer (value : Int)
    (fits : -9223372036854775808 ≤ value ∧ value < 18446744073709551616) :
    (Token.number (.integer value fits)).IsText (Json.integerChars value) := by
  obtain ⟨stop, hread⟩ := readNumber_integerChars fits
  exact isText_number hread

end Exemplar
