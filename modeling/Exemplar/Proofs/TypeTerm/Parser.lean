import Exemplar.Proofs.Except
import Exemplar.Proofs.TypeTerm.Grammar

/-!
# Exemplar.Proofs.TypeTerm.Parser

Reading a written type against the grammar.  What is read is always a type of
the grammar, followed by the blanks that are skipped (`Sound`), and every type
of the grammar is read if what comes after it cannot belong to it
(`Derives.read_append`).  Three steps for each character are enough.

* `parse_eq_ok_iff` — a text is read to a tree exactly if it is a type with
  that tree and blanks after it; all other texts are errors.
-/

namespace Exemplar

namespace TypeTerm

variable {len fuel : Nat} {s rest : List Char} {term : TypeTerm}

/-! ## what stops a type -/

/-- No array suffix begins after the blanks. -/
def NoSuffix (rest : List Char) : Prop := ∀ c ∈ (skipBlanks rest).head?, c ≠ '['

/-- What can stand after a type, besides blanks. -/
def Delimited (rest : List Char) : Prop :=
  ∀ c ∈ (skipBlanks rest).head?, c = '[' ∨ c = ',' ∨ c = '>'

/-- After blanks, a character that is none. -/
theorem skipBlanks_blanks_cons {w : List Char} (hw : Blanks w) {c : Char}
    (hc : isBlank c = false) (rest : List Char) : skipBlanks (w ++ c :: rest) = c :: rest := by
  rw [skipBlanks_append hw, skipBlanks_cons_of_not_isBlank hc]

theorem noSuffix_of_blanks {w : List Char} (hw : Blanks w) : NoSuffix w := by
  intro c hc
  rw [skipBlanks_eq_nil hw] at hc
  contradiction

/-- After blanks, no character but `[` begins a suffix. -/
theorem noSuffix_blanks_cons {w : List Char} (hw : Blanks w) {c : Char} (hc : isBlank c = false)
    (hne : c ≠ '[') (rest : List Char) : NoSuffix (w ++ c :: rest) := by
  intro d hd
  rw [skipBlanks_blanks_cons hw hc] at hd
  cases hd
  exact hne

theorem delimited_of_blanks {w : List Char} (hw : Blanks w) : Delimited w := by
  intro c hc
  rw [skipBlanks_eq_nil hw] at hc
  contradiction

/-- After blanks, a bracket or a comma delimits a type. -/
theorem delimited_blanks_cons {w : List Char} (hw : Blanks w) {c : Char}
    (hc : c = '[' ∨ c = ',' ∨ c = '>') (rest : List Char) : Delimited (w ++ c :: rest) := by
  have hblank : isBlank c = false := by
    obtain rfl | rfl | rfl := hc
    · decide
    · decide
    · decide
  intro d hd
  rw [skipBlanks_blanks_cons hw hblank] at hd
  cases hd
  exact hc

/-- A name and its arguments do not go on in what stands after a type. -/
theorem head_of_delimited (h : Delimited rest) {c : Char} (hc : c ∈ rest.head?) :
    isNamePart c = false ∧ c ≠ '<' := by
  obtain ⟨rest', rfl⟩ : ∃ rest', rest = c :: rest' := List.head?_eq_some_iff.mp hc
  cases hblank : isBlank c with
  | true =>
      refine ⟨isNamePart_of_isBlank hblank, ?_⟩
      rintro rfl
      contradiction
  | false =>
      obtain rfl | rfl | rfl := h c (by rw [skipBlanks_cons_of_not_isBlank hblank]; rfl)
      · decide
      · decide
      · decide

/-! ## words -/

/-- A word is taken from the front of a text. -/
theorem afterWord_eq_some_iff {word s rest : List Char} :
    afterWord word s = some rest ↔ s = word ++ rest := by
  induction word generalizing s with
  | nil => simp [afterWord]
  | cons w word ih =>
      cases s with
      | nil => simp [afterWord]
      | cons c s =>
          rw [afterWord]
          split
          · next h => simp [ih, h]
          · next h => simp [Ne.symm h]

/-- What follows a word that has a blank after it. -/
def afterWordAndBlank (word : String) (s : List Char) : Option (List Char) :=
  match afterWord word.toList s with
  | some (c :: rest) => if isBlank c then some (c :: rest) else none
  | _ => none

theorem afterBoundKeyword_eq (s : List Char) : afterBoundKeyword s =
    (afterWordAndBlank "extends" s).or (afterWordAndBlank "super" s) := rfl

/-- A word that has a blank after it is taken, and the blank stays. -/
theorem afterWordAndBlank_eq_some_iff {word : String} {s rest : List Char} :
    afterWordAndBlank word s = some rest ↔
      s = word.toList ++ rest ∧ ∃ c ∈ rest.head?, isBlank c = true := by
  rw [afterWordAndBlank]
  constructor
  · intro h
    split at h
    · next c rest' hword =>
        split at h
        · next hblank =>
            cases h
            exact ⟨afterWord_eq_some_iff.mp hword, c, rfl, hblank⟩
        · contradiction
    · contradiction
  · rintro ⟨rfl, c, hc, hblank⟩
    obtain ⟨rest', rfl⟩ := List.head?_eq_some_iff.mp hc
    rw [afterWord_eq_some_iff.mpr rfl]
    simp only [hblank, if_true]

/-- A bound keyword is followed by a blank. -/
theorem afterBoundKeyword_eq_some_iff {s rest : List Char} :
    afterBoundKeyword s = some rest ↔
      ∃ keyword ∈ boundKeywords, s = keyword.toList ++ rest ∧
        ∃ c ∈ rest.head?, isBlank c = true := by
  simp only [afterBoundKeyword_eq, Option.or_eq_some_iff, afterWordAndBlank_eq_some_iff,
    boundKeywords, List.mem_cons, List.not_mem_nil, or_false, exists_eq_or_imp, exists_eq_left]
  constructor
  · rintro (h | ⟨_, h⟩)
    · exact .inl h
    · exact .inr h
  · rintro (h | h)
    · exact .inl h
    · -- no text begins with both words
      refine .inr ⟨Option.eq_none_iff_forall_not_mem.mpr fun other hother => ?_, h⟩
      rw [Option.mem_def, afterWordAndBlank_eq_some_iff, h.1] at hother
      exact absurd (congrArg List.head? hother.1) (by simp)

/-- The bound of a wildcard does not begin in what stands after a type. -/
theorem afterBoundKeyword_of_delimited (h : Delimited rest) :
    afterBoundKeyword (skipBlanks rest) = none := by
  refine Option.eq_none_iff_forall_not_mem.mpr fun bound hbound => ?_
  obtain ⟨keyword, hkeyword, heq, _⟩ := afterBoundKeyword_eq_some_iff.mp hbound
  rw [Delimited, heq] at h
  obtain rfl | rfl : keyword = "extends" ∨ keyword = "super" := by
    simpa [boundKeywords] using hkeyword
  · exact absurd (h 'e' rfl) (by decide)
  · exact absurd (h 's' rfl) (by decide)

/-! ## names -/

/-- A name that is read is a qualified name at the front of the text. -/
theorem readName_eq_ok {name : String} (h : readName len s = .ok (name, rest)) :
    ∃ c, QualifiedName c ∧ name = String.ofList c ∧ s = c ++ rest := by
  rw [readName] at h
  split at h
  · next hname =>
      cases h
      exact ⟨_, qualifiedName_iff.mpr hname, rfl, List.takeWhile_append_dropWhile.symm⟩
  · split at h <;> contradiction

/-- A name is taken up to the first character that is no part of one. -/
theorem readName_append {name : List Char} (hname : QualifiedName name)
    (hrest : ∀ c ∈ rest.head?, isNamePart c = false) :
    readName len (name ++ rest) = .ok (String.ofList name, rest) := by
  have hend : rest.takeWhile isNamePart = [] ∧ rest.dropWhile isNamePart = rest := by
    cases rest with
    | nil => exact ⟨rfl, rfl⟩
    | cons c rest =>
        have hc : ¬ isNamePart c = true := Bool.eq_false_iff.mp (hrest c rfl)
        exact ⟨List.takeWhile_cons_of_neg hc, List.dropWhile_cons_of_neg hc⟩
  rw [readName, List.takeWhile_append_of_pos hname.isNamePart,
    List.dropWhile_append_of_pos hname.isNamePart, hend.1, hend.2, List.append_nil]
  simp only [qualifiedName_iff.mp hname, if_true]

/-! ## suffixes -/

/-- One suffix, or none. -/
theorem readSuffixes_eq (item : TypeTerm) (s : List Char) :
    readSuffixes item s = match skipBlanks s with
      | '[' :: rest => match skipBlanks rest with
        | ']' :: rest' => readSuffixes (.array item) rest'
        | _ => .error .bracketExpected
      | rest => .ok (item, rest) := by
  rw [readSuffixes]
  split
  · next inner hopening =>
      simp only [hopening]
      split
      · next hclosing => simp only [hclosing]
      · next hnone =>
          split
          · next hclosing => exact absurd hclosing (hnone _)
          · rfl
  · next hnone =>
      split
      · next hopening => exact absurd hopening (hnone _)
      · rfl

/-- Blanks before suffixes do not matter. -/
theorem readSuffixes_skipBlanks (item : TypeTerm) (s : List Char) :
    readSuffixes item (skipBlanks s) = readSuffixes item s := by
  rw [readSuffixes_eq, readSuffixes_eq, skipBlanks_skipBlanks]

/-- Without a suffix only blanks are passed over. -/
theorem readSuffixes_of_noSuffix {item : TypeTerm} (h : NoSuffix rest) :
    readSuffixes item rest = .ok (item, skipBlanks rest) := by
  rw [readSuffixes_eq]
  split
  · next hopening => exact absurd rfl (h '[' (by rw [hopening]; rfl))
  · rfl

/-- Any other character ends the suffixes. -/
theorem readSuffixes_blanks_cons {item : TypeTerm} {w : List Char} (hw : Blanks w) {c : Char}
    (hc : isBlank c = false) (hne : c ≠ '[') (rest : List Char) :
    readSuffixes item (w ++ c :: rest) = .ok (item, c :: rest) := by
  rw [readSuffixes_of_noSuffix (noSuffix_blanks_cons hw hc hne rest), skipBlanks_blanks_cons hw hc]

/-- A suffix with any blanks in it makes an array. -/
theorem readSuffixes_suffix {item : TypeTerm} {w w' : List Char} (hw : Blanks w)
    (hw' : Blanks w') (rest : List Char) :
    readSuffixes item (w ++ '[' :: (w' ++ ']' :: rest)) = readSuffixes (.array item) rest := by
  rw [readSuffixes_eq, skipBlanks_blanks_cons hw (by decide)]
  simp only [skipBlanks_blanks_cons hw' (show isBlank ']' = false by decide)]

/-! ## what is read is in the grammar -/

/-- A type has been read from the front of a text, and the blanks after it;
no array suffix follows. -/
structure ReadsType (s : List Char) (term : TypeTerm) (rest : List Char) : Prop where
  derives : ∃ c w, Derives c term ∧ Blanks w ∧ s = c ++ (w ++ rest)
  innermost : term.Innermost
  noSuffix : NoSuffix rest
  skipped : skipBlanks rest = rest

/-- Suffixes are read until none is left, here with blanks that have been
skipped before the first one. -/
theorem readSuffixes_sound {item : TypeTerm} {c v : List Char}
    (h : readSuffixes item s = .ok (term, rest)) (hitem : Derives c item) (hv : Blanks v)
    (hinner : item.Innermost) (hbounded : item.isBounded = true → NoSuffix s) :
    ReadsType (c ++ (v ++ s)) term rest := by
  fun_induction readSuffixes item s generalizing c v with
  | case1 item s inner hopening after hclosing ih =>
      obtain ⟨w, hw, hs⟩ := exists_blanks_append s
      obtain ⟨w', hw', hrest⟩ := exists_blanks_append inner
      have hplain : item.isBounded = false := by
        refine Bool.eq_false_iff.mpr fun hb => ?_
        exact hbounded hb '[' (by rw [hopening]; rfl) rfl
      rw [hopening] at hs
      rw [hclosing] at hrest
      have hreads := ih h (.array hitem (hv.append hw) hw') .nil ⟨hplain, hinner⟩ fun hb => by
        contradiction
      rw [← hs, ← hrest]
      simpa only [List.append_assoc, List.cons_append, List.nil_append] using hreads
  | case2 => contradiction
  | case3 item s hnone =>
      cases h
      obtain ⟨w, hw, hs⟩ := exists_blanks_append s
      refine ⟨⟨c, v ++ w, hitem, hv.append hw, by rw [List.append_assoc, hs]⟩, hinner, ?_,
        skipBlanks_skipBlanks s⟩
      intro d hd
      rw [skipBlanks_skipBlanks] at hd
      rintro rfl
      obtain ⟨rest', hrest⟩ := List.head?_eq_some_iff.mp hd
      exact hnone rest' hrest

/-- The front of a type has been read, up to its own suffixes and after the
given blanks. -/
structure ReadsHead (w s : List Char) (term : TypeTerm) (rest : List Char) : Prop where
  derives : ∃ c v, Derives (w ++ c) term ∧ Blanks v ∧ s = c ++ (v ++ rest)
  innermost : term.Innermost
  noSuffix : term.isBounded = true → NoSuffix rest

/-- What is read with the given number of steps is in the grammar. -/
structure Sound (len fuel : Nat) : Prop where
  read : ∀ {s term rest}, read len fuel s = .ok (term, rest) → ReadsType s term rest
  head : ∀ {w s term rest}, Blanks w → readHead len fuel s = .ok (term, rest) →
    ReadsHead w s term rest
  args : ∀ {s args rest}, readArgs len fuel s = .ok (args, rest) →
    ∃ c, DerivesArgs c args ∧ InnermostAll args ∧ s = c ++ rest

/-- With one more step, a type that is read is in the grammar. -/
theorem Sound.read_succ (ih : Sound len fuel)
    (h : TypeTerm.read len (fuel + 1) s = .ok (term, rest)) : ReadsType s term rest := by
  obtain ⟨w, hw, hs⟩ := exists_blanks_append s
  rw [TypeTerm.read, Except.bind_eq_ok_iff] at h
  obtain ⟨⟨head, after⟩, hhead, h⟩ := h
  obtain ⟨⟨c, v, hderives, hv, hrest⟩, hinner, hbounded⟩ := ih.head hw hhead
  have hreads := readSuffixes_sound h hderives hv hinner hbounded
  rw [List.append_assoc, ← hrest, hs] at hreads
  exact hreads

/-- A blank before a type is skipped. -/
theorem read_of_read_cons {c : Char} (hc : isBlank c = true) {found : TypeTerm × List Char}
    (h : read len fuel (c :: s) = .ok found) : read len fuel s = .ok found := by
  cases fuel with
  | zero => contradiction
  | succ fuel =>
      rw [read, skipBlanks, List.dropWhile_cons_of_pos hc] at h
      exact h

/-- A wildcard, with a bound or without. -/
theorem Sound.wildcard_succ (ih : Sound len fuel) {w : List Char} (hw : Blanks w)
    (h : readHead len (fuel + 1) ('?' :: s) = .ok (term, rest)) :
    ReadsHead w ('?' :: s) term rest := by
  obtain ⟨w', hw', hskip⟩ := exists_blanks_append s
  rw [readHead] at h
  cases hkeyword : afterBoundKeyword (skipBlanks s) with
  | none =>
      rw [hkeyword] at h
      cases h
      exact ⟨⟨['?'], w', .wildcard hw, hw', by rw [hskip]; rfl⟩, trivial,
        fun hb => by contradiction⟩
  | some after =>
      rw [hkeyword] at h
      obtain ⟨keyword, hmem, hafter, c, hc, hblank⟩ := afterBoundKeyword_eq_some_iff.mp hkeyword
      obtain ⟨s', rfl⟩ := List.head?_eq_some_iff.mp hc
      obtain ⟨⟨bound, rest'⟩, hread, heq⟩ := Except.bind_eq_ok_iff.mp h
      cases heq
      obtain ⟨⟨d, v, hderives, hv, hbound⟩, hinner, hnone, _⟩ :=
        ih.read (read_of_read_cons hblank hread)
      refine ⟨⟨'?' :: (w' ++ (keyword.toList ++ c :: d)), v,
        .bounded hw hw' hmem hblank hderives, hv, ?_⟩, hinner, fun _ => hnone⟩
      rw [← hskip, hafter, hbound]
      simp only [List.append_assoc, List.cons_append]

/-- A name, with arguments or without. -/
theorem Sound.name_succ (ih : Sound len fuel) {w : List Char} (hw : Blanks w)
    (hs : ∀ s', s = '?' :: s' → False)
    (h : readHead len (fuel + 1) s = .ok (term, rest)) : ReadsHead w s term rest := by
  rw [readHead.eq_3 _ _ _ hs, Except.bind_eq_ok_iff] at h
  obtain ⟨⟨name, after⟩, hname, h⟩ := h
  obtain ⟨c, hqualified, rfl, rfl⟩ := readName_eq_ok hname
  simp only at h
  split at h
  · next s' =>
      obtain ⟨⟨args, rest'⟩, hargs, heq⟩ := Except.bind_eq_ok_iff.mp h
      cases heq
      obtain ⟨d, hderives, hinner, rfl⟩ := ih.args hargs
      refine ⟨⟨c ++ '<' :: d, [], .generic hw hqualified hderives, .nil, ?_⟩, hinner,
        fun hb => by contradiction⟩
      simp only [List.append_assoc, List.cons_append, List.nil_append]
  · cases h
    exact ⟨⟨c, [], .named hw hqualified, .nil, rfl⟩, trivial, fun hb => by contradiction⟩

/-- So is the front of a type. -/
theorem Sound.head_succ (ih : Sound len fuel) {w : List Char} (hw : Blanks w)
    (h : readHead len (fuel + 1) s = .ok (term, rest)) : ReadsHead w s term rest := by
  by_cases hs : ∃ s', s = '?' :: s'
  · obtain ⟨s', rfl⟩ := hs
    exact ih.wildcard_succ hw h
  · exact ih.name_succ hw (fun s' heq => hs ⟨s', heq⟩) h

/-- So are arguments. -/
theorem Sound.args_succ (ih : Sound len fuel) {args : List TypeTerm}
    (h : readArgs len (fuel + 1) s = .ok (args, rest)) :
    ∃ c, DerivesArgs c args ∧ InnermostAll args ∧ s = c ++ rest := by
  rw [readArgs, Except.bind_eq_ok_iff] at h
  obtain ⟨⟨arg, after⟩, hread, h⟩ := h
  obtain ⟨⟨c, v, hderives, hv, rfl⟩, hinner, _, hskip⟩ := ih.read hread
  simp only [hskip] at h
  split at h
  · next s' =>
      obtain ⟨⟨args', rest'⟩, hargs, heq⟩ := Except.bind_eq_ok_iff.mp h
      cases heq
      obtain ⟨d, hderives', hinner', rfl⟩ := ih.args hargs
      refine ⟨c ++ (v ++ ',' :: d), .more hderives hv hderives', ⟨hinner, hinner'⟩, ?_⟩
      simp only [List.append_assoc, List.cons_append]
  · cases h
    refine ⟨c ++ (v ++ ['>']), .last hderives hv, ⟨hinner, trivial⟩, ?_⟩
    simp only [List.append_assoc, List.cons_append, List.nil_append]
  · contradiction

/-- **What is read is in the grammar**, for every number of steps. -/
theorem sound (len fuel : Nat) : Sound len fuel := by
  induction fuel with
  | zero =>
      refine ⟨fun h => ?_, fun _ h => ?_, fun h => ?_⟩
      · contradiction
      · contradiction
      · contradiction
  | succ fuel ih => exact ⟨ih.read_succ, ih.head_succ, ih.args_succ⟩

/-! ## what is in the grammar is read -/

/-- After blanks a type is read from its first character on. -/
theorem read_blanks_cons {w : List Char} (hw : Blanks w) {c : Char} (hc : isBlank c = false)
    (s : List Char) : read len (fuel + 1) (w ++ c :: s) =
      (readHead len fuel (c :: s)).bind fun found => readSuffixes found.1 found.2 := by
  rw [read, skipBlanks_blanks_cons hw hc]
  rfl

/-- A wildcard is read, and then its suffixes. -/
theorem read_wildcard {w : List Char} (hw : Blanks w) (hrest : Delimited rest) :
    read len (fuel + 2) (w ++ '?' :: rest) = readSuffixes .wildcard rest := by
  rw [read_blanks_cons hw (by decide), readHead, afterBoundKeyword_of_delimited hrest]
  exact readSuffixes_skipBlanks _ _

/-- A bound is read after its keyword and the blanks. -/
theorem read_bounded {w w' : List Char} (hw : Blanks w) (hw' : Blanks w') {keyword : String}
    (hkeyword : keyword ∈ boundKeywords) {c : Char} (hc : isBlank c = true) {bound : TypeTerm}
    (hbound : read len fuel (s ++ rest) = .ok (bound, skipBlanks rest)) :
    read len (fuel + 2) (w ++ '?' :: (w' ++ (keyword.toList ++ c :: (s ++ rest)))) =
      readSuffixes (.bounded bound) rest := by
  have hstart : skipBlanks (w' ++ (keyword.toList ++ c :: (s ++ rest))) =
      keyword.toList ++ c :: (s ++ rest) := by
    obtain rfl | rfl : keyword = "extends" ∨ keyword = "super" := by
      simpa [boundKeywords] using hkeyword
    · exact skipBlanks_blanks_cons hw' (by decide) _
    · exact skipBlanks_blanks_cons hw' (by decide) _
  have hafter : afterBoundKeyword (keyword.toList ++ c :: (s ++ rest)) = some (c :: (s ++ rest)) :=
    afterBoundKeyword_eq_some_iff.mpr ⟨keyword, hkeyword, rfl, c, rfl, hc⟩
  have hblank : read len fuel (c :: (s ++ rest)) = .ok (bound, skipBlanks rest) := by
    cases fuel with
    | zero => contradiction
    | succ fuel =>
        rw [read, skipBlanks, List.dropWhile_cons_of_pos hc]
        exact hbound
  rw [read_blanks_cons hw (by decide), readHead, hstart, hafter]
  simp only [hblank]
  exact readSuffixes_skipBlanks _ _

/-- The first character of a name is no blank and no wildcard. -/
theorem QualifiedName.exists_cons {name : List Char} (h : QualifiedName name) :
    ∃ c tail, name = c :: tail ∧ isBlank c = false ∧ c ≠ '?' := by
  obtain ⟨c, tail, rfl⟩ := List.exists_cons_of_ne_nil h.ne_nil
  have hpart := h.isNamePart c List.mem_cons_self
  refine ⟨c, tail, rfl, isBlank_of_isNamePart hpart, ?_⟩
  rintro rfl
  exact absurd hpart (by decide)

section

variable {w name : List Char}

/-- A type with a name is read by its front, and then its suffixes. -/
theorem read_name (hw : Blanks w) (hname : QualifiedName name) (rest : List Char) :
    read len (fuel + 1) (w ++ (name ++ rest)) =
      (readHead len fuel (name ++ rest)).bind fun found => readSuffixes found.1 found.2 := by
  obtain ⟨c, tail, rfl, hblank, _⟩ := hname.exists_cons
  exact read_blanks_cons hw hblank _

theorem readHead_name (hname : QualifiedName name) (hrest : ∀ c ∈ rest.head?, isNamePart c = false)
    {found : TypeTerm × List Char}
    (h : (match rest with
      | '<' :: rest' => do
        let (args, rest'') ← readArgs len fuel rest'
        return (.named (String.ofList name) args, rest'')
      | _ => return (.named (String.ofList name) [], rest)) = Except.ok found) :
    readHead len (fuel + 1) (name ++ rest) = .ok found := by
  have hne : ∀ s', name ++ rest = '?' :: s' → False := by
    obtain ⟨c, tail, rfl, _, hne⟩ := hname.exists_cons
    exact fun s' heq => hne (List.head_eq_of_cons_eq heq)
  rw [readHead.eq_3 _ _ _ hne, readName_append hname hrest]
  exact h

/-- A name without arguments is read. -/
theorem read_named (hw : Blanks w) (hname : QualifiedName name) (hrest : Delimited rest) :
    read len (fuel + 2) (w ++ (name ++ rest)) =
      readSuffixes (.named (String.ofList name) []) rest := by
  have hhead : readHead len (fuel + 1) (name ++ rest) =
      .ok (.named (String.ofList name) [], rest) := by
    refine readHead_name hname (fun c hc => (head_of_delimited hrest hc).1) ?_
    split
    · exact absurd rfl (head_of_delimited hrest rfl).2
    · rfl
  rw [read_name hw hname, hhead]
  rfl

/-- A name with arguments is read, if the arguments are. -/
theorem read_generic (hw : Blanks w) (hname : QualifiedName name) {args : List TypeTerm}
    (hargs : readArgs len fuel s = .ok (args, rest)) :
    read len (fuel + 2) (w ++ (name ++ '<' :: s)) =
      readSuffixes (.named (String.ofList name) args) rest := by
  have hopening : ∀ c ∈ ('<' :: s).head?, isNamePart c = false := by
    intro c hc
    cases hc
    decide
  have hhead : readHead len (fuel + 1) (name ++ '<' :: s) =
      .ok (.named (String.ofList name) args, rest) :=
    readHead_name hname hopening (by simp only [hargs]; rfl)
  rw [read_name hw hname, hhead]
  rfl

end

mutual

/-- **Types of the grammar are read**, if what stands after them cannot belong
to them. -/
theorem Derives.read_append {rest : List Char} (hrest : Delimited rest) :
    {s : List Char} → {term : TypeTerm} → Derives s term → term.Innermost →
      (term.isBounded = true → NoSuffix rest) → {fuel : Nat} → 3 * s.length ≤ fuel →
      read len fuel (s ++ rest) = readSuffixes term rest
  | _, _, .wildcard hw, _, _, fuel, hfuel => by
      simp only [List.length_append, List.length_singleton] at hfuel
      obtain ⟨fuel, rfl⟩ : ∃ n, fuel = n + 2 := ⟨fuel - 2, by omega⟩
      rw [List.append_assoc]
      exact read_wildcard hw hrest
  | _, _, .bounded hw hw' hkeyword hc hbound, hinner, hnone, fuel, hfuel => by
      simp only [List.length_append, List.length_cons] at hfuel
      obtain ⟨fuel, rfl⟩ : ∃ n, fuel = n + 2 := ⟨fuel - 2, by omega⟩
      have hnone := hnone rfl
      have hread : read len fuel (_ ++ rest) = readSuffixes _ rest :=
        hbound.read_append hrest hinner (fun _ => hnone) (by omega)
      rw [readSuffixes_of_noSuffix hnone] at hread
      simp only [List.append_assoc, List.cons_append]
      exact read_bounded hw hw' hkeyword hc hread
  | _, _, .named hw hname, _, _, fuel, hfuel => by
      have hpos := List.length_pos_of_ne_nil hname.ne_nil
      simp only [List.length_append] at hfuel
      obtain ⟨fuel, rfl⟩ : ∃ n, fuel = n + 2 := ⟨fuel - 2, by omega⟩
      rw [List.append_assoc]
      exact read_named hw hname hrest
  | _, _, .generic hw hname hargs, hinner, _, fuel, hfuel => by
      simp only [List.length_append, List.length_cons] at hfuel
      obtain ⟨fuel, rfl⟩ : ∃ n, fuel = n + 2 := ⟨fuel - 2, by omega⟩
      simp only [List.append_assoc, List.cons_append]
      exact read_generic hw hname (hargs.readArgs_append hinner (by omega))
  | _, _, .array hitem hw hw', hinner, _, fuel, hfuel => by
      simp only [List.length_append] at hfuel
      simp only [List.append_assoc, List.cons_append, List.nil_append]
      rw [hitem.read_append (delimited_blanks_cons hw (.inl rfl) _) hinner.2
          (fun hb => absurd hb (by rw [hinner.1]; decide)) (by omega),
        readSuffixes_suffix hw hw']

/-- Derived arguments are read to the end, if there are steps enough. -/
theorem DerivesArgs.readArgs_append {rest : List Char} :
    {s : List Char} → {args : List TypeTerm} → DerivesArgs s args → InnermostAll args →
      {fuel : Nat} → 3 * s.length ≤ fuel → readArgs len fuel (s ++ rest) = .ok (args, rest)
  | _, _, .last harg hw, hinner, fuel, hfuel => by
      simp only [List.length_append, List.length_singleton] at hfuel
      obtain ⟨fuel, rfl⟩ : ∃ n, fuel = n + 1 := ⟨fuel - 1, by omega⟩
      simp only [List.append_assoc, List.cons_append, List.nil_append]
      rw [readArgs, harg.read_append (delimited_blanks_cons hw (.inr (.inr rfl)) rest) hinner.1
          (fun _ => noSuffix_blanks_cons hw (by decide) (by decide) rest) (by omega),
        readSuffixes_blanks_cons hw (by decide) (by decide)]
      rfl
  | _, _, .more harg hw hargs, hinner, fuel, hfuel => by
      simp only [List.length_append, List.length_cons] at hfuel
      obtain ⟨fuel, rfl⟩ : ∃ n, fuel = n + 1 := ⟨fuel - 1, by omega⟩
      have hmore : readArgs len fuel (_ ++ rest) = .ok (_, rest) :=
        hargs.readArgs_append hinner.2 (by omega)
      simp only [List.append_assoc, List.cons_append]
      rw [readArgs, harg.read_append (delimited_blanks_cons hw (.inr (.inl rfl)) (_ ++ rest))
          hinner.1 (fun _ => noSuffix_blanks_cons hw (by decide) (by decide) _) (by omega),
        readSuffixes_blanks_cons hw (by decide) (by decide)]
      exact Except.bind_eq_ok_iff.mpr ⟨(_, ',' :: (_ ++ rest)), rfl,
        Except.bind_eq_ok_iff.mpr ⟨_, hmore, rfl⟩⟩

end

/-! ## whole texts -/

/-- **Soundness**: a text that is parsed is a type of the grammar, and blanks. -/
theorem parse_eq_ok {text : String} (h : parse text = .ok term) :
    ∃ s w, text.toList = s ++ w ∧ Derives s term ∧ term.Innermost ∧ Blanks w := by
  obtain ⟨⟨found, rest⟩, hread, h⟩ := Except.bind_eq_ok_iff.mp h
  obtain ⟨⟨s, w, hderives, hw, htext⟩, hinner, _, hskip⟩ := (sound _ _).read hread
  simp only [hskip] at h
  split at h
  · cases h
    rw [List.append_nil] at htext
    exact ⟨s, w, htext, hderives, hinner, hw⟩
  · contradiction

/-- **Completeness**: a type of the grammar is parsed, also with blanks after
it. -/
theorem parse_of_derives {text : String} {w : List Char} (htext : text.toList = s ++ w)
    (hderives : Derives s term) (hinner : term.Innermost) (hw : Blanks w) :
    parse text = .ok term := by
  have hread : ∀ len fuel, 3 * s.length ≤ fuel → read len fuel (s ++ w) = .ok (term, []) := by
    intro len fuel hfuel
    rw [hderives.read_append (delimited_of_blanks hw) hinner (fun _ => noSuffix_of_blanks hw) hfuel,
      readSuffixes_of_noSuffix (noSuffix_of_blanks hw), skipBlanks_eq_nil hw]
  rw [parse, htext]
  refine Except.bind_eq_ok_iff.mpr ⟨(term, []), hread _ _ ?_, rfl⟩
  rw [List.length_append]
  omega

/-- **The parser is the grammar**: a text is read to a tree exactly if it is a
type with that tree, where each array suffix belongs to the innermost type,
and blanks after it; and every text that is no type, whatever the tree, is an
error. -/
theorem parse_eq_ok_iff (text : String) :
    (∀ term, parse text = .ok term ↔
      ∃ s w, text.toList = s ++ w ∧ Derives s term ∧ term.Innermost ∧ Blanks w) ∧
    ((∃ fault, parse text = .error fault) ↔
      ¬ ∃ s w term, text.toList = s ++ w ∧ Derives s term ∧ Blanks w) := by
  have hiff : ∀ term, parse text = .ok term ↔
      ∃ s w, text.toList = s ++ w ∧ Derives s term ∧ term.Innermost ∧ Blanks w :=
    fun term => ⟨parse_eq_ok, fun ⟨_, _, htext, hderives, hinner, hw⟩ =>
      parse_of_derives htext hderives hinner hw⟩
  refine ⟨hiff, ?_⟩
  constructor
  · rintro ⟨fault, hfault⟩ ⟨s, w, term, htext, hderives, hw⟩
    obtain ⟨term', hderives', hinner⟩ := hderives.exists_innermost
    rw [parse_of_derives htext hderives' hinner hw] at hfault
    contradiction
  · intro hnone
    cases hparse : parse text with
    | error fault => exact ⟨fault, rfl⟩
    | ok term =>
        obtain ⟨s, w, htext, hderives, _, hw⟩ := parse_eq_ok hparse
        exact absurd ⟨s, w, term, htext, hderives, hw⟩ hnone

/-- The suffix after a bounded wildcard belongs to the bound. -/
example : parse "? extends X[]" = .ok (.bounded (.array (.named "X" []))) := by decide +kernel

end TypeTerm

end Exemplar
