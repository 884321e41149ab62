import Exemplar.TypeTerm.Parser
import Mathlib.Data.List.DropRight

/-!
# Exemplar.Proofs.TypeTerm.Grammar

The grammar of written types, apart from the functions that read them:

```
TYPE  ::=  W* '?'
        |  W* '?' W* ( 'extends' | 'super' ) W TYPE
        |  W* QNAME
        |  W* QNAME '<' ARGS
        |  TYPE W* '[' W* ']'
ARGS  ::=  TYPE W* '>'  |  TYPE W* ',' ARGS
```

A text can have more than one tree: an array suffix after a bounded wildcard
can also be one of the bound.  It belongs to the bound (`Innermost`), and every
text with a tree has a tree in which all suffixes are placed so.

* `QualifiedName`, `Derives`, `DerivesArgs` — the grammar;
* `qualifiedName_iff` — the names of the grammar are those that are checked;
* `Derives.exists_innermost` — suffixes can always be moved to where they belong.
-/

namespace Exemplar

/-! ## blanks -/

/-- A run of blanks, empty or not. -/
def Blanks (s : List Char) : Prop := ∀ c ∈ s, isBlank c = true

-- Named, since another instance for these quantifiers goes through all characters.
instance (s : List Char) : Decidable (Blanks s) :=
  List.decidableBAll (fun c => isBlank c = true) s

theorem Blanks.nil : Blanks [] := fun _ h => absurd h List.not_mem_nil

theorem Blanks.append {s t : List Char} (hs : Blanks s) (ht : Blanks t) : Blanks (s ++ t) := by
  intro c hc
  obtain hc | hc := List.mem_append.mp hc
  · exact hs c hc
  · exact ht c hc

theorem lt_not_mem_of_blanks {w : List Char} (hw : Blanks w) : '<' ∉ w :=
  fun hmem => absurd (hw '<' hmem) (by decide)

/-- Blanks in front are skipped. -/
theorem skipBlanks_append {w : List Char} (h : Blanks w) (s : List Char) :
    skipBlanks (w ++ s) = skipBlanks s := List.dropWhile_append_of_pos h

theorem skipBlanks_eq_nil {w : List Char} (h : Blanks w) : skipBlanks w = [] := by
  rw [← List.append_nil w, skipBlanks_append h]
  rfl

theorem skipBlanks_cons_of_not_isBlank {c : Char} (h : isBlank c = false) (s : List Char) :
    skipBlanks (c :: s) = c :: s := by
  rw [skipBlanks, List.dropWhile_cons_of_neg (by rw [h]; exact Bool.false_ne_true)]

/-- After blanks are skipped, there are none in front. -/
theorem skipBlanks_skipBlanks (s : List Char) : skipBlanks (skipBlanks s) = skipBlanks s :=
  List.dropWhile_idempotent isBlank s

/-- Blanks are skipped from the front of a text. -/
theorem exists_blanks_append (s : List Char) : ∃ w, Blanks w ∧ w ++ skipBlanks s = s :=
  ⟨s.takeWhile isBlank, fun _ h => List.mem_takeWhile_imp h, List.takeWhile_append_dropWhile⟩

namespace TypeTerm

/-! ## names -/

/-- One or more identifiers joined by dots. -/
inductive QualifiedName : List Char → Prop where
  | last {s : List Char} : isIdentifier s = true → QualifiedName s
  | dot {s rest : List Char} : isIdentifier s = true → QualifiedName rest →
      QualifiedName (s ++ '.' :: rest)

theorem isNamePart_of_isIdentifierPart {c : Char} (h : isIdentifierPart c = true) :
    isNamePart c = true := by
  simp only [isIdentifierPart, Bool.or_eq_true] at h
  obtain (h | h) | h := h
  · have hlt : c.toNat < 0x80 := by
      delta Char.isAlphanum Char.isAlpha Char.isUpper Char.isLower Char.isDigit at h
      simp only [Bool.or_eq_true, Bool.and_eq_true, decide_eq_true_eq, UInt32.le_iff_toNat_le,
        ge_iff_le] at h
      have hval : c.toNat = c.val.toNat := rfl
      simp at h
      omega
    simp [isNamePart, isAlphanumeric, hlt, h]
  · simp [isNamePart, h]
  · simp [isNamePart, h]

theorem isIdentifierPart_of_isIdentifierStart {c : Char} (h : isIdentifierStart c = true) :
    isIdentifierPart c = true := by
  simp only [isIdentifierStart, Bool.or_eq_true] at h
  simp only [isIdentifierPart, Char.isAlphanum, Bool.or_eq_true]
  obtain (h | h) | h := h
  · exact .inl (.inl (.inl h))
  · exact .inl (.inr h)
  · exact .inr h

/-- A blank ends a name, in every script. -/
theorem isNamePart_of_isBlank {c : Char} (h : isBlank c = true) : isNamePart c = false := by
  have hall : ∀ r ∈ blankRanges, ∀ n ∈ List.range' r.1 (r.2 + 1 - r.1),
      isNamePart (Char.ofNat n) = false := by decide +kernel
  obtain ⟨r, hr, hin⟩ := List.any_eq_true.mp h
  simp only [Bool.and_eq_true, decide_eq_true_eq] at hin
  have hpart := hall r hr c.toNat (List.mem_range'_1.mpr (by omega))
  rwa [Char.ofNat_toNat] at hpart

theorem isBlank_of_isNamePart {c : Char} (h : isNamePart c = true) : isBlank c = false := by
  refine Bool.eq_false_iff.mpr fun hblank => ?_
  rw [isNamePart_of_isBlank hblank] at h
  contradiction

theorem isIdentifierPart_of_isIdentifier {s : List Char} (h : isIdentifier s = true) :
    ∀ c ∈ s, isIdentifierPart c = true := by
  cases s with
  | nil => contradiction
  | cons c rest =>
      rw [isIdentifier, Bool.and_eq_true, List.all_eq_true] at h
      intro d hd
      obtain rfl | hd := List.mem_cons.mp hd
      · exact isIdentifierPart_of_isIdentifierStart h.1
      · exact h.2 d hd

theorem isNamePart_of_isIdentifier {s : List Char} (h : isIdentifier s = true) :
    ∀ c ∈ s, isNamePart c = true :=
  fun c hc => isNamePart_of_isIdentifierPart (isIdentifierPart_of_isIdentifier h c hc)

/-- A qualified name has only the characters of names. -/
theorem QualifiedName.isNamePart {s : List Char} (h : QualifiedName s) :
    ∀ c ∈ s, isNamePart c = true := by
  induction h with
  | last hs => exact isNamePart_of_isIdentifier hs
  | @dot s rest hs _ ih =>
      intro c hc
      obtain hc | hc := List.mem_append.mp hc
      · exact isNamePart_of_isIdentifier hs c hc
      · obtain rfl | hc := List.mem_cons.mp hc
        · decide
        · exact ih c hc

/-- A qualified name is not empty. -/
theorem QualifiedName.ne_nil {s : List Char} (h : QualifiedName s) : s ≠ [] := by
  cases h with
  | last hs =>
      rintro rfl
      contradiction
  | dot => simp

/-! ### the check of a name -/

theorem dot_not_mem_of_isIdentifier {s : List Char} (h : isIdentifier s = true) : '.' ∉ s :=
  fun hmem => absurd (isIdentifierPart_of_isIdentifier h '.' hmem) (by decide)

/-- The names of the grammar are those that are checked to be names. -/
theorem qualifiedName_iff {s : List Char} :
    QualifiedName s ↔ isQualifiedName (String.ofList s) = true := by
  rw [isQualifiedName, segments, String.toList_ofList]
  constructor
  · intro h
    induction h with
    | last hs =>
        rw [splitAtChar_of_not_mem (dot_not_mem_of_isIdentifier hs)]
        simpa using hs
    | dot hs _ ih =>
        rw [splitAtChar_append_separator, splitAtChar_of_not_mem (dot_not_mem_of_isIdentifier hs),
          List.singleton_append, List.all_cons, hs, ih]
        rfl
  · intro h
    induction hlen : s.length using Nat.strongRecOn generalizing s with
    | ind n ih =>
        by_cases hdot : '.' ∈ s
        · obtain ⟨part, rest, rfl, hpart⟩ := List.eq_append_cons_of_mem hdot
          rw [splitAtChar_append_separator, splitAtChar_of_not_mem hpart, List.singleton_append,
            List.all_cons, Bool.and_eq_true] at h
          refine .dot h.1 (ih rest.length ?_ h.2 rfl)
          rw [← hlen, List.length_append, List.length_cons]
          omega
        · rw [splitAtChar_of_not_mem hdot] at h
          refine .last ?_
          simpa using h

/-- The names of the grammar are those that pass the test. -/
theorem qualifiedName_toList {name : String} :
    QualifiedName name.toList ↔ isQualifiedName name = true := by
  rw [qualifiedName_iff, String.ofList_toList]

/-! ## types -/

/-- The words between a wildcard and its bound. -/
def boundKeywords : List String := ["extends", "super"]

mutual

/-- A text is a type with a tree. -/
inductive Derives : List Char → TypeTerm → Prop where
  | wildcard {w : List Char} : Blanks w → Derives (w ++ ['?']) .wildcard
  | bounded {w w' s : List Char} {keyword : String} {c : Char} {bound : TypeTerm} :
      Blanks w → Blanks w' → keyword ∈ boundKeywords → isBlank c = true → Derives s bound →
        Derives (w ++ '?' :: (w' ++ (keyword.toList ++ c :: s))) (.bounded bound)
  | named {w name : List Char} : Blanks w → QualifiedName name →
      Derives (w ++ name) (.named (String.ofList name) [])
  | generic {w name s : List Char} {args : List TypeTerm} : Blanks w → QualifiedName name →
      DerivesArgs s args → Derives (w ++ (name ++ '<' :: s)) (.named (String.ofList name) args)
  | array {s w w' : List Char} {item : TypeTerm} : Derives s item → Blanks w → Blanks w' →
      Derives (s ++ (w ++ '[' :: (w' ++ [']']))) (.array item)

/-- A text is what follows `<`: types between commas, and `>`. -/
inductive DerivesArgs : List Char → List TypeTerm → Prop where
  | last {s w : List Char} {arg : TypeTerm} : Derives s arg → Blanks w →
      DerivesArgs (s ++ (w ++ ['>'])) [arg]
  | more {s w s' : List Char} {arg : TypeTerm} {args : List TypeTerm} : Derives s arg →
      Blanks w → DerivesArgs s' args → DerivesArgs (s ++ (w ++ ',' :: s')) (arg :: args)

end

/-! ## array suffixes -/

/-- A wildcard with a bound. -/
def isBounded : TypeTerm → Bool
  | .bounded _ => true
  | .named _ _ | .array _ | .wildcard => false

mutual

/-- Every array suffix belongs to the innermost type that it can follow.  Only
a bounded wildcard ends where a type within it ends, so it has no suffix of
its own. -/
def Innermost : TypeTerm → Prop
  | .named _ args => InnermostAll args
  | .array item => item.isBounded = false ∧ item.Innermost
  | .wildcard => True
  | .bounded bound => bound.Innermost

/-- The same for all arguments. -/
def InnermostAll : List TypeTerm → Prop
  | [] => True
  | arg :: args => arg.Innermost ∧ InnermostAll args

end

/-- One more suffix goes to the innermost type that ends before it. -/
theorem Derives.exists_suffix {w w' : List Char} (hw : Blanks w) (hw' : Blanks w') :
    {s : List Char} → {term : TypeTerm} → Derives s term → term.Innermost →
      ∃ term', Derives (s ++ (w ++ '[' :: (w' ++ [']']))) term' ∧ term'.Innermost
  | _, _, .bounded hv hv' hkeyword hc hbound, hinner => by
      obtain ⟨bound', hderives, hinner'⟩ := hbound.exists_suffix hw hw' hinner
      refine ⟨.bounded bound', ?_, hinner'⟩
      simpa only [List.append_assoc, List.cons_append] using .bounded hv hv' hkeyword hc hderives
  | _, _, .wildcard hv, hinner => ⟨_, .array (.wildcard hv) hw hw', rfl, hinner⟩
  | _, _, .named hv hname, hinner => ⟨_, .array (.named hv hname) hw hw', rfl, hinner⟩
  | _, _, .generic hv hname hargs, hinner =>
      ⟨_, .array (.generic hv hname hargs) hw hw', rfl, hinner⟩
  | _, _, .array hitem hv hv', hinner => ⟨_, .array (.array hitem hv hv') hw hw', rfl, hinner⟩

mutual

/-- **Suffixes can be placed**: a text with a tree has a tree in which every
suffix belongs to the innermost type. -/
theorem Derives.exists_innermost : {s : List Char} → {term : TypeTerm} → Derives s term →
    ∃ term', Derives s term' ∧ term'.Innermost
  | _, _, .wildcard hw => ⟨_, .wildcard hw, trivial⟩
  | _, _, .bounded hw hw' hkeyword hc hbound =>
      let ⟨bound', hderives, hinner⟩ := hbound.exists_innermost
      ⟨.bounded bound', .bounded hw hw' hkeyword hc hderives, hinner⟩
  | _, _, .named hw hname => ⟨_, .named hw hname, trivial⟩
  | _, _, .generic hw hname hargs =>
      let ⟨args', hderives, hinner⟩ := hargs.exists_innermost
      ⟨.named _ args', .generic hw hname hderives, hinner⟩
  | _, _, .array hitem hw hw' =>
      let ⟨_, hderives, hinner⟩ := hitem.exists_innermost
      hderives.exists_suffix hw hw' hinner

/-- Arguments can be derived with all suffixes innermost. -/
theorem DerivesArgs.exists_innermost : {s : List Char} → {args : List TypeTerm} →
    DerivesArgs s args → ∃ args', DerivesArgs s args' ∧ InnermostAll args'
  | _, _, .last harg hw =>
      let ⟨arg', hderives, hinner⟩ := harg.exists_innermost
      ⟨[arg'], .last hderives hw, hinner, trivial⟩
  | _, _, .more harg hw hargs =>
      let ⟨arg', hderives, hinner⟩ := harg.exists_innermost
      let ⟨args', hderives', hinner'⟩ := hargs.exists_innermost
      ⟨arg' :: args', .more hderives hw hderives', hinner, hinner'⟩

end

end TypeTerm

end Exemplar
